import ArwaAgent.Lib.Program

/-!
# How code ends

`outcome f x l p` is how the code `p` ends when `f` answers its calls from the outside state.
An environment without a state answers a call in the same way whenever it is made, and
`evaluate` computes the outcome in it; code without local variables is then evaluated part
by part.
-/

namespace Effects.Code

variable {Op : Type} {Ans : Op → Type} {ε L α β X : Type}

section

variable {f : X → (op : Op) → Ans op × X} {x : X} {l : L}

/-- How code ends when `f` answers from the outside state `x`. -/
def outcome (f : X → (op : Op) → Ans op × X) (x : X) (l : L) (p : Code Op Ans ε L α) : Except ε α :=
  (Program.play f x (p.toProgram l)).2.2.1

lemma outcome_result_bind (r : Except ε α) (k : α → Code Op Ans ε L β) :
    outcome f x l (result r >>= k) = r >>= fun a => outcome f x l (k a) := by
  cases r <;> rfl

/-- What comes after a program is played from where the program has left the outside state. -/
lemma play_bind {p : Program Op Ans α} {k : α → Program Op Ans β} :
    Program.play f x (p >>= k) =
      ((Program.play f x p).1 ++
        (Program.play f (Program.play f x p).2.1 (k (Program.play f x p).2.2)).1,
        (Program.play f (Program.play f x p).2.1 (k (Program.play f x p).2.2)).2) := by
  induction p generalizing x with
  | done a => rfl
  | call op next ih => rw [Program.call_bind, Program.play, Program.play, ih, List.cons_append]

/-- How code without local variables ends, and the outside state that it leaves. -/
def finish (f : X → (op : Op) → Ans op × X) (x : X) (p : Code Op Ans ε Unit α) : Except ε α × X :=
  ((Program.play f x (p.toProgram ())).2.2.1, (Program.play f x (p.toProgram ())).2.1)

section

variable (f x)

@[simp] lemma finish_pure (a : α) : finish f x (pure a : Code Op Ans ε Unit α) = (.ok a, x) := rfl

@[simp] lemma finish_result (r : Except ε α) : finish f x (result r) = (r, x) := rfl

@[simp] lemma finish_ask (op : Op) (read : Ans op → Except ε α) :
    finish f x (ask op read) = (read (f x op).1, (f x op).2) := rfl

@[simp] lemma finish_bind (p : Code Op Ans ε Unit α) (k : α → Code Op Ans ε Unit β) :
    finish f x (p >>= k) = match finish f x p with
      | (.ok a, y) => finish f y (k a)
      | (.error e, y) => (.error e, y) := by
  simp only [finish, toProgram_bind, play_bind]
  cases (Program.play f x (p.toProgram ())).2.2.1 <;> rfl

@[simp] lemma finish_tryCatch (p : Code Op Ans ε Unit α) (h : ε → Code Op Ans ε Unit α) :
    finish f x (tryCatch p h) = match finish f x p with
      | (.ok a, y) => (.ok a, y)
      | (.error e, y) => finish f y (h e) := by
  simp only [finish, toProgram_tryCatch, play_bind]
  cases (Program.play f x (p.toProgram ())).2.2.1 <;> rfl

end

end

/-- How code ends when a call is answered in the same way whenever it is made. -/
def evaluate (answers : (op : Op) → Ans op) (p : Code Op Ans ε Unit α) : Except ε α :=
  outcome (fun (x : Unit) op => (answers op, x)) () () p

/-- The calls that are made then. -/
def callsOf (answers : (op : Op) → Ans op) (p : Code Op Ans ε Unit α) : List (Event Op Ans Unit) :=
  (Program.play (fun (x : Unit) op => (answers op, x)) () (p.toProgram ())).1

section

variable {answers : (op : Op) → Ans op}

@[simp] lemma evaluate_pure (a : α) :
    evaluate answers (pure a : Code Op Ans ε Unit α) = .ok a := rfl

@[simp] lemma evaluate_result (r : Except ε α) : evaluate answers (result r) = r := rfl

@[simp] lemma evaluate_ask (op : Op) (read : Ans op → Except ε α) :
    evaluate answers (ask op read) = read (answers op) := rfl

@[simp] lemma evaluate_bind (p : Code Op Ans ε Unit α) (k : α → Code Op Ans ε Unit β) :
    evaluate answers (p >>= k) = evaluate answers p >>= fun a => evaluate answers (k a) := by
  simp only [evaluate, outcome, toProgram_bind, play_bind]
  cases (Program.play (fun (x : Unit) op => (answers op, x)) () (p.toProgram ())).2.2.1 <;> rfl

@[simp] lemma evaluate_tryCatch (p : Code Op Ans ε Unit α) (h : ε → Code Op Ans ε Unit α) :
    evaluate answers (tryCatch p h) = tryCatch (evaluate answers p) fun e => evaluate answers (h e) := by
  simp only [evaluate, outcome, toProgram_tryCatch, play_bind]
  cases (Program.play (fun (x : Unit) op => (answers op, x)) () (p.toProgram ())).2.2.1 <;> rfl

lemma mem_callsOf_bind {p : Code Op Ans ε Unit α} {k : α → Code Op Ans ε Unit β} {a : α}
    {e : Event Op Ans Unit} (ha : evaluate answers p = .ok a) (he : e ∈ callsOf answers (k a)) :
    e ∈ callsOf answers (p >>= k) := by
  have hresult : (Program.play (fun (x : Unit) op => (answers op, x)) () (p.toProgram ())).2.2.1 =
      .ok a := ha
  rw [callsOf, toProgram_bind, play_bind, hresult]
  exact List.mem_append_right _ he

lemma mem_callsOf_ask_bind (op : Op) (read : Ans op → Except ε α) (k : α → Code Op Ans ε Unit β) :
    ⟨op, answers op, (), ()⟩ ∈ callsOf answers (ask op read >>= k) := by
  rw [callsOf, toProgram_bind, toProgram_ask, Program.call_bind]
  exact List.mem_cons_self

end

end Effects.Code
