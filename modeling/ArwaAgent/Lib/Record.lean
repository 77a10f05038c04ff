import ArwaAgent.Lib.Program

/-!
# The record of a run

The recorder is a monitor that allows everything and keeps all calls with their answers;
what a program meets under it is said about the record of every run, whatever the answers
were.  A keeper keeps the calls of one kind only, and allows those after which what it has kept
is sound.
-/

namespace Effects

/-- An answered call. -/
structure Reply (Op : Type) (Ans : Op → Type) where
  op : Op
  ans : Ans op

variable {Op : Type} {Ans : Op → Type} {ε L α X : Type}

/-- The monitor that keeps the calls and their answers. -/
def recorder : Monitor Op Ans (List (Reply Op Ans)) where
  allows := fun _ _ => True
  next := fun replies op r => replies ++ [⟨op, r⟩]

/-- Any answer is possible, and is written down. -/
def recording (replies : List (Reply Op Ans)) (op : Op) (r : Ans op)
    (replies' : List (Reply Op Ans)) : Prop :=
  replies' = replies ++ [⟨op, r⟩]

/-- What a program meets under the recorder holds of the record of its runs. -/
lemma Program.Meets.recorded {p : Program Op Ans α} {Q : List (Reply Op Ans) → α → Prop}
    {replies replies' : List (Reply Op Ans)} {a : α} (h : Meets recorder replies p Q)
    (hrun : Runs recording replies p replies' a) : Q replies' a := by
  have hans : ∀ (s x : List (Reply Op Ans)) (op : Op) (r : Ans op) (y : List (Reply Op Ans)),
      s = x → recorder.allows s op → recording x op r y →
        recorder.expects s op r ∧ recorder.next s op r = y := by
    rintro s x op r y rfl - rfl
    exact ⟨trivial, rfl⟩
  obtain ⟨s, rfl, hQ⟩ := h.runs hans hrun rfl
  exact hQ

lemma Program.Runs.answered (reply : Reply Op Ans) {next : Ans reply.op → Program Op Ans α}
    {replies replies' : List (Reply Op Ans)} {a : α}
    (hrest : Runs recording (replies ++ [reply]) (next reply.ans) replies' a) :
    Runs recording replies (.call reply.op next) replies' a :=
  .call rfl hrest

/-- The record of a program that is always answered in the same way, and its result. -/
def transcript (f : (op : Op) → Ans op) :
    List (Reply Op Ans) → Program Op Ans α → List (Reply Op Ans) × α
  | replies, .done a => (replies, a)
  | replies, .call op next => transcript f (replies ++ [⟨op, f op⟩]) (next (f op))

lemma runs_transcript (f : (op : Op) → Ans op) (replies : List (Reply Op Ans))
    (p : Program Op Ans α) :
    Program.Runs recording replies p (transcript f replies p).1 (transcript f replies p).2 := by
  induction p generalizing replies with
  | done a => exact .done replies a
  | call op next ih => exact .call rfl (ih _ _)

lemma ans_of_mem_transcript {f : (op : Op) → Ans op} {replies : List (Reply Op Ans)}
    {p : Program Op Ans α} (h : ∀ x ∈ replies, x.ans = f x.op) :
    ∀ x ∈ (transcript f replies p).1, x.ans = f x.op := by
  induction p generalizing replies with
  | done a => exact h
  | call op next ih =>
    refine ih _ fun x hx => ?_
    rcases List.mem_append.1 hx with hx | hx
    · exact h x hx
    · rw [List.mem_singleton.1 hx]

/-! ### Keeping the calls of one kind -/

/-- A call of the kind that is kept is written down. -/
def keep (kept : Op → Bool) (replies : List (Reply Op Ans)) (op : Op) (r : Ans op) :
    List (Reply Op Ans) :=
  if kept op then replies ++ [⟨op, r⟩] else replies

/-- A call may be made if what is kept is sound after it, whatever the answer. -/
def keeper (kept : Op → Bool) (Sound : List (Reply Op Ans) → Prop) :
    Monitor Op Ans (List (Reply Op Ans)) where
  allows := fun replies op => ∀ r, Sound (keep kept replies op r)
  next := keep kept

section

variable {kept : Op → Bool} {Sound : List (Reply Op Ans) → Prop} {replies : List (Reply Op Ans)}
  {op : Op}

lemma keep_of_kept (h : kept op = true) (r : Ans op) :
    keep kept replies op r = replies ++ [⟨op, r⟩] := if_pos h

lemma keep_of_not_kept (h : kept op = false) (r : Ans op) : keep kept replies op r = replies :=
  if_neg (by simp [h])

lemma keeper_stays {read : Ans op → Except ε α} (hs : Sound replies) (h : kept op = false) :
    Code.Stays (keeper kept Sound) replies (Code.ask op read : Code Op Ans ε L α) :=
  Code.Stays.ask (fun r => (keep_of_not_kept h r).symm ▸ hs) fun r => keep_of_not_kept h r

lemma Program.Meets.kept_of_runs {p : Program Op Ans α} {Q : List (Reply Op Ans) → α → Prop}
    {replies' : List (Reply Op Ans)} {a : α} (h : Meets (keeper kept Sound) [] p Q)
    (hrun : Runs recording [] p replies' a) : Q (replies'.filter fun x => kept x.op) a := by
  have hans : ∀ (s x : List (Reply Op Ans)) (op : Op) (r : Ans op) (y : List (Reply Op Ans)),
      s = x.filter (fun x => kept x.op) → (keeper kept Sound).allows s op → recording x op r y →
        (keeper kept Sound).expects s op r ∧
          (keeper kept Sound).next s op r = y.filter fun x => kept x.op := by
    rintro s x op r y rfl - rfl
    refine ⟨trivial, ?_⟩
    show keep kept _ op r = _
    rw [keep, List.filter_append]
    split
    next hkept => simp [hkept]
    next hnot => simp [hnot]
  obtain ⟨s, rfl, hQ⟩ := h.runs hans hrun rfl
  exact hQ

end

end Effects
