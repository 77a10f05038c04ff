import Mathlib.Init

/-!
# Programs that call operations

A program either is done or calls an operation and goes on with its answer.  What an
operation does is left open, so one program can be run against a machine, against
every possible environment, or in a pool with other programs.

Three readings of a program are used:

* `Meets M s p Q`: whatever the answers, `p` calls only what the monitor `M` allows in
  its current state, and ends in `Q`;
* `play f x p`: the calls of `p` and its result when `f` answers them, from the outside
  state `x`;
* `Runs answer x p y a`: `p` may lead from the outside state `x` to `y`, with the result `a`.

`Code` adds exceptions and local variables, which keep their values when an exception
is thrown.
-/

namespace Effects

/-- Programs with results in `α` that call operations `Op`; `op` is answered by an `Ans op`. -/
inductive Program (Op : Type) (Ans : Op → Type) (α : Type) : Type
  | done (a : α)
  | call (op : Op) (next : Ans op → Program Op Ans α)

/-- An answered call, with the outside state before and after it. -/
structure Event (Op : Type) (Ans : Op → Type) (X : Type) where
  op : Op
  ans : Ans op
  before : X
  after : X

/-- A monitor follows the calls of a program: it says which ones are allowed in its current
state, which answers it expects, and how it goes on. -/
structure Monitor (Op : Type) (Ans : Op → Type) (S : Type) where
  allows : S → Op → Prop
  expects : S → (op : Op) → Ans op → Prop := fun _ _ _ => True
  next : S → (op : Op) → Ans op → S

/-- The monitor remembers whether a call of some kind has been made. -/
def Monitor.Latches {Op : Type} {Ans : Op → Type} (M : Monitor Op Ans Bool) (hit : Op → Bool) :
    Prop :=
  ∀ s op r, M.next s op r = (s || hit op)

namespace Program

variable {Op : Type} {Ans : Op → Type} {α β S X : Type}

/-- Run the second program on the result of the first. -/
def bind : Program Op Ans α → (α → Program Op Ans β) → Program Op Ans β
  | done a, f => f a
  | call op next, f => call op fun r => (next r).bind f

instance : Monad (Program Op Ans) where
  pure := done
  bind := bind

@[simp] lemma done_bind (a : α) (f : α → Program Op Ans β) : done a >>= f = f a := rfl

@[simp] lemma call_bind (op : Op) (next : Ans op → Program Op Ans α) (f : α → Program Op Ans β) :
    call op next >>= f = call op fun r => next r >>= f := rfl

lemma bind_assoc {γ : Type} (p : Program Op Ans α) (f : α → Program Op Ans β)
    (g : β → Program Op Ans γ) : p >>= f >>= g = p >>= fun a => f a >>= g := by
  induction p with
  | done a => rfl
  | call op next ih =>
    simp only [call_bind]
    exact congrArg (call op) (funext ih)

/-! ### Meeting a monitor -/

/-- The program calls only what the monitor allows, as long as the answers are expected
ones, and ends in `Q`. -/
def Meets (M : Monitor Op Ans S) : S → Program Op Ans α → (S → α → Prop) → Prop
  | s, done a, Q => Q s a
  | s, call op next, Q =>
    M.allows s op ∧ ∀ r, M.expects s op r → Meets M (M.next s op r) (next r) Q

variable {M : Monitor Op Ans S} {s : S}

@[simp] lemma meets_call {op : Op} {next : Ans op → Program Op Ans α} {Q : S → α → Prop} :
    Meets M s (call op next) Q ↔
      M.allows s op ∧ ∀ r, M.expects s op r → Meets M (M.next s op r) (next r) Q := Iff.rfl

lemma meets_bind {p : Program Op Ans α} {f : α → Program Op Ans β} {Q : S → β → Prop} :
    Meets M s (p >>= f) Q ↔ Meets M s p fun s a => Meets M s (f a) Q := by
  induction p generalizing s with
  | done a => rfl
  | call op next ih =>
    rw [call_bind, meets_call, meets_call]
    exact and_congr_right fun _ => forall_congr' fun r => imp_congr_right fun _ => ih r

lemma Meets.mono {p : Program Op Ans α} {Q Q' : S → α → Prop} (h : Meets M s p Q)
    (hQ : ∀ s a, Q s a → Q' s a) : Meets M s p Q' := by
  induction p generalizing s with
  | done a => exact hQ s a h
  | call op next ih => exact ⟨h.1, fun r hr => ih r (h.2 r hr)⟩

lemma Meets.and {p : Program Op Ans α} {Q Q' : S → α → Prop} (h : Meets M s p Q)
    (h' : Meets M s p Q') : Meets M s p fun s a => Q s a ∧ Q' s a := by
  induction p generalizing s with
  | done a => exact ⟨h, h'⟩
  | call op next ih => exact ⟨h.1, fun r hr => ih r (h.2 r hr) (h'.2 r hr)⟩

/-- Where the monitor allows every call and no call leads out, a program may do anything. -/
lemma meets_of_invariant {I : S → Prop} (hallows : ∀ s op, I s → M.allows s op)
    (hnext : ∀ s op r, I s → I (M.next s op r)) {p : Program Op Ans α} (hs : I s) :
    Meets M s p fun s _ => I s := by
  induction p generalizing s with
  | done a => exact hs
  | call op next ih => exact ⟨hallows s op hs, fun r _ => ih r (hnext s op r hs)⟩

/-- Where every call that one monitor allows is followed by the other, in related states, a
program that meets the first one meets the second one. -/
lemma Meets.simulate {S' : Type} {N : Monitor Op Ans S'} {R : S → S' → Prop}
    (hR : ∀ s s' op, R s s' → M.allows s op → N.allows s' op ∧ ∀ r, N.expects s' op r →
      M.expects s op r ∧ R (M.next s op r) (N.next s' op r))
    {p : Program Op Ans α} {Q : S → α → Prop} (h : Meets M s p Q) {s' : S'} (hs : R s s') :
    Meets N s' p fun s' a => ∃ s, R s s' ∧ Q s a := by
  induction p generalizing s s' with
  | done a => exact ⟨s, hs, h⟩
  | call op next ih =>
    obtain ⟨hallows, hnext⟩ := hR s s' op hs h.1
    refine ⟨hallows, fun r hr => ?_⟩
    obtain ⟨hexp, hs'⟩ := hnext r hr
    exact ih r (h.2 r hexp) hs'

lemma foldl_of_latches {M : Monitor Op Ans Bool} {hit : Op → Bool} (hM : M.Latches hit)
    (events : List (Event Op Ans X)) (s : Bool) :
    events.foldl (fun s e => M.next s e.op e.ans) s = (s || events.any fun e => hit e.op) := by
  induction events generalizing s with
  | nil => exact (Bool.or_false s).symm
  | cons e events ih => rw [List.foldl_cons, ih, hM, List.any_cons, Bool.or_assoc]

/-! ### Playing a program against an environment -/

/-- The calls and the result of a program when `f` answers from the outside state. -/
def play (f : X → (op : Op) → Ans op × X) :
    X → Program Op Ans α → List (Event Op Ans X) × X × α
  | x, done a => ([], x, a)
  | x, call op next =>
    (⟨op, (f x op).1, x, (f x op).2⟩ :: (play f (f x op).2 (next (f x op).1)).1,
      (play f (f x op).2 (next (f x op).1)).2)

lemma answer_of_mem_play {f : X → (op : Op) → Ans op × X} {p : Program Op Ans α} {x : X} :
    ∀ e ∈ (play f x p).1, e.ans = (f e.before e.op).1 ∧ e.after = (f e.before e.op).2 := by
  induction p generalizing x with
  | done a => simp [play]
  | call op next ih =>
    intro e he
    rcases List.mem_cons.1 he with rfl | he
    · exact ⟨rfl, rfl⟩
    · exact ih _ e he

/-- What a program meets whatever the expected answers are, it meets against an environment
that gives expected ones. -/
lemma Meets.play {f : X → (op : Op) → Ans op × X} {I : S → X → Prop}
    (hf : ∀ s x op, I s x → M.allows s op →
      M.expects s op (f x op).1 ∧ I (M.next s op (f x op).1) (f x op).2)
    {p : Program Op Ans α} {Q : S → α → Prop} (h : Meets M s p Q) {x : X} (hs : I s x) :
    Q ((play f x p).1.foldl (fun s e => M.next s e.op e.ans) s) (play f x p).2.2 := by
  induction p generalizing s x with
  | done a => exact h
  | call op next ih =>
    obtain ⟨hexp, hI⟩ := hf s x op hs h.1
    exact ih _ (h.2 _ hexp) hI

/-- Against an environment that gives expected answers, only allowed calls are made. -/
lemma Meets.play_allows {f : X → (op : Op) → Ans op × X}
    (hf : ∀ s x op, M.allows s op → M.expects s op (f x op).1)
    {p : Program Op Ans α} {Q : S → α → Prop} (h : Meets M s p Q) {x : X} :
    ∀ e ∈ (Program.play f x p).1, ∃ s, M.allows s e.op := by
  induction p generalizing s x with
  | done a => simp [Program.play]
  | call op next ih =>
    intro e he
    rcases List.mem_cons.1 he with rfl | he
    · exact ⟨s, h.1⟩
    · exact ih _ (h.2 _ (hf s x op h.1)) e he

/-! ### Running a program by itself -/

/-- The ways in which a program may end when its calls are answered from the outside state. -/
inductive Runs (answer : X → (op : Op) → Ans op → X → Prop) :
    X → Program Op Ans α → X → α → Prop
  | done (x : X) (a : α) : Runs answer x (done a) x a
  | call {x y z : X} {op : Op} {next : Ans op → Program Op Ans α} {r : Ans op} {a : α}
      (hans : answer x op r y) (hrest : Runs answer y (next r) z a) :
      Runs answer x (call op next) z a

/-- What a program meets holds where it ends, if the monitor agrees with the outside state and
every answer keeps it so. -/
lemma Meets.runs {answer : X → (op : Op) → Ans op → X → Prop} {I : S → X → Prop}
    (hans : ∀ s x op r y, I s x → M.allows s op → answer x op r y →
      M.expects s op r ∧ I (M.next s op r) y)
    {p : Program Op Ans α} {Q : S → α → Prop} (h : Meets M s p Q) {x y : X} {a : α}
    (hrun : Runs answer x p y a) (hs : I s x) : ∃ s', I s' y ∧ Q s' a := by
  induction hrun generalizing s with
  | done x a => exact ⟨s, hs, h⟩
  | call hans' _ ih =>
    obtain ⟨hexp, hI⟩ := hans _ _ _ _ _ hs h.1 hans'
    exact ih (h.2 _ hexp) hI

/-- What one outside may answer, the other may answer too, so that a run beside the one is a run
beside the other. -/
lemma Runs.simulate {X' : Type} {answer : X → (op : Op) → Ans op → X → Prop}
    {answer' : X' → (op : Op) → Ans op → X' → Prop} {R : X → X' → Prop}
    (hR : ∀ x x' op r y, R x x' → answer x op r y → ∃ y', answer' x' op r y' ∧ R y y')
    {p : Program Op Ans α} {x y : X} {a : α} (hrun : Runs answer x p y a) {x' : X'}
    (hx : R x x') : ∃ y', Runs answer' x' p y' a ∧ R y y' := by
  induction hrun generalizing x' with
  | done x a => exact ⟨x', .done x' a, hx⟩
  | call hans _ ih =>
    obtain ⟨y', hans', hy⟩ := hR _ _ _ _ _ hx hans
    obtain ⟨z', hrun', hz⟩ := ih hy
    exact ⟨z', .call hans' hrun', hz⟩

end Program

/-- Programs with exceptions in `ε` and local variables in `L`. -/
abbrev Code (Op : Type) (Ans : Op → Type) (ε L α : Type) : Type :=
  ExceptT ε (StateT L (Program Op Ans)) α

namespace Code

variable {Op : Type} {Ans : Op → Type} {ε L L' α β S X : Type}

/-- Call an operation and read its answer as a result or an exception. -/
def ask (op : Op) (read : Ans op → Except ε α) : Code Op Ans ε L α :=
  ExceptT.mk (StateT.lift (.call op fun r => .done (read r)))

/-- A result or an exception that is already there. -/
def result (r : Except ε α) : Code Op Ans ε L α :=
  ExceptT.mk (StateT.lift (.done r))

/-- Run a block with local variables of its own, and hand out how it ended. -/
def block (l : L') (x : Code Op Ans ε L' α) : Code Op Ans ε L (Except ε α × L') :=
  ExceptT.mk fun l₀ => x.run.run l >>= fun r => .done (.ok r, l₀)

/-- What the code does from given local variables, as a program. -/
def toProgram (x : Code Op Ans ε L α) (l : L) : Program Op Ans (Except ε α × L) :=
  x.run.run l

section

variable (l : L)

@[simp] lemma toProgram_pure (a : α) :
    (pure a : Code Op Ans ε L α).toProgram l = .done (.ok a, l) := rfl

@[simp] lemma toProgram_bind (x : Code Op Ans ε L α) (f : α → Code Op Ans ε L β) :
    (x >>= f).toProgram l = x.toProgram l >>= fun r => match r.1 with
      | .ok a => (f a).toProgram r.2
      | .error e => .done (.error e, r.2) := by
  show (ExceptT.bind x f).run.run l = _
  refine congrArg (x.toProgram l >>= ·) (funext fun r => ?_)
  obtain ⟨r, l'⟩ := r
  cases r <;> rfl

@[simp] lemma toProgram_tryCatch (x : Code Op Ans ε L α) (h : ε → Code Op Ans ε L α) :
    (tryCatch x h).toProgram l = x.toProgram l >>= fun r => match r.1 with
      | .ok a => .done (.ok a, r.2)
      | .error e => (h e).toProgram r.2 := by
  refine congrArg (x.toProgram l >>= ·) (funext fun r => ?_)
  obtain ⟨r, l'⟩ := r
  cases r <;> rfl

@[simp] lemma toProgram_ask (op : Op) (read : Ans op → Except ε α) :
    (ask op read : Code Op Ans ε L α).toProgram l =
      .call op fun r => .done (read r, l) := rfl

@[simp] lemma toProgram_result (r : Except ε α) :
    (result r : Code Op Ans ε L α).toProgram l = .done (r, l) := rfl

end

/-! ### Meeting a monitor -/

/-- The code calls only what the monitor allows, and ends, with a result or an exception,
in `Q`. -/
def Meets (M : Monitor Op Ans S) (s : S) (l : L) (x : Code Op Ans ε L α)
    (Q : S → L → Except ε α → Prop) : Prop :=
  Program.Meets M s (x.toProgram l) fun s r => Q s r.2 r.1

variable {M : Monitor Op Ans S} {s : S} {l : L}

@[simp] lemma meets_pure {a : α} {Q : S → L → Except ε α → Prop} :
    Meets M s l (pure a) Q ↔ Q s l (.ok a) := Iff.rfl

@[simp] lemma meets_set {l' : L} {Q : S → L → Except ε PUnit → Prop} :
    Meets M s l (set l') Q ↔ Q s l' (.ok ⟨⟩) := Iff.rfl

@[simp] lemma meets_get_bind {f : L → Code Op Ans ε L α} {Q : S → L → Except ε α → Prop} :
    Meets M s l (get >>= f) Q ↔ Meets M s l (f l) Q := Iff.rfl

@[simp] lemma meets_ask {op : Op} {read : Ans op → Except ε α} {Q : S → L → Except ε α → Prop} :
    Meets M s l (ask op read) Q ↔
      M.allows s op ∧ ∀ r, M.expects s op r → Q (M.next s op r) l (read r) := Iff.rfl

lemma Meets.mono {x : Code Op Ans ε L α} {Q Q' : S → L → Except ε α → Prop}
    (h : Meets M s l x Q) (hQ : ∀ s l r, Q s l r → Q' s l r) : Meets M s l x Q' :=
  Program.Meets.mono h fun _ _ => hQ _ _ _

lemma meets_bind {x : Code Op Ans ε L α} {f : α → Code Op Ans ε L β}
    {Q : S → L → Except ε β → Prop} :
    Meets M s l (x >>= f) Q ↔ Meets M s l x fun s l r => match r with
      | .ok a => Meets M s l (f a) Q
      | .error e => Q s l (.error e) := by
  rw [Meets, toProgram_bind, Program.meets_bind]
  -- both sides differ only in where they look at the result
  constructor
  all_goals
    refine fun h => Program.Meets.mono h fun s r hr => ?_
    obtain ⟨r, l'⟩ := r
    cases r <;> exact hr

lemma meets_ask_bind {op : Op} {read : Ans op → Except ε α} {f : α → Code Op Ans ε L β}
    {Q : S → L → Except ε β → Prop} :
    Meets M s l (ask op read >>= f) Q ↔
      M.allows s op ∧ ∀ r, M.expects s op r → match read r with
        | .ok a => Meets M (M.next s op r) l (f a) Q
        | .error e => Q (M.next s op r) l (.error e) :=
  meets_bind

lemma meets_result_bind {r : Except ε α} {f : α → Code Op Ans ε L β}
    {Q : S → L → Except ε β → Prop} :
    Meets M s l (result r >>= f) Q ↔ match r with
      | .ok a => Meets M s l (f a) Q
      | .error e => Q s l (.error e) :=
  meets_bind

lemma Meets.result_bind {r : Except ε α} {f : α → Code Op Ans ε L β}
    {Q : S → L → Except ε β → Prop} (hok : ∀ a, r = .ok a → Meets M s l (f a) Q)
    (herr : ∀ e, Q s l (.error e)) : Meets M s l (result r >>= f) Q := by
  refine meets_result_bind.2 ?_
  cases r with
  | ok a => exact hok a rfl
  | error e => exact herr e

lemma meets_tryCatch {x : Code Op Ans ε L α} {h : ε → Code Op Ans ε L α}
    {Q : S → L → Except ε α → Prop} :
    Meets M s l (tryCatch x h) Q ↔ Meets M s l x fun s l r => match r with
      | .ok a => Q s l (.ok a)
      | .error e => Meets M s l (h e) Q := by
  rw [Meets, toProgram_tryCatch, Program.meets_bind]
  constructor
  all_goals
    refine fun h => Program.Meets.mono h fun s r hr => ?_
    obtain ⟨r, l'⟩ := r
    cases r <;> exact hr

lemma meets_ask_or {op : Op} {read : Ans op → Except ε α} {a : α}
    {Q : S → L → Except ε α → Prop} :
    Meets M s l (tryCatch (ask op read) fun _ => pure a) Q ↔
      M.allows s op ∧ ∀ r, M.expects s op r →
        Q (M.next s op r) l (.ok ((read r).toOption.getD a)) := by
  rw [meets_tryCatch, meets_ask]
  refine and_congr_right fun _ => forall_congr' fun r => imp_congr_right fun _ => ?_
  cases read r <;> rfl

lemma Meets.simulate {S' : Type} {N : Monitor Op Ans S'} {R : S → S' → Prop}
    (hR : ∀ s s' op, R s s' → M.allows s op → N.allows s' op ∧ ∀ r, N.expects s' op r →
      M.expects s op r ∧ R (M.next s op r) (N.next s' op r))
    {x : Code Op Ans ε L α} {Q : S → L → Except ε α → Prop} (h : Meets M s l x Q) {s' : S'}
    (hs : R s s') : Meets N s' l x fun s' l r => ∃ s, R s s' ∧ Q s l r :=
  Program.Meets.simulate hR h hs

lemma meets_block {l' : L'} {x : Code Op Ans ε L' α}
    {Q : S → L → Except ε (Except ε α × L') → Prop} :
    Meets M s l (block l' x) Q ↔ Meets M s l' x fun s l' r => Q s l (.ok (r, l')) :=
  Program.meets_bind

/-- Sequencing through an intermediate condition. -/
lemma Meets.bind {x : Code Op Ans ε L α} {f : α → Code Op Ans ε L β}
    {R : S → L → Except ε α → Prop} {Q : S → L → Except ε β → Prop} (hx : Meets M s l x R)
    (hok : ∀ s l a, R s l (.ok a) → Meets M s l (f a) Q)
    (herr : ∀ s l e, R s l (.error e) → Q s l (.error e)) : Meets M s l (x >>= f) Q := by
  refine meets_bind.2 (hx.mono fun s l r hr => ?_)
  cases r with
  | ok a => exact hok s l a hr
  | error e => exact herr s l e hr

lemma Meets.tryCatch {x : Code Op Ans ε L α} {h : ε → Code Op Ans ε L α}
    {R : S → L → Except ε α → Prop} {Q : S → L → Except ε α → Prop} (hx : Meets M s l x R)
    (hok : ∀ s l a, R s l (.ok a) → Q s l (.ok a))
    (herr : ∀ s l e, R s l (.error e) → Meets M s l (h e) Q) :
    Meets M s l (tryCatch x h) Q := by
  refine meets_tryCatch.2 (hx.mono fun s l r hr => ?_)
  cases r with
  | ok a => exact hok s l a hr
  | error e => exact herr s l e hr

lemma meets_of_invariant {I : S → Prop} (hallows : ∀ s op, I s → M.allows s op)
    (hnext : ∀ s op r, I s → I (M.next s op r)) {x : Code Op Ans ε L α} (hs : I s) :
    Meets M s l x fun s _ _ => I s :=
  Program.meets_of_invariant hallows hnext hs

lemma meets_of_latches {M : Monitor Op Ans Bool} {hit : Op → Bool} (hM : M.Latches hit)
    (hallows : ∀ op, M.allows true op) {x : Code Op Ans ε L α} :
    Meets M true l x fun s _ _ => s = true := by
  refine meets_of_invariant ?_ ?_ rfl
  · rintro _ op rfl
    exact hallows op
  · rintro _ op r rfl
    rw [hM, Bool.true_or]

/-! ### Code that the monitor does not notice -/

/-- Whatever the answers, the code leaves the monitor in the state it is in. -/
def Stays (M : Monitor Op Ans S) (s : S) (x : Code Op Ans ε L α) : Prop :=
  ∀ l, Meets M s l x fun s' _ _ => s' = s

namespace Stays

lemma pure (a : α) : Stays M s (pure a : Code Op Ans ε L α) := fun _ => rfl

lemma throw (e : ε) : Stays M s (throw e : Code Op Ans ε L α) := fun _ => rfl

lemma result (r : Except ε α) : Stays M s (result r : Code Op Ans ε L α) := fun _ => rfl

lemma set (l : L) : Stays M s (set l : Code Op Ans ε L PUnit) := fun _ => rfl

lemma ask {op : Op} {read : Ans op → Except ε α} (hallows : M.allows s op)
    (hnext : ∀ r, M.next s op r = s) : Stays M s (ask op read : Code Op Ans ε L α) :=
  fun _ => meets_ask.2 ⟨hallows, fun r _ => hnext r⟩

lemma bind {x : Code Op Ans ε L α} {f : α → Code Op Ans ε L β} (hx : Stays M s x)
    (hf : ∀ a, Stays M s (f a)) : Stays M s (x >>= f) := by
  intro l
  refine Meets.bind (hx l) ?_ ?_
  · rintro _ l a rfl
    exact hf a l
  · rintro _ l e rfl
    rfl

lemma tryCatch {x : Code Op Ans ε L α} {h : ε → Code Op Ans ε L α} (hx : Stays M s x)
    (hh : ∀ e, Stays M s (h e)) : Stays M s (tryCatch x h) := by
  intro l
  refine Meets.tryCatch (hx l) ?_ ?_
  · rintro _ l a rfl
    rfl
  · rintro _ l e rfl
    exact hh e l

/-- Code that the monitor does not notice may be run first. -/
lemma meets_bind {x : Code Op Ans ε L α} {f : α → Code Op Ans ε L β}
    {Q : S → L → Except ε β → Prop} (hx : Stays M s x) {l : L}
    (hok : ∀ l a, Meets M s l (f a) Q) (herr : ∀ l e, Q s l (.error e)) :
    Meets M s l (x >>= f) Q := by
  refine Meets.bind (hx l) ?_ ?_
  · rintro _ l a rfl
    exact hok l a
  · rintro _ l e rfl
    exact herr l e

end Stays

end Code

end Effects
