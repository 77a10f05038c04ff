import ArwaAgent.Lib.Handler

/-!
# Code that makes only certain calls

`Only P x` says that every call of the code `x` satisfies `P`, whatever the answers are.
It is a monitor without a state, so the rules for code that leaves a monitor alone are its
rules; what is added are those for the local variables, and the reading of the statement
against an environment and under a handler.
-/

namespace Effects

variable {Op : Type} {Ans : Op → Type} {Op' : Type} {Ans' : Op' → Type} {ε L L' α β X : Type}

/-- The monitor that allows the calls with the property `P`. -/
def Monitor.only (P : Op → Prop) : Monitor Op Ans Unit where
  allows := fun _ op => P op
  next := fun _ _ _ => ()

namespace Program

variable {P : Op → Prop}

/-- Against any environment, only such calls are made. -/
lemma mem_play_of_only {f : X → (op : Op) → Ans op × X} {p : Program Op Ans α} {x : X}
    {Q : Unit → α → Prop} (h : Meets (.only P) () p Q) : ∀ e ∈ (play f x p).1, P e.op := by
  intro e he
  obtain ⟨_, hP⟩ := h.play_allows (fun _ _ _ _ => trivial) e he
  exact hP

lemma only_handle {P' : Op' → Prop} {h : (op : Op) → Program Op' Ans' (Ans op)}
    (hop : ∀ op, P op → Meets (.only P') () (h op) fun _ _ => True) {p : Program Op Ans α}
    {Q : Unit → α → Prop} (hp : Meets (.only P) () p Q) :
    Meets (.only P') () (p.handle h) fun _ _ => True := by
  have hsim : ∀ (s s' : Unit) (op : Op), True → (Monitor.only P : Monitor Op Ans Unit).allows s op →
      Meets (.only P') s' (h op) fun t' r => (Monitor.only P).expects s op r ∧ True :=
    fun _ _ op _ hP => (hop op hP).mono fun _ _ _ => ⟨trivial, trivial⟩
  exact (meets_handle hsim hp trivial).mono fun _ _ _ => trivial

end Program

namespace Code

/-- Whatever the answers, every call of the code satisfies `P`. -/
abbrev Only (P : Op → Prop) (x : Code Op Ans ε L α) : Prop :=
  Stays (.only P) () x

namespace Only

variable {P : Op → Prop}

lemma ask {op : Op} {read : Ans op → Except ε α} (h : P op) :
    Only P (ask op read : Code Op Ans ε L α) :=
  Stays.ask h fun _ => rfl

lemma ask_or {op : Op} {read : Ans op → Except ε α} {a : α} (h : P op) :
    Only P (tryCatch (Code.ask op read) fun _ => Pure.pure a : Code Op Ans ε L α) :=
  Stays.tryCatch (ask h) fun _ => Stays.pure _

/-- Calls that a monitor does not notice leave it in the state it is in. -/
lemma stays {S : Type} {M : Monitor Op Ans S} {s : S} {x : Code Op Ans ε L α} (hx : Only P x)
    (hP : ∀ op, P op → M.allows s op ∧ ∀ r, M.next s op r = s) : Stays M s x := by
  intro l
  refine (Meets.simulate (R := fun _ t => t = s) ?_ (hx l) rfl).mono fun t l r h => h.elim
    fun _ h => h.1
  rintro _ t op rfl hop
  exact ⟨(hP op hop).1, fun r _ => ⟨trivial, (hP op hop).2 r⟩⟩

lemma set (l : L) : Only P (set l : Code Op Ans ε L PUnit) := fun _ => rfl

lemma block {l : L'} {x : Code Op Ans ε L' α} (hx : Only P x) :
    Only P (block l x : Code Op Ans ε L (Except ε α × L')) :=
  fun _ => meets_block.2 (hx l)

lemma mem_play {x : Code Op Ans ε L α} (hx : Only P x) {f : X → (op : Op) → Ans op × X} {y : X}
    {l : L} : ∀ e ∈ (Program.play f y (x.toProgram l)).1, P e.op :=
  Program.mem_play_of_only (hx l)

end Only

end Code

end Effects
