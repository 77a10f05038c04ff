import ArwaAgent.Lib.Program

/-!
# Code that returns

`Meets` speaks of every way in which code may end.  `Returns` speaks of the runs that return
a result, and leaves open what holds after an exception.
-/

namespace Effects.Code

variable {Op : Type} {Ans : Op → Type} {ε L α β S : Type}

/-- Whatever the answers, the code calls only what the monitor allows, and where it returns a
result it ends in `Q`. -/
def Returns (M : Monitor Op Ans S) (s : S) (l : L) (x : Code Op Ans ε L α)
    (Q : S → L → α → Prop) : Prop :=
  Meets M s l x fun s l r => ∀ a, r = .ok a → Q s l a

namespace Returns

variable {M : Monitor Op Ans S} {s : S} {l : L} {Q : S → L → β → Prop}

lemma pure {b : β} (h : Q s l b) : Returns M s l (pure b : Code Op Ans ε L β) Q := by
  intro b' hb
  cases hb
  exact h

lemma mono {x : Code Op Ans ε L β} {R : S → L → β → Prop} (hx : Returns M s l x R)
    (h : ∀ s l b, R s l b → Q s l b) : Returns M s l x Q :=
  Meets.mono hx fun s l _ hr b hb => h s l b (hr b hb)

lemma bind {x : Code Op Ans ε L α} {f : α → Code Op Ans ε L β} {R : S → L → α → Prop}
    (hx : Returns M s l x R) (hf : ∀ s l a, R s l a → Returns M s l (f a) Q) :
    Returns M s l (x >>= f) Q := by
  refine Meets.bind hx (fun s l a hr => hf s l a (hr a rfl)) ?_
  intro s l e _ b hb
  cases hb

/-- Sequencing after code of which more is known than what it returns. -/
lemma meets_bind {x : Code Op Ans ε L α} {f : α → Code Op Ans ε L β}
    {R : S → L → Except ε α → Prop} (hx : Meets M s l x R)
    (hf : ∀ s l a, R s l (.ok a) → Returns M s l (f a) Q) : Returns M s l (x >>= f) Q := by
  refine Meets.bind hx hf ?_
  intro s l e _ b hb
  cases hb

lemma stays {x : Code Op Ans ε L β} (hx : Returns M s l x Q) (hs : Stays M s x) :
    Meets M s l x fun s' l r => s' = s ∧ ∀ b, r = .ok b → Q s l b :=
  (Program.Meets.and (hs l) hx).mono fun _ _ ⟨hs', hr⟩ => ⟨hs', fun b hb => hs' ▸ hr b hb⟩

lemma ask_bind {op : Op} {read : Ans op → Except ε α} {f : α → Code Op Ans ε L β}
    (hallows : M.allows s op)
    (hf : ∀ r a, M.expects s op r → read r = .ok a → Returns M (M.next s op r) l (f a) Q) :
    Returns M s l (ask op read >>= f) Q := by
  refine meets_ask_bind.2 ⟨hallows, fun r hr => ?_⟩
  cases hread : read r with
  | ok a => exact hf r a hr hread
  | error e =>
    intro b hb
    cases hb

lemma ask_or_bind {op : Op} {read : Ans op → Except ε α} {a : α} {f : α → Code Op Ans ε L β}
    (hallows : M.allows s op)
    (hf : ∀ r, M.expects s op r →
      Returns M (M.next s op r) l (f ((read r).toOption.getD a)) Q) :
    Returns M s l ((tryCatch (ask op read) fun _ => Pure.pure a) >>= f) Q :=
  Code.meets_bind.2 (meets_ask_or.2 ⟨hallows, hf⟩)

lemma result_bind {r : Except ε α} {f : α → Code Op Ans ε L β}
    (hf : ∀ a, r = .ok a → Returns M s l (f a) Q) : Returns M s l (result r >>= f) Q := by
  refine Meets.result_bind hf ?_
  intro e b hb
  cases hb

lemma stays_bind {x : Code Op Ans ε L α} {f : α → Code Op Ans ε L β} (hx : Stays M s x)
    (hf : ∀ l a, Returns M s l (f a) Q) : Returns M s l (x >>= f) Q := by
  refine hx.meets_bind hf ?_
  intro l e b hb
  cases hb

lemma play {X : Type} {f : X → (op : Op) → Ans op × X} {x : X} {p : Code Op Ans ε L β} {b : β}
    (hf : ∀ s x op, M.allows s op → M.expects s op (f x op).1) (h : Returns M s l p Q)
    (hb : (Program.play f x (p.toProgram l)).2.2.1 = .ok b) :
    Q ((Program.play f x (p.toProgram l)).1.foldl (fun s e => M.next s e.op e.ans) s)
      (Program.play f x (p.toProgram l)).2.2.2 b :=
  Program.Meets.play (I := fun _ _ => True)
    (fun s x op _ hallows => ⟨hf s x op hallows, trivial⟩) h trivial b hb

end Returns

end Effects.Code
