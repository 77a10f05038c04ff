import ArwaAgent.Lib.Program

/-!
# Implementing operations by programs

A handler implements each operation of a program by a program over other operations.
`meets_handle` is the simulation rule for it: if the implementations give expected
answers and keep a relation between the states of two monitors, then whatever a program
meets over its own operations, its implementation meets over theirs.
-/

namespace Effects

namespace Program

variable {Op : Type} {Ans : Op → Type} {Op' : Type} {Ans' : Op' → Type} {α S S' : Type}

/-- Replace every call by the program that implements it. -/
def handle (h : (op : Op) → Program Op' Ans' (Ans op)) : Program Op Ans α → Program Op' Ans' α
  | done a => done a
  | call op next => h op >>= fun r => handle h (next r)

@[simp] lemma handle_done {h : (op : Op) → Program Op' Ans' (Ans op)} (a : α) :
    (done a : Program Op Ans α).handle h = done a := rfl

@[simp] lemma handle_call {h : (op : Op) → Program Op' Ans' (Ans op)} (op : Op)
    (next : Ans op → Program Op Ans α) :
    (call op next).handle h = h op >>= fun r => (next r).handle h := rfl

/-- A program and its implementation, under two monitors whose states are related. -/
theorem meets_handle {h : (op : Op) → Program Op' Ans' (Ans op)} {M : Monitor Op Ans S}
    {M' : Monitor Op' Ans' S'} {R : S → S' → Prop}
    (hop : ∀ s s' op, R s s' → M.allows s op →
      Meets M' s' (h op) fun t' r => M.expects s op r ∧ R (M.next s op r) t')
    {p : Program Op Ans α} {Q : S → α → Prop} {s : S} {s' : S'} (hp : Meets M s p Q)
    (hs : R s s') : Meets M' s' (p.handle h) fun t' a => ∃ t, R t t' ∧ Q t a := by
  induction p generalizing s s' with
  | done a => exact ⟨s, hs, hp⟩
  | call op next ih =>
    refine meets_bind.2 ((hop s s' op hs hp.1).mono ?_)
    rintro t' r ⟨hr, ht⟩
    exact ih r (hp.2 r hr) ht

end Program

end Effects
