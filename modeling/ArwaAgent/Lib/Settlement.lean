import Mathlib.Algebra.BigOperators.Group.List.Basic
import ArwaAgent.Lib.Pool

/-!
# Balances that every task settles

Two parts of a shared state are to agree, but the code moves them by separate calls, and
between the calls of one task those of others come.  A monitor that adds up what the calls
of a task move gives what the task still owes.  `settled` is the rule: if every job ends
with nothing owed, whatever it is answered, then the balance of the shared state is zero
whenever no task is in flight.
-/

namespace Effects

/-- A monitor that adds up what the calls change. -/
def Monitor.adding {Op : Type} {Ans : Op → Type} {A : Type} [Add A] (allowed : Op → Prop)
    (δ : (op : Op) → Ans op → A) : Monitor Op Ans A where
  allows := fun _ op => allowed op
  next := fun s op r => s + δ op r

namespace Pool

variable {Op : Type} {Ans : Op → Type} {X J : Type}

section

variable {A : Type} [AddCommGroup A] {allowed : Op → Prop} {δ : (op : Op) → Ans op → A}

/-- The sums that the tasks have come to make up the balance `b`, and each task brings its own
to zero before it ends. -/
def Owing (allowed : Op → Prop) (δ : (op : Op) → Ans op → A) (ts : List (Process Op Ans J))
    (b : A) : Prop :=
  ∃ due : List A, due.length = ts.length ∧ due.sum = b ∧
    ∀ (k : ℕ) (t : Process Op Ans J) (a : A), ts[k]? = some t → due[k]? = some a →
      t.rest.Meets (.adding allowed δ) a fun s _ => s = 0

lemma Owing.start {ts : List (Process Op Ans J)} {b : A} (h : Owing allowed δ ts b) {j : J}
    {p : Program Op Ans Unit} (hp : p.Meets (.adding allowed δ) 0 fun s _ => s = 0) :
    Owing allowed δ (ts ++ [⟨j, p⟩]) b := by
  obtain ⟨due, hlen, hsum, hdue⟩ := h
  refine ⟨due ++ [0], by simp [hlen], by simp [hsum], fun k t a ht ha => ?_⟩
  rcases getElem?_snoc_eq_some_iff.1 ht with ht | ⟨rfl, rfl⟩
  · refine hdue k t a ht ?_
    have hk := (List.getElem?_eq_some_iff.1 ht).1
    rwa [List.getElem?_append_left (by omega)] at ha
  · rw [← hlen, List.getElem?_concat_length] at ha
    cases ha
    exact hp

lemma Owing.turn {ts : List (Process Op Ans J)} {b : A} (h : Owing allowed δ ts b) {k : ℕ} {j : J}
    {op : Op} {next : Ans op → Program Op Ans Unit} (htask : ts[k]? = some ⟨j, .call op next⟩)
    (r : Ans op) : allowed op ∧ Owing allowed δ (ts.set k ⟨j, next r⟩) (b + δ op r) := by
  obtain ⟨due, hlen, hsum, hdue⟩ := h
  have hk := (List.getElem?_eq_some_iff.1 htask).1
  have hk' : k < due.length := by omega
  have hmeets := hdue k _ _ htask (List.getElem?_eq_getElem hk')
  refine ⟨hmeets.1, due.set k (due[k] + δ op r), by simp [hlen], ?_, fun i t a ht ha => ?_⟩
  · rw [List.sum_set', dif_pos hk', neg_add_cancel_left, hsum]
  · by_cases hik : k = i
    · subst hik
      rw [List.getElem?_set_self hk] at ht
      rw [List.getElem?_set_self hk'] at ha
      cases ht
      cases ha
      exact hmeets.2 r trivial
    · rw [List.getElem?_set_ne hik] at ht ha
      exact hdue i t a ht ha

/-- What is settled by every job before it ends is settled when no task is in flight: the
balance of the shared state, which a call moves by as much as its task then owes, is zero. -/
theorem settled {m : Machine Op Ans X J} {ok : Pool Op Ans X J → Label Op Ans X J → Prop}
    {I : X → Prop} {F : X → A}
    (hcode : ∀ j, (m.code j).Meets (.adding allowed δ) 0 fun s _ => s = 0)
    (hinit : ∀ x, m.init x → I x ∧ F x = 0)
    (hturn : ∀ w e, I e.before → allowed e.op → m.answer e.before e.op e.ans e.after →
      ok w (.turn e) → I e.after ∧ F e.after = F e.before + δ e.op e.ans)
    (hdrift : ∀ x y, I x → m.drift x y → I y ∧ F y = F x) {w : Pool Op Ans X J}
    (h : (system m).ReachableVia ok w) : I w.shared ∧ (Idle w → F w.shared = 0) := by
  have hinv : I w.shared ∧ Owing allowed δ w.tasks (F w.shared) := by
    refine h.invariant (I := fun w => I w.shared ∧ Owing allowed δ w.tasks (F w.shared)) ?_ ?_
    · rintro ⟨x, ts, log⟩ ⟨hx, rfl, rfl⟩
      obtain ⟨hI, hF⟩ := hinit x hx
      exact ⟨hI, [], rfl, hF.symm, by simp⟩
    · rintro w l w' ⟨hI, howing⟩ hok hstep
      cases hstep with
      | start j => exact ⟨hI, howing.start (hcode j)⟩
      | @turn k j op next r y htask hans =>
        obtain ⟨hallowed, hnext⟩ := howing.turn htask r
        obtain ⟨hI', hF⟩ := hturn w _ hI hallowed hans hok
        exact ⟨hI', hF ▸ hnext⟩
      | drift hd =>
        obtain ⟨hI', hF⟩ := hdrift _ _ hI hd
        exact ⟨hI', hF ▸ howing⟩
  obtain ⟨hI, due, hlen, hsum, hdue⟩ := hinv
  refine ⟨hI, fun hidle => ?_⟩
  -- a task that has ended owes nothing
  rw [← hsum]
  refine List.sum_eq_zero fun a ha => ?_
  obtain ⟨k, hk⟩ := List.mem_iff_getElem?.1 ha
  have hlt := (List.getElem?_eq_some_iff.1 hk).1
  have ht := List.getElem?_eq_getElem (l := w.tasks) (i := k) (by omega)
  have hmeets := hdue k _ a ht hk
  rw [hidle _ (List.getElem_mem _)] at hmeets
  exact hmeets

end

end Pool

end Effects
