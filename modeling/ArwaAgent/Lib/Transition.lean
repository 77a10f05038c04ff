import Mathlib.Data.List.Basic
import Mathlib.Logic.Relation

/-!
# Transition systems and the invariants of their runs

A system has states `σ` and labels `α`; a run is a sequence of labelled steps
from an initial state.  The file fixes three notions:

* `ReachableVia ok`: the states reached by the runs all of whose steps meet the
  side condition `ok`, a relation between the state before the step and its label;
* `Reachable`: the states reached by any run, which is `ReachableVia` with the
  trivial side condition;
* `Continues s t`: some run, of any length, leads from `s` to `t`.

An invariant is proved once, by `ReachableVia.invariant`: it holds initially and
one step keeps it.
-/

/-- A labelled transition system. -/
structure TransitionSystem (σ α : Type*) where
  /-- The states a run may start in. -/
  init : σ → Prop
  /-- One step, with its label. -/
  step : σ → α → σ → Prop

namespace TransitionSystem

variable {σ α : Type*}

/-- The states reached by runs all of whose steps meet `ok`. -/
inductive ReachableVia (S : TransitionSystem σ α) (ok : σ → α → Prop) : σ → Prop
  | init {s : σ} (h : S.init s) : ReachableVia S ok s
  | step {s t : σ} {a : α} (hs : ReachableVia S ok s) (hok : ok s a) (h : S.step s a t) :
      ReachableVia S ok t

/-- The states reached by runs. -/
abbrev Reachable (S : TransitionSystem σ α) : σ → Prop :=
  S.ReachableVia fun _ _ => True

/-- Some run leads from the first state to the second one. -/
def Continues (S : TransitionSystem σ α) : σ → σ → Prop :=
  Relation.ReflTransGen fun s t => ∃ a, S.step s a t

/-- The same system, taking only the steps that meet the side condition. -/
def restrict (S : TransitionSystem σ α) (ok : σ → α → Prop) : TransitionSystem σ α where
  init := S.init
  step := fun s a t => ok s a ∧ S.step s a t

/-- The same system, remembering the labels of its run in their order. -/
def recorded (S : TransitionSystem σ α) : TransitionSystem (σ × List α) α where
  init := fun s => S.init s.1 ∧ s.2 = []
  step := fun s a t => S.step s.1 a t.1 ∧ t.2 = s.2 ++ [a]

/-- The deterministic system of a step function. -/
def ofFun (s₀ : σ) (f : σ → α → σ) : TransitionSystem σ α where
  init := fun s => s = s₀
  step := fun s a t => t = f s a

variable {S : TransitionSystem σ α} {ok : σ → α → Prop}

/-- The induction rule for invariants of runs with a side condition. -/
theorem ReachableVia.invariant {I : σ → Prop} (hinit : ∀ s, S.init s → I s)
    (hstep : ∀ s a t, I s → ok s a → S.step s a t → I t) {s : σ}
    (h : S.ReachableVia ok s) : I s := by
  induction h with
  | init h => exact hinit _ h
  | step _ hok h ih => exact hstep _ _ _ ih hok h

theorem ReachableVia.mono {ok' : σ → α → Prop} (hok : ∀ s a, ok s a → ok' s a) {s : σ}
    (h : S.ReachableVia ok s) : S.ReachableVia ok' s :=
  h.invariant (fun _ hs => .init hs) fun _ _ _ ih hs ht => .step ih (hok _ _ hs) ht

theorem ReachableVia.reachable {s : σ} (h : S.ReachableVia ok s) : S.Reachable s :=
  h.mono fun _ _ _ => trivial

lemma Continues.cons {s t u : σ} {a : α} (h : S.step s a t) (htu : S.Continues t u) :
    S.Continues s u :=
  .head ⟨a, h⟩ htu

theorem ReachableVia.continues {s t : σ} (h : S.ReachableVia ok s)
    (hst : (S.restrict ok).Continues s t) : S.ReachableVia ok t := by
  induction hst with
  | refl => exact h
  | tail _ hbc ih =>
    obtain ⟨a, hok, ha⟩ := hbc
    exact .step ih hok ha

/-- A property that every step keeps holds along every run from a state that has it. -/
theorem Continues.invariant {I : σ → Prop} (hstep : ∀ s a t, I s → S.step s a t → I t)
    {s t : σ} (h : S.Continues s t) (hs : I s) : I t := by
  induction h with
  | refl => exact hs
  | tail _ hbc ih =>
    obtain ⟨a, ha⟩ := hbc
    exact hstep _ _ _ ih ha

/-- Every step of running a list of labels through a step function meets `ok`. -/
def Along (f : σ → α → σ) (ok : σ → α → Prop) : σ → List α → Prop
  | _, [] => True
  | s, a :: as => ok s a ∧ Along f ok (f s a) as

instance Along.decidable (f : σ → α → σ) (ok : σ → α → Prop) [∀ s a, Decidable (ok s a)] :
    ∀ s as, Decidable (Along f ok s as)
  | _, [] => inferInstanceAs (Decidable True)
  | s, a :: as =>
    have := Along.decidable f ok (f s a) as
    inferInstanceAs (Decidable (ok s a ∧ Along f ok (f s a) as))

theorem ReachableVia.foldl {s₀ s : σ} {f : σ → α → σ} {as : List α}
    (h : (ofFun s₀ f).ReachableVia ok s) (has : Along f ok s as) :
    (ofFun s₀ f).ReachableVia ok (as.foldl f s) := by
  induction as generalizing s with
  | nil => exact h
  | cons a as ih => exact ih (.step h has.1 rfl) has.2

theorem reachable_foldl (s₀ : σ) (f : σ → α → σ) (as : List α) :
    (ofFun s₀ f).Reachable (as.foldl f s₀) := by
  refine ReachableVia.foldl (.init rfl) ?_
  generalize s₀ = s
  induction as generalizing s with
  | nil => trivial
  | cons a as ih => exact ⟨trivial, ih _⟩

/-- Where a step keeps `P` exactly when it meets `ok`, `P` holds all along a run exactly when
every step of it meets `ok`. -/
theorem forall_prefix_iff_along {f : σ → α → σ} {J P : σ → Prop}
    (hJ : ∀ s a, J s → J (f s a)) (hstep : ∀ s a, J s → P s → (P (f s a) ↔ ok s a)) {s : σ}
    (hs : J s) (hPs : P s) (as : List α) :
    (∀ as', as' <+: as → P (as'.foldl f s)) ↔ Along f ok s as := by
  induction as generalizing s with
  | nil =>
    refine ⟨fun _ => trivial, fun _ as' has => ?_⟩
    obtain rfl := List.prefix_nil.1 has
    exact hPs
  | cons a as ih =>
    constructor
    · intro h
      have hP : P (f s a) := h [a] (by simp)
      refine ⟨(hstep s a hs hPs).1 hP, (ih (hJ s a hs) hP).1 fun as' has => ?_⟩
      exact h (a :: as') (List.cons_prefix_cons.2 ⟨rfl, has⟩)
    · rintro ⟨hok, hrest⟩ as' has
      have hP := (hstep s a hs hPs).2 hok
      rcases List.prefix_cons_iff.1 has with rfl | ⟨as'', rfl, has'⟩
      · exact hPs
      · exact (ih (hJ s a hs) hP).2 hrest as'' has'

/-- Side conditions that are equivalent in the states of a run are met along the same runs. -/
theorem along_congr {f : σ → α → σ} {ok' : σ → α → Prop} {J : σ → Prop}
    (hJ : ∀ s a, J s → J (f s a)) (h : ∀ s a, J s → (ok s a ↔ ok' s a)) {s : σ} (hs : J s)
    (as : List α) : Along f ok s as ↔ Along f ok' s as := by
  induction as generalizing s with
  | nil => exact Iff.rfl
  | cons a as ih => exact and_congr (h s a hs) (ih (hJ s a hs))

end TransitionSystem
