import ArwaAgent.Lib.Transition
import Mathlib.Data.List.Infix

/-!
# A value kept in a file

A process holds a value in memory, and on every update it replaces a file by the text of the new
value: the text is written beside the file, and renamed to it.  A save may fail or be cut off
anywhere, and the process survives this or does not.

The `Journal` of a run says what has been made of its updates, without any text or value: those
which the memory has seen, and those among them which are kept.  A renamed text keeps all that has
been made, a process that loads the file goes on from what is kept, and nothing else changes.  The
file follows its journal (`Store.agrees`), and what is kept stays so (`kept_mono`).
-/

namespace Replacement

variable {β σ ι : Type}

/-- A file, and what has been written beside it. -/
structure Disk (β : Type) where
  file : Option (List β)
  beside : Option (List β)

/-- How far a save comes. -/
inductive Stage
  | unopened
  | written (n : ℕ)
  | renamed
  deriving DecidableEq

/-- The disk after a save of a text, as far as it comes. -/
def Disk.save (d : Disk β) (text : List β) : Stage → Disk β
  | .unopened => d
  | .written n => { d with beside := some (text.take n) }
  | .renamed => ⟨some text, none⟩

/-- A kind of value that can be kept in a file: the text of a good value loads as this value only,
and a missing file as the initial ones. -/
structure Store (β σ ι : Type) where
  init : σ → Prop
  /-- an update may throw, and leave the value as it is -/
  update : σ → ι → Option σ
  text : σ → List β
  load : Option (List β) → σ → Prop
  Good : σ → Prop
  load_none : ∀ s, load none s ↔ init s
  load_text : ∀ s s', Good s → (load (some (text s)) s' ↔ s' = s)

/-- A disk, and the value that a process holds, if one is running. -/
structure World (β σ : Type) where
  disk : Disk β
  memory : Option σ

/-- What may happen: `kill` is for a process that is not saving anything. -/
inductive Action (ι : Type)
  | start
  | reload
  | update (i : ι) (stage : Stage) (survives : Bool)
  | refuse (i : ι)
  | kill

/-- The updates that the memory has seen, and those that are kept. -/
structure Journal (ι : Type) where
  made : List ι
  kept : List ι

namespace Journal

/-- The journal after one more action. -/
def next (j : Journal ι) : Action ι → Journal ι
  | .start | .reload => ⟨j.kept, j.kept⟩
  | .update i stage _ =>
    ⟨j.made ++ [i], if stage = .renamed then j.made ++ [i] else j.kept⟩
  | .refuse _ | .kill => j

/-- The journal of a run. -/
def of (as : List (Action ι)) : Journal ι :=
  as.foldl next ⟨[], []⟩

end Journal

/-! ### Journals -/

section

variable {j : Journal ι} {as bs : List (Action ι)} {a : Action ι}

lemma journal_snoc : Journal.of (as ++ [a]) = (Journal.of as).next a := by
  rw [Journal.of, Journal.of, List.foldl_append]
  rfl

/-- Only what has been made is kept. -/
lemma kept_prefix_made_next (h : j.kept <+: j.made) (a : Action ι) :
    (j.next a).kept <+: (j.next a).made := by
  cases a with
  | start => exact List.prefix_rfl
  | reload => exact List.prefix_rfl
  | refuse i => exact h
  | kill => exact h
  | update i stage survives =>
    rw [Journal.next]
    split
    · exact List.prefix_rfl
    · exact h.trans (List.prefix_append _ _)

lemma kept_prefix_made (as : List (Action ι)) : (Journal.of as).kept <+: (Journal.of as).made := by
  induction as using List.reverseRecOn with
  | nil => exact List.prefix_rfl
  | append_singleton as a ih =>
    rw [journal_snoc]
    exact kept_prefix_made_next ih a

/-- What is kept stays so, whatever happens. -/
lemma kept_prefix_next (h : j.kept <+: j.made) (a : Action ι) : j.kept <+: (j.next a).kept := by
  cases a with
  | start => exact List.prefix_rfl
  | reload => exact List.prefix_rfl
  | refuse i => exact List.prefix_rfl
  | kill => exact List.prefix_rfl
  | update i stage survives =>
    rw [Journal.next]
    split
    · exact h.trans (List.prefix_append _ _)
    · exact List.prefix_rfl

theorem kept_mono (h : as <+: bs) : (Journal.of as).kept <+: (Journal.of bs).kept := by
  obtain ⟨cs, rfl⟩ := h
  induction cs using List.reverseRecOn with
  | nil => rw [List.append_nil]
  | append_singleton cs c ih =>
    rw [← List.append_assoc, journal_snoc]
    exact ih.trans (kept_prefix_next (kept_prefix_made _) c)

lemma length_made_le (as : List (Action ι)) : (Journal.of as).made.length ≤ as.length := by
  induction as using List.reverseRecOn with
  | nil => exact Nat.le_refl 0
  | append_singleton as a ih =>
    have hkept := (kept_prefix_made as).length_le
    rw [journal_snoc, List.length_append, List.length_singleton]
    cases a with
    | start => exact hkept.trans (Nat.le_succ_of_le ih)
    | reload => exact hkept.trans (Nat.le_succ_of_le ih)
    | refuse i => exact Nat.le_succ_of_le ih
    | kill => exact Nat.le_succ_of_le ih
    | update i stage survives =>
      rw [Journal.next, List.length_append, List.length_singleton]
      exact Nat.succ_le_succ ih

end

/-! ### Files -/

namespace Store

variable (S : Store β σ ι)

/-- One action. -/
inductive Step : World β σ → Action ι → World β σ → Prop
  | start {d : Disk β} {s : σ} (h : S.load d.file s) : Step ⟨d, none⟩ .start ⟨d, some s⟩
  | reload {d : Disk β} {s s' : σ} (h : S.load d.file s') :
      Step ⟨d, some s⟩ .reload ⟨d, some s'⟩
  | update {d : Disk β} {s s' : σ} {i : ι} (stage : Stage) (survives : Bool)
      (h : S.update s i = some s') :
      Step ⟨d, some s⟩ (.update i stage survives)
        ⟨d.save (S.text s') stage, if survives then some s' else none⟩
  | refuse {d : Disk β} {s : σ} {i : ι} (h : S.update s i = none) :
      Step ⟨d, some s⟩ (.refuse i) ⟨d, some s⟩
  | kill {d : Disk β} {s : σ} : Step ⟨d, some s⟩ .kill ⟨d, none⟩

/-- The runs that begin without a file. -/
def system : TransitionSystem (World β σ) (Action ι) where
  init := fun w => w.disk.file = none ∧ w.memory = none
  step := S.Step

/-- The value after some updates of an initial one. -/
def Holds (l : List ι) (s : σ) : Prop :=
  ∃ s₀, S.init s₀ ∧ l.foldlM S.update s₀ = some s

/-- The file has the text of a good value after some updates, or it is missing and there have been
none. -/
def FileHolds (l : List ι) : Option (List β) → Prop
  | none => l = []
  | some text => ∃ s, text = S.text s ∧ S.Good s ∧ S.Holds l s

/-- The memory has the value after the updates that have been made, the file that after those that
are kept. -/
structure Agrees (w : World β σ) (j : Journal ι) : Prop where
  memory : ∀ s, w.memory = some s → S.Holds j.made s
  file : S.FileHolds j.kept w.disk.file

variable {S} {w w' : World β σ} {j : Journal ι} {a : Action ι} {l : List ι} {s s' : σ} {i : ι}
  {file : Option (List β)}

lemma Holds.update (h : S.Holds l s) (hi : S.update s i = some s') : S.Holds (l ++ [i]) s' := by
  obtain ⟨s₀, hinit, hl⟩ := h
  refine ⟨s₀, hinit, ?_⟩
  rw [List.foldlM_append, hl]
  simp [hi]

/-- The induction rule for values after updates. -/
theorem Holds.invariant {P : List ι → σ → Prop} (hinit : ∀ s, S.init s → P [] s)
    (hstep : ∀ l s i s', P l s → S.update s i = some s' → P (l ++ [i]) s') (h : S.Holds l s) :
    P l s := by
  obtain ⟨s₀, hs₀, hl⟩ := h
  induction l using List.reverseRecOn generalizing s with
  | nil =>
    cases hl
    exact hinit _ hs₀
  | append_singleton l i ih =>
    rw [List.foldlM_append] at hl
    obtain ⟨t, ht, hi⟩ := Option.bind_eq_some_iff.1 hl
    exact hstep l t i s (ih ht) (by simpa using hi)

lemma FileHolds.load (h : S.FileHolds l file) (hload : S.load file s) : S.Holds l s := by
  cases file with
  | none => exact ⟨s, (S.load_none s).1 hload, by rw [show l = [] from h]; rfl⟩
  | some text =>
    obtain ⟨t, rfl, hgood, ht⟩ := h
    rwa [(S.load_text t s hgood).1 hload]

/-- A save leaves the old file or the new one. -/
lemma FileHolds.save {d : Disk β} {l' : List ι} (h : S.FileHolds l d.file) (hgood : S.Good s)
    (hs : S.Holds l' s) (stage : Stage) :
    S.FileHolds (if stage = .renamed then l' else l) (d.save (S.text s) stage).file := by
  cases stage with
  | unopened => exact h
  | written n => exact h
  | renamed => exact ⟨s, rfl, hgood, hs⟩

/-- Every action is followed by the journal. -/
lemma Agrees.step (h : S.Agrees w j) (hstep : S.Step w a w')
    (hgood : ∀ i stage survives s s', a = .update i stage survives → S.Holds j.made s →
      S.update s i = some s' → S.Good s') : S.Agrees w' (j.next a) := by
  cases hstep with
  | start hload =>
    refine ⟨?_, h.file⟩
    rintro _ ⟨⟩
    exact h.file.load hload
  | reload hload =>
    refine ⟨?_, h.file⟩
    rintro _ ⟨⟩
    exact h.file.load hload
  | refuse _ => exact h
  | kill => exact ⟨nofun, h.file⟩
  | @update d s s' i stage survives hi =>
    have hmade := h.memory s rfl
    have hnew := hmade.update hi
    refine ⟨?_, h.file.save (hgood i stage survives s s' rfl hmade hi) hnew stage⟩
    intro t ht
    cases survives with
    | true =>
      cases ht
      exact hnew
    | false => cases ht

/-- In every run the file follows its journal, as long as only good values are written. -/
theorem agrees {ok : World β σ × List (Action ι) → Action ι → Prop}
    (hok : ∀ w as i stage survives s s', ok (w, as) (.update i stage survives) →
      S.Holds (Journal.of as).made s → S.update s i = some s' → S.Good s')
    {as : List (Action ι)} (h : S.system.recorded.ReachableVia ok (w, as)) :
    S.Agrees w (Journal.of as) := by
  refine h.invariant (I := fun p => S.Agrees p.1 (Journal.of p.2)) ?_ ?_
  · rintro ⟨w, as⟩ ⟨⟨hfile, hmemory⟩, rfl⟩
    refine ⟨fun s hs => ?_, ?_⟩
    · rw [hmemory] at hs
      cases hs
    · rw [hfile]
      rfl
  · rintro ⟨w, as⟩ a ⟨w', as'⟩ hI ha ⟨hstep, rfl⟩
    rw [journal_snoc]
    refine hI.step hstep fun i stage survives s s' hupdate hs hi => ?_
    subst hupdate
    exact hok w as i stage survives s s' ha hs hi

end Store

end Replacement
