import Mathlib.Data.List.Sort

/-!
# Taking the best of a list

A stable sort by descending rank puts the first of the highest elements in front
(`firstMax_of_sorted`).  Where the elements are filtered before, and not by what makes an
element good, `takesBest_iff` says when the one in front is the right one all the same: every
element that is kept and not good comes behind a good one, and every good one that is not kept
is matched by one that is.
-/

namespace Ranking

variable {α κ : Type*} [LinearOrder κ] {rank : α → κ} {kept good : α → Prop}
  {atLeast : α → α → Prop} {l before after : List α} {a b : α} {best : Option α}

/-- Of the elements that are kept, the first one of the highest rank. -/
def FirstMax (rank : α → κ) (kept : α → Prop) (l : List α) (a : α) : Prop :=
  ∃ before after, l = before ++ a :: after ∧ kept a ∧
    (∀ b ∈ before, kept b → rank b < rank a) ∧ ∀ b ∈ after, kept b → rank b ≤ rank a

namespace FirstMax

lemma mem (h : FirstMax rank kept l a) : a ∈ l := by
  obtain ⟨before, after, rfl, -⟩ := h
  exact List.mem_append_right _ List.mem_cons_self

lemma is_kept (h : FirstMax rank kept l a) : kept a := by
  obtain ⟨-, -, -, ha, -⟩ := h
  exact ha

lemma rank_le (h : FirstMax rank kept l a) (hb : b ∈ l) (hkept : kept b) : rank b ≤ rank a := by
  obtain ⟨before, after, rfl, -, hbefore, hafter⟩ := h
  rcases List.mem_append.1 hb with hb | hb
  · exact (hbefore b hb hkept).le
  · rcases List.mem_cons.1 hb with rfl | hb
    · exact le_rfl
    · exact hafter b hb hkept

lemma head (hrank : ∀ b ∈ l, kept b → rank b ≤ rank a) (ha : kept a) :
    FirstMax rank kept (a :: l) a :=
  ⟨[], l, rfl, ha, fun _ hb => absurd hb List.not_mem_nil, hrank⟩

lemma cons (h : FirstMax rank kept l a) (hlt : kept b → rank b < rank a) :
    FirstMax rank kept (b :: l) a := by
  obtain ⟨before, after, rfl, ha, hbefore, hafter⟩ := h
  refine ⟨b :: before, after, rfl, ha, fun c hc hkept => ?_, hafter⟩
  rcases List.mem_cons.1 hc with rfl | hc
  · exact hlt hkept
  · exact hbefore c hc hkept

lemma lt_or_mem (h : FirstMax rank kept (before ++ a :: after) b) (ha : kept a) (hne : a ≠ b) :
    rank a < rank b ∨ b ∈ before ∧ rank a ≤ rank b := by
  have hle := h.rank_le (List.mem_append_right _ List.mem_cons_self) ha
  obtain ⟨before', after', hsplit, -, hbefore, -⟩ := h
  rcases List.append_eq_append_iff.1 hsplit with ⟨m, rfl, hm⟩ | ⟨m, rfl, hm⟩
  · rcases m with _ | ⟨c, m⟩
    · exact absurd (List.cons.inj hm).1 hne
    · obtain ⟨rfl, -⟩ := List.cons.inj hm
      exact Or.inl (hbefore _ (List.mem_append_right _ List.mem_cons_self) ha)
  · rcases m with _ | ⟨c, m⟩
    · exact absurd (List.cons.inj hm).1.symm hne
    · obtain ⟨rfl, -⟩ := List.cons.inj hm
      exact Or.inr ⟨List.mem_append_right _ List.mem_cons_self, hle⟩

/-- A filter that is applied before decides what is kept. -/
lemma of_filter {p : α → Bool} (h : FirstMax rank (fun _ => True) (l.filter p) a) :
    FirstMax rank (p · = true) l a := by
  obtain ⟨before, after, hsplit, -, hbefore, hafter⟩ := h
  obtain ⟨m₁, m₂, rfl, rfl, hm₂⟩ := List.filter_eq_append_iff.1 hsplit
  obtain ⟨m, m₃, rfl, hm, ha, rfl⟩ := List.filter_eq_cons_iff.1 hm₂
  refine ⟨m₁ ++ m, m₃, (List.append_assoc ..).symm, ha, fun b hb hkept => ?_, fun b hb hkept => ?_⟩
  · rcases List.mem_append.1 hb with hb | hb
    · exact hbefore b (List.mem_filter.2 ⟨hb, hkept⟩) trivial
    · exact absurd hkept (hm b hb)
  · exact hafter b (List.mem_filter.2 ⟨hb, hkept⟩) trivial

/-- The first maximum of what is read off the elements is read off their first maximum. -/
lemma of_filterMap {β : Type*} {g : α → Option β} {rank' : β → κ} {kept' : β → Prop} {c : β}
    (hg : ∀ a ∈ l, ∃ b, g a = some b ∧ (kept' b ↔ kept a) ∧ rank' b = rank a)
    (h : FirstMax rank' kept' (l.filterMap g) c) : ∃ a, g a = some c ∧ FirstMax rank kept l a := by
  obtain ⟨before, after, hsplit, hc, hbefore, hafter⟩ := h
  obtain ⟨m₁, m₂, rfl, rfl, hm₂⟩ := List.filterMap_eq_append_iff.1 hsplit
  obtain ⟨m, a, m₃, rfl, hm, ha, rfl⟩ := List.filterMap_eq_cons_iff.1 hm₂
  have hread : ∀ b ∈ m₁ ++ (m ++ a :: m₃), ∃ b', g b = some b' ∧ (kept' b' ↔ kept b) ∧
      rank' b' = rank b := hg
  obtain ⟨c', hc', hkept, hrank⟩ := hread a (by simp)
  obtain rfl := Option.some.inj (ha.symm.trans hc')
  refine ⟨a, ha, m₁ ++ m, m₃, (List.append_assoc ..).symm, hkept.1 hc, fun b hb hbkept => ?_,
    fun b hb hbkept => ?_⟩
  · rcases List.mem_append.1 hb with hb | hb
    · obtain ⟨b', hb', hbk, hbr⟩ := hread b (List.mem_append_left _ hb)
      rw [← hbr, ← hrank]
      exact hbefore b' (List.mem_filterMap.2 ⟨b, hb, hb'⟩) (hbk.2 hbkept)
    · -- nothing is read off the elements between the two
      obtain ⟨b', hb', -⟩ := hread b (by simp [hb])
      rw [hm b hb] at hb'
      cases hb'
  · obtain ⟨b', hb', hbk, hbr⟩ := hread b (by simp [hb])
    rw [← hbr, ← hrank]
    exact hafter b' (List.mem_filterMap.2 ⟨b, hb, hb'⟩) (hbk.2 hbkept)

end FirstMax

/-! ### Sorting -/

section

variable {r : α → α → Prop} [DecidableRel r]

lemma head?_insertionSort_cons (l : List α) (a : α) :
    ((a :: l).insertionSort r).head? = match (l.insertionSort r).head? with
      | none => some a
      | some b => some (if r a b then a else b) := by
  rw [List.insertionSort_cons]
  cases l.insertionSort r with
  | nil => rfl
  | cons b m =>
    by_cases hab : r a b <;> simp [hab]

/-- Sorted by descending rank, the list starts with the first of its highest elements. -/
theorem firstMax_of_sorted (hr : ∀ a ∈ l, ∀ b ∈ l, r a b ↔ rank b ≤ rank a)
    (h : (l.insertionSort r).head? = some a) : FirstMax rank (fun _ => True) l a := by
  induction l generalizing a with
  | nil => cases h
  | cons c l ih =>
    rw [head?_insertionSort_cons] at h
    cases hhead : (l.insertionSort r).head? with
    | none =>
      rw [hhead] at h
      cases h
      have hnil : l = [] := by
        rw [List.head?_eq_none_iff] at hhead
        exact List.eq_nil_of_length_eq_zero (by rw [← List.length_insertionSort r, hhead]; rfl)
      subst hnil
      exact .head (fun b hb => absurd hb List.not_mem_nil) trivial
    | some b =>
      have hb := ih (fun a ha b hb => hr a (.tail _ ha) b (.tail _ hb)) hhead
      have hcb := hr c List.mem_cons_self b (.tail _ hb.mem)
      rw [hhead] at h
      cases h
      split_ifs with hle
      · exact .head (fun d hd _ => (hb.rank_le hd trivial).trans (hcb.1 hle)) trivial
      · exact hb.cons fun _ => not_le.1 fun hrank => hle (hcb.2 hrank)

end

/-! ### Filters that are not quite right -/

/-- Nothing is taken when nothing is good; else something good is, which is at least as much as
everything good. -/
structure TakesBest (good : α → Prop) (atLeast : α → α → Prop) (l : List α) (best : Option α) :
    Prop where
  none_iff : best = none ↔ ∀ a ∈ l, ¬ good a
  best : ∀ a, best = some a → a ∈ l ∧ good a ∧ ∀ b ∈ l, good b → atLeast a b

/-- The filter does not matter: what it keeps wrongly comes behind, and what it drops wrongly
is matched. -/
structure Harmless (rank : α → κ) (kept good : α → Prop) (atLeast : α → α → Prop) (l : List α) :
    Prop where
  behind : ∀ before a after, l = before ++ a :: after → kept a → ¬ good a →
    ∃ b, kept b ∧ good b ∧ (b ∈ l ∧ rank a < rank b ∨ b ∈ before ∧ rank a ≤ rank b)
  matched : ∀ a ∈ l, good a → ¬ kept a → ∃ b ∈ l, kept b ∧ good b ∧ atLeast b a

lemma TakesBest.harmless (h : TakesBest good atLeast l best)
    (hnone : best = none ↔ ∀ a ∈ l, ¬ kept a) (hsome : ∀ a, best = some a → FirstMax rank kept l a) :
    Harmless rank kept good atLeast l := by
  refine ⟨fun before a after hl ha hbad => ?_, fun a ha hgood _ => ?_⟩
  · subst hl
    have hmem : a ∈ before ++ a :: after := List.mem_append_right _ List.mem_cons_self
    obtain ⟨b, hb⟩ := Option.ne_none_iff_exists'.1 fun hnil => hnone.1 hnil a hmem ha
    have hgood := (h.best b hb).2.1
    refine ⟨b, (hsome b hb).is_kept, hgood, ?_⟩
    refine ((hsome b hb).lt_or_mem ha ?_).imp_left fun hlt => ⟨(hsome b hb).mem, hlt⟩
    rintro rfl
    exact hbad hgood
  · obtain ⟨b, hb⟩ := Option.ne_none_iff_exists'.1 fun hnil => h.none_iff.1 hnil a ha hgood
    obtain ⟨hmem, hb', hall⟩ := h.best b hb
    exact ⟨b, hmem, (hsome b hb).is_kept, hb', hall a ha hgood⟩

namespace Harmless

lemma exists_good (h : Harmless rank kept good atLeast l) (ha : a ∈ l) (hkept : kept a) :
    ∃ b ∈ l, good b := by
  by_cases hgood : good a
  · exact ⟨a, ha, hgood⟩
  · obtain ⟨before, after, hl⟩ := List.append_of_mem ha
    obtain ⟨b, -, hb, ⟨hmem, -⟩ | ⟨hmem, -⟩⟩ := h.behind before a after hl hkept hgood
    · exact ⟨b, hmem, hb⟩
    · exact ⟨b, hl ▸ List.mem_append_left _ hmem, hb⟩

/-- No element that is kept and not good comes first. -/
lemma good_of_firstMax (h : Harmless rank kept good atLeast l) (hmax : FirstMax rank kept l a) :
    good a := by
  by_contra hbad
  obtain ⟨before, after, hl, hkept, hbefore, -⟩ := id hmax
  obtain ⟨b, hb, -, ⟨hmem, hlt⟩ | ⟨hmem, hle⟩⟩ := h.behind before a after hl hkept hbad
  · exact hlt.not_ge (hmax.rank_le hmem hb)
  · exact hle.not_gt (hbefore b hmem hb)

end Harmless

/-- The first of the highest that are kept is the best of the good ones exactly if the filter
does not matter. -/
theorem takesBest_iff (hrank : ∀ a ∈ l, ∀ b ∈ l, rank b ≤ rank a → atLeast a b)
    (htrans : ∀ a ∈ l, ∀ b ∈ l, ∀ c ∈ l, rank b ≤ rank a → atLeast b c → atLeast a c)
    (hnone : best = none ↔ ∀ a ∈ l, ¬ kept a) (hsome : ∀ a, best = some a → FirstMax rank kept l a) :
    TakesBest good atLeast l best ↔ Harmless rank kept good atLeast l := by
  refine ⟨fun h => h.harmless hnone hsome, fun h => ⟨⟨?_, ?_⟩, fun a ha => ?_⟩⟩
  · intro hnil a ha hgood
    obtain ⟨b, hb, hkept, -⟩ := h.matched a ha hgood (hnone.1 hnil a ha)
    exact hnone.1 hnil b hb hkept
  · intro hbad
    refine hnone.2 fun a ha hkept => ?_
    obtain ⟨b, hb, hgood⟩ := h.exists_good ha hkept
    exact hbad b hb hgood
  · have hmax := hsome a ha
    refine ⟨hmax.mem, h.good_of_firstMax hmax, fun b hb hgood => ?_⟩
    by_cases hkept : kept b
    · exact hrank a hmax.mem b hb (hmax.rank_le hb hkept)
    · obtain ⟨c, hc, hckept, -, hcb⟩ := h.matched b hb hgood hkept
      exact htrans a hmax.mem c hc b hb (hmax.rank_le hc hckept) hcb

end Ranking
