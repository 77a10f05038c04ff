import Mathlib.Algebra.BigOperators.Group.List.Basic
import Mathlib.Algebra.Order.Ring.Nat
import Mathlib.Data.List.Basic

/-!
# Histories

A history is a list that grows at its end.  The lemmas say where an entry of a longer
history is, what reading one more entry adds, and what editing one entry does to a sum
over all of them.
-/

/-- Where an entry of a history with a new last entry is: it is the new one, or it was there
before. -/
lemma snoc_eq_append_cons_iff {ε : Type*} {h before after : List ε} {x e : ε} :
    h ++ [x] = before ++ e :: after ↔
      (before = h ∧ e = x ∧ after = []) ∨ ∃ rest, after = rest ++ [x] ∧ h = before ++ e :: rest := by
  rcases List.eq_nil_or_concat after with rfl | ⟨rest, x', rfl⟩
  · constructor
    · intro hsplit
      obtain ⟨rfl, he⟩ := List.append_inj' hsplit rfl
      cases he
      exact Or.inl ⟨rfl, rfl, rfl⟩
    · rintro (⟨rfl, rfl, -⟩ | ⟨rest, hrest, -⟩)
      · rfl
      · simp at hrest
  · rw [List.concat_eq_append, ← List.cons_append, ← List.append_assoc]
    constructor
    · intro hsplit
      obtain ⟨rfl, hx⟩ := List.append_inj' hsplit rfl
      cases hx
      exact Or.inr ⟨rest, rfl, rfl⟩
    · rintro (⟨-, -, hrest⟩ | ⟨rest', hrest, rfl⟩)
      · simp at hrest
      · obtain ⟨rfl, hx⟩ := List.append_inj' hrest rfl
        cases hx
        rfl

/-- The entries of a history with a new last entry, by position. -/
lemma getElem?_snoc_eq_some_iff {ε : Type*} {h : List ε} {x e : ε} {j : ℕ} :
    (h ++ [x])[j]? = some e ↔ h[j]? = some e ∨ (j = h.length ∧ e = x) := by
  rcases Nat.lt_or_ge j h.length with hlt | hge
  · rw [List.getElem?_append_left hlt]
    exact ⟨Or.inl, fun hj => hj.resolve_right fun hlast => by omega⟩
  · rw [List.getElem?_append_right hge, List.getElem?_eq_none hge, List.getElem?_singleton]
    constructor
    · intro hj
      split at hj
      · cases hj
        exact Or.inr ⟨by omega, rfl⟩
      · cases hj
    · rintro (hj | ⟨rfl, rfl⟩)
      · cases hj
      · rw [if_pos (Nat.sub_self _)]

/-- Where every new entry comes first and `n` entries are kept, the last ones are. -/
lemma foldl_cons_take {ε : Type*} {n : ℕ} (h kept : List ε) (hkept : kept.length ≤ n) :
    h.foldl (fun kept x => (x :: kept).take n) kept = (h.reverse ++ kept).take n := by
  induction h generalizing kept with
  | nil => exact (List.take_of_length_le hkept).symm
  | cons x h ih =>
    rw [List.foldl_cons, ih _ (List.length_take_le _ _), List.reverse_cons, List.append_assoc,
      List.singleton_append, List.take_append, List.take_append, List.take_take,
      Nat.min_eq_left (Nat.sub_le _ _)]

lemma modify_snoc {ε : Type*} (h : List ε) (x : ε) (f : ε → ε) :
    (h ++ [x]).modify h.length f = h ++ [f x] := by
  induction h with
  | nil => rfl
  | cons e h ih => exact congrArg (e :: ·) ih

lemma set_snoc {ε : Type*} (h : List ε) (x y : ε) : (h ++ [x]).set h.length y = h ++ [y] := by
  rw [List.set_append_right _ _ le_rfl, Nat.sub_self]
  rfl

lemma filterMap_snoc {ε β : Type*} (f : ε → Option β) (h : List ε) (x : ε) :
    (h ++ [x]).filterMap f = h.filterMap f ++ (f x).toList := by
  rw [List.filterMap_append, List.filterMap_cons, List.filterMap_nil]
  cases f x <;> rfl

lemma sum_filterMap_snoc {ε β : Type*} (f : ε → Option β) (g : β → ℕ) (h : List ε) (x : ε) :
    (((h ++ [x]).filterMap f).map g).sum = ((h.filterMap f).map g).sum + (f x).elim 0 g := by
  rw [filterMap_snoc, List.map_append, List.sum_append]
  cases f x <;> simp

lemma eq_append_cons_append_cons {ε : Type*} (h : List ε) {i j : ℕ} (hij : i < j)
    (hj : j < h.length) :
    h = h.take i ++ h.get ⟨i, Nat.lt_trans hij hj⟩ ::
      ((h.take j).drop (i + 1) ++ h.get ⟨j, hj⟩ :: h.drop (j + 1)) := by
  have hi : i < (h.take j).length := by rw [List.length_take]; omega
  have htake : h.take j = h.take i ++ h.get ⟨i, Nat.lt_trans hij hj⟩ :: (h.take j).drop (i + 1) := by
    have hsplit := List.take_append_drop i (h.take j)
    rw [List.take_take, Nat.min_eq_left (Nat.le_of_lt hij), List.drop_eq_getElem_cons hi,
      List.getElem_take] at hsplit
    exact hsplit.symm
  calc h = h.take j ++ h.get ⟨j, hj⟩ :: h.drop (j + 1) := by
        rw [List.get_eq_getElem, ← List.drop_eq_getElem_cons hj, List.take_append_drop]
    _ = _ := by
        nth_rewrite 1 [htake]
        rw [List.append_assoc, List.cons_append]

/-- Editing one entry moves a sum by what the entry counted before and counts now. -/
lemma sum_map_set {ε : Type*} (f : ε → ℕ) {h : List ε} {j : ℕ} {d : ε} (hj : h[j]? = some d)
    (e : ε) : ((h.set j e).map f).sum + f d = (h.map f).sum + f e := by
  induction h generalizing j with
  | nil => simp at hj
  | cons x h ih =>
    cases j with
    | zero =>
      cases hj
      simp only [List.set_cons_zero, List.map_cons, List.sum_cons]
      omega
    | succ j =>
      have hrest := ih hj
      simp only [List.set_cons_succ, List.map_cons, List.sum_cons]
      omega

/-! ### Since an entry

What has been going on since the last entry that ends it: the entries of the longest end of a
history without such an entry (`List.rtakeWhile`), and the latest marked entry in it.
-/

/-- `e` is the latest entry that its past has marked, and no later entry clears the mark. -/
def LatestMark {ε : Type*} (marked : List ε → ε → Prop) (clears : ε → Prop) (h : List ε) (e : ε) :
    Prop :=
  ∃ before after, h = before ++ e :: after ∧ marked before e ∧
    ∀ mid e' rest, after = mid ++ e' :: rest → ¬ clears e' ∧ ¬ marked (before ++ e :: mid) e'

section

variable {ε : Type*} {marked : List ε → ε → Prop} {clears : ε → Prop} {h : List ε} {x e : ε}

lemma not_latestMark_nil : ¬ LatestMark marked clears [] e := by
  rintro ⟨before, after, hsplit, -⟩
  simp at hsplit

lemma latestMark_snoc : LatestMark marked clears (h ++ [x]) e ↔
    (marked h x ∧ e = x) ∨ (¬ clears x ∧ ¬ marked h x ∧ LatestMark marked clears h e) := by
  constructor
  · rintro ⟨before, after, hsplit, hmarked, hlatest⟩
    rcases snoc_eq_append_cons_iff.1 hsplit with ⟨rfl, rfl, -⟩ | ⟨rest, rfl, rfl⟩
    · exact Or.inl ⟨hmarked, rfl⟩
    · obtain ⟨hclears, hx⟩ := hlatest rest x [] rfl
      refine Or.inr ⟨hclears, hx, before, rest, rfl, hmarked, fun mid e' rest' hrest => ?_⟩
      exact hlatest mid e' (rest' ++ [x]) (by rw [hrest, List.append_assoc, List.cons_append])
  · rintro (⟨hmarked, rfl⟩ | ⟨hclears, hx, before, after, rfl, hmarked, hlatest⟩)
    · exact ⟨h, [], rfl, hmarked, fun mid e' rest hrest => by simp at hrest⟩
    · refine ⟨before, after ++ [x], by rw [List.append_assoc, List.cons_append], hmarked, ?_⟩
      intro mid e' rest hrest
      rcases snoc_eq_append_cons_iff.1 hrest with ⟨rfl, rfl, -⟩ | ⟨rest', -, hafter⟩
      · exact ⟨hclears, hx⟩
      · exact hlatest mid e' rest' hafter

end
