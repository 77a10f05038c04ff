import Mathlib.Data.List.Basic
import Mathlib.Data.List.Chain
import Mathlib.Data.List.Nodup
import Mathlib.Logic.Relation

/-!
# Consumers that keep a high-water mark

A consumer polls a counter that only grows, and remembers one number: the highest count it
has taken note of, zero at first.  A count above the mark is delivered, if the mark is not
zero, and becomes the mark unless the delivery is refused.  Nothing but the count itself is
ever delivered.

`deliveredOnce_iff` says which sequences of counts such a consumer serves well: every number
after the first count and up to the last one is delivered exactly once, in order, exactly
when the counter has not left zero and has never grown by more than one between two polls,
and no count whose delivery was refused has been seen again.
-/

namespace HighWater

/-- What a consumer has done: the counts it has seen, those it has delivered, those of them
that were refused, and its mark. -/
structure Progress where
  seen : List ℕ
  delivered : List ℕ
  refused : List ℕ
  mark : ℕ

namespace Progress

/-- Nothing has been seen. -/
def start : Progress := ⟨[], [], [], 0⟩

/-- One poll. -/
inductive Step : Progress → Progress → Prop
  | missed (s : Progress) : Step s s
  | stale (s : Progress) {c : ℕ} (h : c ≤ s.mark) : Step s { s with seen := s.seen ++ [c] }
  | noted (s : Progress) {c : ℕ} (hmark : s.mark = 0) (h : 0 < c) :
      Step s { s with seen := s.seen ++ [c], mark := c }
  | accepted (s : Progress) {c : ℕ} (hmark : 0 < s.mark) (h : s.mark < c) :
      Step s { s with seen := s.seen ++ [c], delivered := s.delivered ++ [c], mark := c }
  | refused (s : Progress) {c : ℕ} (hmark : 0 < s.mark) (h : s.mark < c) :
      Step s
        { s with
          seen := s.seen ++ [c]
          delivered := s.delivered ++ [c]
          refused := s.refused ++ [c] }

end Progress

/-- Every number after `first` and up to `last` is in the list exactly once, and the list is in
increasing order. -/
def DeliveredOnce (first last : ℕ) (ids : List ℕ) : Prop :=
  (∀ id, first < id → id ≤ last → ids.count id = 1) ∧ ids.Pairwise (· ≤ ·)

/-- The counts of a counter that has not left zero, grows by at most one between two polls, and
stays at no count that is among the refused ones. -/
def Steady (seen refused : List ℕ) : Prop :=
  (seen.headD 0 = 0 → seen.getLastD 0 = 0) ∧
    seen.IsChain fun a b => b = a + 1 ∨ (b = a ∧ a ∉ refused)

/-! ### Lists of counts -/

section Lists

variable {seen refused : List ℕ} {c : ℕ}

lemma headD_append (h : seen ≠ []) : (seen ++ [c]).headD 0 = seen.headD 0 := by
  cases seen with
  | nil => exact absurd rfl h
  | cons a seen => rfl

lemma getLastD_append : (seen ++ [c]).getLastD 0 = c := by
  rw [List.getLastD_eq_getLast?, List.getLast?_concat, Option.getD_some]

lemma isChain_append_singleton {R : ℕ → ℕ → Prop} (h : seen ≠ []) :
    (seen ++ [c]).IsChain R ↔ seen.IsChain R ∧ R (seen.getLastD 0) c := by
  have hlast : seen.getLast? = some (seen.getLastD 0) := by
    rw [List.getLastD_eq_getLast?, List.getLast?_eq_some_getLast h, Option.getD_some]
  rw [List.isChain_append, hlast, List.head?_singleton]
  simp

lemma pairwise_append_singleton {R : ℕ → ℕ → Prop} {ids : List ℕ} :
    (ids ++ [c]).Pairwise R ↔ ids.Pairwise R ∧ ∀ a ∈ ids, R a c := by
  simp [List.pairwise_append]

lemma Steady.of_append {more : List ℕ} (hseen : seen ≠ []) (hle : seen.getLastD 0 ≤ c)
    (h : Steady (seen ++ [c]) (refused ++ more)) : Steady seen refused := by
  obtain ⟨hzero, hchain⟩ := h
  rw [headD_append hseen, getLastD_append] at hzero
  refine ⟨fun hhead => by have := hzero hhead; omega, ?_⟩
  refine ((isChain_append_singleton hseen).1 hchain).1.imp fun a b hab => ?_
  exact hab.imp_right fun hb => ⟨hb.1, fun ha => hb.2 (List.mem_append_left _ ha)⟩

end Lists

/-! ### Polls -/

namespace Progress

variable {s t : Progress} {c : ℕ}

/-- So far the counter has been steady: everything due has been delivered, and the mark is at the
last count unless that one was refused. -/
structure Served (s : Progress) : Prop where
  steady : Steady s.seen s.refused
  first_le : s.seen.headD 0 ≤ s.seen.getLastD 0
  le_last : ∀ a ∈ s.seen, a ≤ s.seen.getLastD 0
  delivered : s.delivered =
    List.range' (s.seen.headD 0 + 1) (s.seen.getLastD 0 - s.seen.headD 0)
  refused : ∀ id ∈ s.refused, id ∈ s.delivered
  mark : (s.mark = s.seen.getLastD 0 ∧ s.mark ∉ s.refused) ∨
    (0 < s.mark ∧ s.mark < s.seen.getLastD 0 ∧ s.seen.getLastD 0 ∈ s.refused)

/-- A number that was due has been delivered twice, or has been passed over. -/
structure Spoilt (s : Progress) : Prop where
  unsteady : ¬ Steady s.seen s.refused
  witness : ∃ id, s.seen.headD 0 < id ∧ id ≤ s.seen.getLastD 0 ∧
    (2 ≤ s.delivered.count id ∨
      (id ∉ s.delivered ∧ (id < s.seen.getLastD 0 ∨ id ≤ s.mark)))

/-- What holds after any number of polls of a counter that only grows. -/
inductive State (s : Progress) : Prop
  | unseen (h : s = start)
  | served (hseen : s.seen ≠ []) (h : s.Served)
  | spoilt (hseen : s.seen ≠ []) (h : s.Spoilt)

/-- A poll that brings a count: it is delivered only above the mark, and the mark only rises. -/
lemma Step.cases_count (h : Step s t) :
    t = s ∨ ∃ c more new, t.seen = s.seen ++ [c] ∧ t.refused = s.refused ++ more ∧
      t.delivered = s.delivered ++ new ∧ s.mark ≤ t.mark ∧ ∀ x ∈ new, x = c ∧ s.mark < c := by
  cases h with
  | missed => exact Or.inl rfl
  | @stale c hc => exact Or.inr ⟨c, [], [], rfl, by simp, by simp, Nat.le_refl _, by simp⟩
  | @noted c hmark hc => exact Or.inr ⟨c, [], [], rfl, by simp, by simp, by simp [hmark], by simp⟩
  | @accepted c hmark hc =>
    exact Or.inr ⟨c, [], [c], rfl, by simp, rfl, Nat.le_of_lt hc, by simpa using hc⟩
  | @refused c hmark hc =>
    exact Or.inr ⟨c, [c], [c], rfl, rfl, rfl, Nat.le_refl _, by simpa using hc⟩

/-- What is spoilt stays spoilt. -/
lemma Spoilt.step (hs : s.Spoilt) (hseen : s.seen ≠ []) (h : Step s t)
    (hle : s.seen.getLastD 0 ≤ t.seen.getLastD 0) : t.Spoilt := by
  rcases h.cases_count with rfl | ⟨c, more, new, hts, htr, htd, hmark, hnew⟩
  · exact hs
  obtain ⟨hunsteady, id, hfirst, hlast, hid⟩ := hs
  rw [hts, getLastD_append] at hle
  refine ⟨fun hsteady => hunsteady ?_, id, ?_, ?_, ?_⟩
  · rw [hts, htr] at hsteady
    exact hsteady.of_append hseen hle
  · rw [hts, headD_append hseen]
    exact hfirst
  · rw [hts, getLastD_append]
    exact hlast.trans hle
  · rw [hts, getLastD_append, htd]
    rcases hid with htwice | ⟨hout, hpassed⟩
    · refine Or.inl ?_
      rw [List.count_append]
      omega
    · refine Or.inr ⟨?_, by omega⟩
      -- a later delivery is of the new count, which is above `id`
      rw [List.mem_append]
      rintro (hold | hmem)
      · exact hout hold
      · obtain ⟨rfl, hlt⟩ := hnew id hmem
        omega

lemma served_singleton (c : ℕ) : Served ⟨[c], [], [], c⟩ where
  steady := ⟨fun h => h, List.isChain_singleton c⟩
  first_le := Nat.le_refl c
  le_last := by simp
  delivered := by simp
  refused := by simp
  mark := Or.inl ⟨rfl, by simp⟩

/-- A count that is neither the last one nor the next one passes a number over. -/
lemma Served.gap (hs : s.Served) (hseen : s.seen ≠ []) (hts : t.seen = s.seen ++ [c])
    (htd : t.delivered = s.delivered ++ [c]) (hc : s.seen.getLastD 0 + 1 < c) : t.Spoilt := by
  refine ⟨fun hsteady => ?_, s.seen.getLastD 0 + 1, ?_, ?_, Or.inr ⟨?_, Or.inl ?_⟩⟩
  · rw [hts] at hsteady
    obtain ⟨-, hlast⟩ := (isChain_append_singleton hseen).1 hsteady.2
    omega
  · rw [hts, headD_append hseen]
    have := hs.first_le
    omega
  · rw [hts, getLastD_append]
    omega
  · have hfirst := hs.first_le
    have hout : s.seen.getLastD 0 + 1 ∉ s.delivered := by
      rw [hs.delivered, List.mem_range'_1]
      omega
    rw [htd, List.mem_append, List.mem_singleton]
    rintro (hmem | hmem)
    · exact hout hmem
    · omega
  · rw [hts, getLastD_append]
    exact hc

lemma Served.next (hs : s.Served) (hseen : s.seen ≠ []) (hpos : 0 < s.mark)
    (hts : t.seen = s.seen ++ [s.seen.getLastD 0 + 1])
    (htd : t.delivered = s.delivered ++ [s.seen.getLastD 0 + 1])
    (h : (t.mark = s.seen.getLastD 0 + 1 ∧ t.refused = s.refused) ∨
      (t.mark = s.mark ∧ t.refused = s.refused ++ [s.seen.getLastD 0 + 1])) : t.Served := by
  have hfirst := hs.first_le
  have hmark : s.mark ≤ s.seen.getLastD 0 := by
    rcases hs.mark with ⟨hm, -⟩ | ⟨-, hm, -⟩ <;> omega
  have hrefused : ∀ id ∈ s.refused, id ≤ s.seen.getLastD 0 := by
    intro id hid
    have hmem := hs.refused id hid
    rw [hs.delivered, List.mem_range'_1] at hmem
    omega
  have hnew : ∀ id ∈ t.refused, id ∈ s.refused ∨ id = s.seen.getLastD 0 + 1 := by
    intro id hid
    rcases h with ⟨-, hr⟩ | ⟨-, hr⟩ <;> rw [hr] at hid
    · exact Or.inl hid
    · simpa using hid
  refine ⟨⟨?_, ?_⟩, ?_, ?_, ?_, ?_, ?_⟩
  · -- a counter that has left zero has been noted at zero, and then its mark was zero
    rw [hts, headD_append hseen]
    intro hzero
    have := hs.steady.1 hzero
    omega
  · rw [hts, isChain_append_singleton hseen]
    refine ⟨hs.steady.2.imp_of_mem_imp fun a b ha hb hab => ?_, Or.inl rfl⟩
    refine hab.imp_right fun hab => ⟨hab.1, fun hmem => ?_⟩
    rcases hnew a hmem with hold | rfl
    · exact hab.2 hold
    · have := hs.le_last _ ha
      omega
  · rw [hts, headD_append hseen, getLastD_append]
    omega
  · rw [hts, getLastD_append]
    intro a ha
    rcases List.mem_append.1 ha with ha | ha
    · have := hs.le_last a ha
      omega
    · simp only [List.mem_singleton] at ha
      omega
  · rw [hts, headD_append hseen, getLastD_append, htd, hs.delivered, Nat.sub_add_comm hfirst,
      List.range'_1_concat]
    congr 2
    omega
  · intro id hid
    rw [htd, List.mem_append]
    rcases hnew id hid with hold | rfl
    · exact Or.inl (hs.refused id hold)
    · simp
  · rw [hts, getLastD_append]
    rcases h with ⟨hm, hr⟩ | ⟨hm, hr⟩
    · refine Or.inl ⟨hm, fun hmem => ?_⟩
      rw [hr, hm] at hmem
      have := hrefused _ hmem
      omega
    · refine Or.inr ⟨by omega, by omega, ?_⟩
      rw [hr]
      simp

/-- A refused count that is seen again is delivered again. -/
lemma Served.again (hs : s.Served) (hseen : s.seen ≠ []) (hlast : s.seen.getLastD 0 ∈ s.refused)
    (hts : t.seen = s.seen ++ [s.seen.getLastD 0])
    (htd : t.delivered = s.delivered ++ [s.seen.getLastD 0])
    (htr : ∀ id ∈ s.refused, id ∈ t.refused) : t.Spoilt := by
  have hmem := hs.refused _ hlast
  refine ⟨fun hsteady => ?_, s.seen.getLastD 0, ?_, ?_, Or.inl ?_⟩
  · rw [hts] at hsteady
    rcases ((isChain_append_singleton hseen).1 hsteady.2).2 with hnext | ⟨-, hnot⟩
    · omega
    · exact hnot (htr _ hlast)
  · rw [hts, headD_append hseen]
    rw [hs.delivered, List.mem_range'_1] at hmem
    omega
  · rw [hts, getLastD_append]
  · rw [htd, List.count_append, List.count_singleton_self]
    have := List.count_pos_iff.2 hmem
    omega

lemma Served.stay (hs : s.Served) (hseen : s.seen ≠ []) (hc : c ≤ s.mark)
    (hle : s.seen.getLastD 0 ≤ c) : Served { s with seen := s.seen ++ [c] } := by
  obtain ⟨hmark, hrefused⟩ : s.mark = s.seen.getLastD 0 ∧ s.mark ∉ s.refused := by
    rcases hs.mark with hm | ⟨-, hm, -⟩
    · exact hm
    · omega
  obtain rfl : c = s.seen.getLastD 0 := by omega
  rw [hmark] at hrefused
  refine ⟨⟨?_, ?_⟩, ?_, ?_, ?_, hs.refused, ?_⟩
  · rw [headD_append hseen, getLastD_append]
    exact hs.steady.1
  · rw [isChain_append_singleton hseen]
    exact ⟨hs.steady.2, Or.inr ⟨rfl, hrefused⟩⟩
  · rw [headD_append hseen, getLastD_append]
    exact hs.first_le
  · rw [getLastD_append]
    intro a ha
    rcases List.mem_append.1 ha with ha | ha
    · exact hs.le_last a ha
    · rw [List.mem_singleton.1 ha]
  · rw [headD_append hseen, getLastD_append]
    exact hs.delivered
  · rw [getLastD_append]
    exact Or.inl ⟨hmark, hmark ▸ hrefused⟩

/-- A counter that leaves zero is only noted: its first number is passed over. -/
lemma Served.leave (hs : s.Served) (hseen : s.seen ≠ []) (hmark : s.mark = 0) (hc : 0 < c) :
    Spoilt { s with seen := s.seen ++ [c], mark := c } := by
  have hlast : s.seen.getLastD 0 = 0 := by
    rcases hs.mark with ⟨hm, -⟩ | ⟨hm, -⟩ <;> omega
  have hfirst : s.seen.headD 0 = 0 := by
    have := hs.first_le
    omega
  refine ⟨fun hsteady => ?_, 1, ?_, ?_, Or.inr ⟨?_, Or.inr hc⟩⟩
  · have hzero := hsteady.1
    rw [headD_append hseen, getLastD_append] at hzero
    have := hzero hfirst
    omega
  · rw [headD_append hseen]
    omega
  · rw [getLastD_append]
    exact hc
  · show 1 ∉ s.delivered
    rw [hs.delivered, hlast, hfirst]
    simp

/-- A count above the mark, delivered while the counter has been steady. -/
lemma Served.delivery (hs : s.Served) (hseen : s.seen ≠ []) (hpos : 0 < s.mark) (hc : s.mark < c)
    (hle : s.seen.getLastD 0 ≤ c) (hts : t.seen = s.seen ++ [c])
    (htd : t.delivered = s.delivered ++ [c])
    (h : (t.mark = c ∧ t.refused = s.refused) ∨
      (t.mark = s.mark ∧ t.refused = s.refused ++ [c])) : t.State := by
  have htseen : t.seen ≠ [] := by rw [hts]; simp
  rcases Nat.lt_trichotomy c (s.seen.getLastD 0 + 1) with hlt | rfl | hgt
  · -- the last count again, above the mark: it had been refused
    obtain rfl : c = s.seen.getLastD 0 := by omega
    have hrefused : s.seen.getLastD 0 ∈ s.refused := by
      rcases hs.mark with ⟨hm, -⟩ | ⟨-, -, hm⟩
      · omega
      · exact hm
    refine .spoilt htseen (hs.again hseen hrefused hts htd fun id hid => ?_)
    rcases h with ⟨-, hr⟩ | ⟨-, hr⟩ <;> rw [hr]
    · exact hid
    · exact List.mem_append_left _ hid
  · exact .served htseen (hs.next hseen hpos hts htd h)
  · exact .spoilt htseen (hs.gap hseen hts htd hgt)

/-- Every poll of a counter that only grows keeps the state. -/
lemma State.step (hs : s.State) (h : Step s t) (hle : s.seen.getLastD 0 ≤ t.seen.getLastD 0) :
    t.State := by
  cases hs with
  | unseen hstart =>
    subst hstart
    cases h with
    | missed => exact .unseen rfl
    | @stale c hc =>
      obtain rfl : c = 0 := Nat.le_zero.1 hc
      exact .served (by simp) (served_singleton 0)
    | @noted c hmark hc => exact .served (by simp) (served_singleton c)
    | accepted hmark hc => exact absurd hmark (Nat.lt_irrefl 0)
    | refused hmark hc => exact absurd hmark (Nat.lt_irrefl 0)
  | spoilt hseen hs =>
    have htseen : t.seen ≠ [] := by
      rcases h.cases_count with rfl | ⟨c, -, -, hts, -⟩
      · exact hseen
      · rw [hts]
        simp
    exact .spoilt htseen (hs.step hseen h hle)
  | served hseen hs =>
    cases h with
    | missed => exact .served hseen hs
    | @stale c hc =>
      rw [getLastD_append] at hle
      exact .served (by simp) (hs.stay hseen hc hle)
    | @noted c hmark hc => exact .spoilt (by simp) (hs.leave hseen hmark hc)
    | @accepted c hmark hc =>
      rw [getLastD_append] at hle
      exact hs.delivery hseen hmark hc hle rfl rfl (Or.inl ⟨rfl, rfl⟩)
    | @refused c hmark hc =>
      rw [getLastD_append] at hle
      exact hs.delivery hseen hmark hc hle rfl rfl (Or.inr ⟨rfl, rfl⟩)

/-! ### Runs -/

/-- What any number of polls leads to. -/
abbrev Reached : Progress → Prop :=
  Relation.ReflTransGen Step start

lemma seen_prefix (h : Step s t) : s.seen <+: t.seen := by
  rcases h.cases_count with rfl | ⟨c, -, -, hts, -⟩
  · exact List.prefix_refl _
  · rw [hts]
    exact List.prefix_append _ _

lemma getLastD_le (h : Step s t) (hmono : t.seen.Pairwise (· ≤ ·)) :
    s.seen.getLastD 0 ≤ t.seen.getLastD 0 := by
  rcases h.cases_count with rfl | ⟨c, -, -, hts, -⟩
  · exact Nat.le_refl _
  · rw [hts] at hmono ⊢
    rw [getLastD_append, List.getLastD_eq_getLast?]
    cases hlast : s.seen.getLast? with
    | none => exact Nat.zero_le c
    | some a => exact (pairwise_append_singleton.1 hmono).2 a (List.mem_of_getLast? hlast)

theorem state_of_reached (h : Reached s) (hmono : s.seen.Pairwise (· ≤ ·)) : s.State := by
  induction h with
  | refl => exact .unseen rfl
  | tail _ hstep ih =>
    have hprefix := seen_prefix hstep
    exact (ih (hmono.sublist hprefix.sublist)).step hstep (getLastD_le hstep hmono)

/-- The numbers after the first count and up to the last one have been delivered exactly once, in
order, if and only if the counter has been steady. -/
theorem deliveredOnce_iff (h : Reached s) (hmono : s.seen.Pairwise (· ≤ ·)) :
    DeliveredOnce (s.seen.headD 0) (s.seen.getLastD 0) s.delivered ↔
      Steady s.seen s.refused := by
  cases state_of_reached h hmono with
  | unseen hstart =>
    subst hstart
    exact ⟨fun _ => ⟨fun h => h, List.isChain_nil⟩,
      fun _ => ⟨fun id hlt hle => absurd (hlt.trans_le hle) (Nat.lt_irrefl _), List.Pairwise.nil⟩⟩
  | served hseen hs =>
    refine iff_of_true ⟨fun id hlt hle => ?_, ?_⟩ hs.steady
    · have hmem : id ∈ s.delivered := by
        rw [hs.delivered, List.mem_range'_1]
        omega
      have hnodup : s.delivered.Nodup := by
        rw [hs.delivered]
        exact List.nodup_range' _
      exact List.count_eq_one_of_mem hnodup hmem
    · rw [hs.delivered]
      exact (List.pairwise_lt_range' _).imp Nat.le_of_lt
  | spoilt hseen hs =>
    obtain ⟨hunsteady, id, hfirst, hlast, hid⟩ := hs
    refine iff_of_false (fun honce => ?_) hunsteady
    have hcount := honce.1 id hfirst hlast
    rcases hid with htwice | ⟨hout, -⟩
    · omega
    · rw [List.count_eq_zero_of_not_mem hout] at hcount
      omega

end Progress

end HighWater
