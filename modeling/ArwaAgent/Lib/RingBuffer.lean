import Mathlib.Data.List.DropRight
import Mathlib.Data.Nat.ModEq

/-!
# Ring buffers over an append-only log

A ring buffer of capacity `cap` keeps the last `cap` records of a log.  It grows
by appending until it is full and from then on overwrites the slot at `head` and
advances `head` modulo `cap`.  `Holds cap slots head log` says that `slots` and
`head` are what the records of `log`, written in order, leave behind: the record
number `j` sits in slot `j % cap` for as long as at most `cap - 1` further
records have been written.

Slots may be edited in place (`Holds.set`); the log is then edited at the same
record, so that it always carries the current version of every record, the
overwritten ones included.

`recent` is the view of the last records.  It walks backwards from the slot before
the head, with its own branch while the buffer is not full; by `Holds.recent_eq` it
is a suffix of the log for every limit.
-/

namespace RingBuffer

variable {α : Type*}

/-- Record number `j` of a log of length `n` has not been overwritten yet. -/
def Live (cap n j : ℕ) : Prop := j < n ∧ n ≤ j + cap

instance (cap n j : ℕ) : Decidable (Live cap n j) :=
  inferInstanceAs (Decidable (j < n ∧ n ≤ j + cap))

/-- `slots` and `head` are a ring buffer of capacity `cap` holding the last records of `log`. -/
structure Holds (cap : ℕ) (slots : List α) (head : ℕ) (log : List α) : Prop where
  cap_pos : 0 < cap
  length_eq : slots.length = min log.length cap
  head_eq : head = if log.length < cap then 0 else log.length % cap
  slot : ∀ j, Live cap log.length j → slots[j % cap]? = log[j]?

/-- The slots after writing one more record. -/
def push (cap : ℕ) (slots : List α) (head : ℕ) (x : α) : List α :=
  if slots.length < cap then slots ++ [x] else slots.set head x

/-- The head after writing one more record. -/
def pushHead (cap : ℕ) (slots : List α) (head : ℕ) : ℕ :=
  if slots.length < cap then head else (head + 1) % cap

/-- Walking `k` slots backwards from slot `idx`, and the records found on the way. -/
def walkBack (cap : ℕ) (slots : List α) : ℕ → ℕ → List α
  | 0, _ => []
  | k + 1, idx => slots[idx]?.toList ++ walkBack cap slots k ((idx + cap - 1) % cap)

/-- The view of the last `limit` records: a suffix of the slots while some are free, and
otherwise the walk backwards from the newest record, reversed. -/
def recent (cap : ℕ) (slots : List α) (head limit : ℕ) : List α :=
  let len := min slots.length cap
  let l := min limit len
  if len = 0 ∨ l = 0 then []
  else if slots.length < cap then
    let start := slots.length - l
    (List.range' start (slots.length - start)).filterMap fun i => slots[i]?
  else (walkBack cap slots l ((head + cap - 1) % cap)).reverse

/-! ### Live records -/

/-- Two live records never share a slot. -/
lemma Live.mod_inj {cap n j k : ℕ} (hj : Live cap n j) (hk : Live cap n k)
    (h : j % cap = k % cap) : j = k := by
  obtain ⟨hj1, hj2⟩ := hj
  obtain ⟨hk1, hk2⟩ := hk
  rcases Nat.le_total j k with hjk | hkj
  · have hmod : j ≡ k [MOD cap] := h
    have hdvd := (Nat.modEq_iff_dvd' hjk).1 hmod
    have := Nat.eq_zero_of_dvd_of_lt hdvd (by omega)
    omega
  · have hmod : k ≡ j [MOD cap] := h.symm
    have hdvd := (Nat.modEq_iff_dvd' hkj).1 hmod
    have := Nat.eq_zero_of_dvd_of_lt hdvd (by omega)
    omega

/-- Every index below the number of filled slots is the slot of a live record. -/
lemma exists_live_mod {cap n i : ℕ} (hi : i < min n cap) : ∃ j, Live cap n j ∧ j % cap = i := by
  have hcap : 0 < cap := by omega
  rcases Nat.lt_or_ge n cap with hn | hn
  · exact ⟨i, ⟨by omega, by omega⟩, Nat.mod_eq_of_lt (by omega)⟩
  · -- `n - 1 - k` for the distance `k` from the slot of the newest record back to `i`
    obtain ⟨q, r, hr, hq⟩ : ∃ q r, r < cap ∧ n = cap * q + r :=
      ⟨n / cap, n % cap, Nat.mod_lt _ hcap, (Nat.div_add_mod n cap).symm⟩
    have hq1 : 1 ≤ q := by
      rcases Nat.eq_zero_or_pos q with h0 | h0
      · subst h0; omega
      · exact h0
    rcases Nat.lt_or_ge i r with hir | hir
    · refine ⟨cap * q + i, ⟨by omega, by omega⟩, ?_⟩
      rw [Nat.mul_add_mod, Nat.mod_eq_of_lt (by omega)]
    · obtain ⟨p, rfl⟩ : ∃ p, q = p + 1 := ⟨q - 1, by omega⟩
      rw [Nat.mul_add, Nat.mul_one] at hq
      refine ⟨cap * p + i, ⟨by omega, by omega⟩, ?_⟩
      rw [Nat.mul_add_mod, Nat.mod_eq_of_lt (by omega)]

/-- The live records are the last `cap` records of the log. -/
lemma mem_rtake_iff {cap : ℕ} {log : List α} {x : α} :
    x ∈ log.rtake cap ↔ ∃ j, Live cap log.length j ∧ log[j]? = some x := by
  rw [List.rtake, List.mem_iff_getElem?]
  constructor
  · rintro ⟨i, hi⟩
    rw [List.getElem?_drop] at hi
    have hlt := (List.getElem?_eq_some_iff.1 hi).1
    exact ⟨_, ⟨hlt, by omega⟩, hi⟩
  · rintro ⟨j, ⟨hj1, hj2⟩, hx⟩
    refine ⟨j - (log.length - cap), ?_⟩
    rw [List.getElem?_drop, Nat.add_sub_cancel' (by omega)]
    exact hx

lemma filterMap_getElem?_range' (xs : List α) (start : ℕ) :
    ((List.range' start (xs.length - start)).filterMap fun i => xs[i]?) = xs.drop start := by
  induction hn : xs.length - start generalizing start with
  | zero => rw [List.range'_zero, List.filterMap_nil, List.drop_eq_nil_of_le (by omega)]
  | succ n ih =>
    have hlt : start < xs.length := by omega
    rw [List.range'_succ, List.filterMap_cons, List.getElem?_eq_getElem hlt]
    simp only
    rw [ih (start + 1) (by omega), List.drop_eq_getElem_cons hlt]

/-! ### The representation -/

lemma holds_nil {cap : ℕ} (h : 0 < cap) : Holds cap ([] : List α) 0 [] where
  cap_pos := h
  length_eq := by simp
  head_eq := by simp
  slot := fun j hj => absurd hj.1 (by simp)

namespace Holds

variable {cap head : ℕ} {slots log : List α}

lemma length_lt_iff (h : Holds cap slots head log) :
    slots.length < cap ↔ log.length < cap := by
  have := h.length_eq
  omega

lemma head_lt (h : Holds cap slots head log) : head < cap := by
  rw [h.head_eq]
  split
  · exact h.cap_pos
  · exact Nat.mod_lt _ h.cap_pos

lemma mod_lt_length (h : Holds cap slots head log) {j : ℕ} (hj : Live cap log.length j) :
    j % cap < slots.length := by
  have hcap := Nat.mod_lt j h.cap_pos
  have hle := Nat.mod_le j cap
  rw [h.length_eq]
  have := hj.1
  omega

/-- The filled slots hold exactly the live records of the log. -/
lemma mem_slots_iff (h : Holds cap slots head log) {x : α} :
    x ∈ slots ↔ ∃ j, Live cap log.length j ∧ log[j]? = some x := by
  rw [List.mem_iff_getElem?]
  constructor
  · rintro ⟨i, hi⟩
    have hlt := (List.getElem?_eq_some_iff.1 hi).1
    rw [h.length_eq] at hlt
    obtain ⟨j, hj, rfl⟩ := exists_live_mod hlt
    exact ⟨j, hj, by rw [← h.slot j hj]; exact hi⟩
  · rintro ⟨j, hj, hx⟩
    exact ⟨j % cap, by rw [h.slot j hj]; exact hx⟩

/-- Writing a record appends it to the log. -/
lemma push (h : Holds cap slots head log) (x : α) :
    Holds cap (push cap slots head x) (pushHead cap slots head) (log ++ [x]) := by
  have hlen := h.length_eq
  have hhead := h.head_eq
  by_cases hn : log.length < cap
  · -- there is a free slot: the ring still is the log
    have hs : slots.length < cap := h.length_lt_iff.2 hn
    have hsl : slots.length = log.length := by omega
    rw [if_pos hn] at hhead
    refine ⟨h.cap_pos, ?_, ?_, ?_⟩
    · rw [RingBuffer.push, if_pos hs, List.length_append, List.length_append]
      simp only [List.length_cons, List.length_nil]
      omega
    · rw [pushHead, if_pos hs, hhead, List.length_append, List.length_singleton]
      split
      · rfl
      · have : log.length + 1 = cap := by omega
        rw [this, Nat.mod_self]
    · intro j hj
      rw [List.length_append, List.length_singleton] at hj
      have hjcap : j % cap = j := Nat.mod_eq_of_lt (by have := hj.1; omega)
      rw [RingBuffer.push, if_pos hs, hjcap]
      rcases Nat.lt_or_ge j log.length with hlt | hge
      · have hold := h.slot j ⟨hlt, by omega⟩
        rw [hjcap] at hold
        rw [List.getElem?_append_left (by omega), List.getElem?_append_left hlt, hold]
      · have hje : j = log.length := by have := hj.1; omega
        rw [List.getElem?_append_right (by omega), List.getElem?_append_right hge, hsl, hje]
  · -- the ring is full: the head, which is the slot of the oldest record, is overwritten
    have hs : ¬ slots.length < cap := fun hc => hn (h.length_lt_iff.1 hc)
    rw [if_neg hn] at hhead
    refine ⟨h.cap_pos, ?_, ?_, ?_⟩
    · rw [RingBuffer.push, if_neg hs, List.length_set, List.length_append, List.length_singleton]
      omega
    · rw [pushHead, if_neg hs, hhead, List.length_append, List.length_singleton,
        if_neg (by omega), Nat.mod_add_mod]
    · intro j hj
      rw [List.length_append, List.length_singleton] at hj
      rw [RingBuffer.push, if_neg hs, hhead]
      rcases Nat.lt_or_ge j log.length with hlt | hge
      · -- the overwritten slot belonged to the record that is no longer live
        have hne : log.length % cap ≠ j % cap := by
          intro hmod
          have hlive : Live cap (log.length + 1) log.length := ⟨by omega, by
            have := h.cap_pos; omega⟩
          have := hlive.mod_inj hj hmod
          omega
        rw [List.getElem?_set_ne hne, List.getElem?_append_left hlt]
        exact h.slot j ⟨hlt, by have := hj.2; omega⟩
      · have hje : j = log.length := by have := hj.1; omega
        have hmod := Nat.mod_lt log.length h.cap_pos
        rw [hje, List.getElem?_set_self (by omega), List.getElem?_append_right (Nat.le_refl _)]
        simp

/-- Editing the slot of a live record edits that record of the log. -/
lemma set (h : Holds cap slots head log) {j : ℕ} (hj : Live cap log.length j) (x : α) :
    Holds cap (slots.set (j % cap) x) head (log.set j x) := by
  refine ⟨h.cap_pos, by simpa using h.length_eq, by simpa using h.head_eq, ?_⟩
  intro k hk
  rw [List.length_set] at hk
  by_cases hjk : j = k
  · subst hjk
    rw [List.getElem?_set_self (h.mod_lt_length hj), List.getElem?_set_self hj.1]
  · have hne : j % cap ≠ k % cap := fun hmod => hjk (hj.mod_inj hk hmod)
    rw [List.getElem?_set_ne hne, List.getElem?_set_ne hjk, h.slot k hk]

/-! ### Reading -/

/-- The walk from the slot of record `j` meets the `k` records up to `j`, newest first. -/
lemma walkBack_eq (h : Holds cap slots head log) {j k : ℕ} (hj : j < log.length) (hk : k ≤ j + 1)
    (hlive : log.length + k ≤ j + 1 + cap) :
    walkBack cap slots k (j % cap) = ((log.take (j + 1)).rtake k).reverse := by
  induction k generalizing j with
  | zero => rw [walkBack, List.rtake_zero, List.reverse_nil]
  | succ k ih =>
    have hslot := h.slot j ⟨hj, by omega⟩
    have htake : log.take (j + 1) = log.take j ++ [log[j]] := (List.take_append_getElem hj).symm
    rw [walkBack, hslot, List.getElem?_eq_getElem hj, htake, List.rtake_concat_succ,
      List.reverse_concat, Option.toList_some, List.singleton_append]
    congr 1
    cases j with
    | zero =>
      obtain rfl : k = 0 := by omega
      rw [walkBack, List.rtake_zero, List.reverse_nil]
    | succ j =>
      -- one slot back from the slot of record `j + 1` is the slot of record `j`
      have hback : ((j + 1) % cap + cap - 1) % cap = j % cap := by
        have hcap := h.cap_pos
        have hsub : (j + 1) % cap + cap - 1 = (j + 1) % cap + (cap - 1) := by omega
        have hsum : j + 1 + (cap - 1) = j + cap := by omega
        rw [hsub, Nat.mod_add_mod, hsum, Nat.add_mod_right]
      rw [hback]
      exact ih (by omega) (by omega) (by omega)

lemma slots_eq_log (h : Holds cap slots head log) (hn : log.length < cap) : slots = log := by
  have hlen : slots.length = log.length := by
    have := h.length_eq
    omega
  refine List.ext_getElem? fun i => ?_
  rcases Nat.lt_or_ge i log.length with hi | hi
  · have hslot := h.slot i ⟨hi, by omega⟩
    rwa [Nat.mod_eq_of_lt (by omega)] at hslot
  · rw [List.getElem?_eq_none hi, List.getElem?_eq_none (by omega)]

/-- The view is the end of the log. -/
theorem recent_eq (h : Holds cap slots head log) (limit : ℕ) :
    recent cap slots head limit = log.rtake (min limit (min cap log.length)) := by
  have hcap := h.cap_pos
  have hlen := h.length_eq
  have hmin : min slots.length cap = min cap log.length := by omega
  rw [recent, hmin]
  by_cases h0 : min cap log.length = 0 ∨ min limit (min cap log.length) = 0
  · have hz : min limit (min cap log.length) = 0 := by omega
    rw [if_pos h0, hz, List.rtake_zero]
  · rw [if_neg h0]
    by_cases hn : log.length < cap
    · rw [if_pos (h.length_lt_iff.2 hn), h.slots_eq_log hn, List.rtake]
      exact filterMap_getElem?_range' log _
    · -- the newest record is in the slot before the head
      have hhead := h.head_eq
      rw [if_neg hn] at hhead
      have hback : (head + cap - 1) % cap = (log.length - 1) % cap := by
        have hsub : log.length % cap + cap - 1 = log.length % cap + (cap - 1) := by omega
        have hsum : log.length + (cap - 1) = log.length - 1 + cap := by omega
        rw [hhead, hsub, Nat.mod_add_mod, hsum, Nat.add_mod_right]
      have hwalk := h.walkBack_eq (j := log.length - 1) (k := min limit (min cap log.length))
        (by omega) (by omega) (by omega)
      rw [if_neg (fun hc => hn (h.length_lt_iff.1 hc)), hback, hwalk, List.reverse_reverse,
        Nat.sub_add_cancel (by omega), List.take_length]

end Holds

end RingBuffer
