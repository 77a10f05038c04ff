import Mathlib.Data.List.DropRight
import Mathlib.Tactic.FieldSimp
import Mathlib.Tactic.Ring
import ArwaAgent.Js.Integers

/-!
# Decimal fractions

A count of units of which `10 ^ d` make a whole is written as the whole, a point, and the
remainder in `d` digits, of which the zeros at the end are left out.  Read as a decimal
literal, exactly and not as a double, this is the count divided by `10 ^ d`.
-/

namespace Js

/-- The number that a decimal literal stands for, as it is before it is rounded. -/
def decimalValue (s : String) : Option ℚ :=
  match decimalPrefix s.toList with
  | some (q, []) => some q
  | _ => none

/-- Digits stand before and after every point, and the last one after it is no zero. -/
def TightPoint (s : String) : Prop :=
  ∀ whole fraction, s.toList = whole ++ '.' :: fraction →
    whole ≠ [] ∧ ∃ ds c, fraction = ds ++ [c] ∧ c ≠ '0'

section

variable {s : String} {cs ds ws fs : List Char} {base d n : ℕ}

/-! ### Digits in a row -/

lemma ofDigits_append (base : ℕ) (cs ds : List Char) :
    ofDigits base (cs ++ ds) = ofDigits base cs * base ^ ds.length + ofDigits base ds := by
  have hfrom : ∀ (ds : List Char) (n : ℕ),
      ds.foldl (fun n d => n * base + digitValue d) n = n * base ^ ds.length + ofDigits base ds := by
    intro ds
    induction ds with
    | nil => intro n; simp [ofDigits]
    | cons d ds ih =>
      intro n
      rw [ofDigits, List.foldl_cons, List.foldl_cons, ih, ih (0 * base + digitValue d),
        List.length_cons, pow_succ]
      ring
  rw [ofDigits, List.foldl_append, hfrom]
  rfl

lemma ofDigits_zeros (base k : ℕ) : ofDigits base (List.replicate k '0') = 0 := by
  induction k with
  | zero => rfl
  | succ k ih =>
    rw [List.replicate_succ', ofDigits_append, ih, Nat.zero_mul, Nat.zero_add]
    simp [ofDigits, digitValue]

lemma ofDigits_zeros_append (base k : ℕ) (ds : List Char) :
    ofDigits base (List.replicate k '0' ++ ds) = ofDigits base ds := by
  rw [ofDigits_append, ofDigits_zeros, Nat.zero_mul, Nat.zero_add]

/-! ### Reading a fraction -/

/-- Digits, a point and digits are a decimal literal as a whole. -/
lemma decimalPrefix_point (hws : ws.all Char.isDigit = true) (hne : ws ≠ [])
    (hfs : fs.all Char.isDigit = true) :
    decimalPrefix (ws ++ '.' :: fs) =
      some (ofDigits 10 (ws ++ fs) * (10 : ℚ) ^ (-(fs.length : ℤ)), []) := by
  have hwhole : (ws ++ '.' :: fs).span Char.isDigit = (ws, '.' :: fs) := by
    have hdigits := List.all_eq_true.1 hws
    rw [List.span_eq_takeWhile_dropWhile, List.takeWhile_append_of_pos hdigits,
      List.dropWhile_append_of_pos hdigits]
    simp
  have hfraction : fs.span Char.isDigit = (fs, []) := by
    have hdigits := List.all_eq_true.1 hfs
    rw [List.span_eq_takeWhile_dropWhile, List.takeWhile_eq_self_iff.2 hdigits,
      List.dropWhile_eq_nil_iff.2 hdigits]
  simp only [decimalPrefix, hwhole, hfraction, exponentPart]
  simp [hne]

lemma decimalValue_point (hws : ws.all Char.isDigit = true) (hne : ws ≠ [])
    (hfs : fs.all Char.isDigit = true) :
    decimalValue (String.ofList (ws ++ '.' :: fs)) =
      some (ofDigits 10 (ws ++ fs) * (10 : ℚ) ^ (-(fs.length : ℤ))) := by
  rw [decimalValue, String.toList_ofList, decimalPrefix_point hws hne hfs]

lemma decimalValue_toDigits (n : ℕ) :
    decimalValue (String.ofList (Nat.toDigits 10 n)) = some (n : ℚ) := by
  rw [decimalValue, String.toList_ofList,
    decimalPrefix_digits Nat.toDigits_ne_nil (all_isDigit_toDigits n), ofDigits_toDigits]

/-! ### Writing a fraction -/

/-- Zeros at the end are taken off, and there are none before them. -/
lemma exists_rdropWhile_zeros (cs : List Char) : ∃ k,
    cs = cs.rdropWhile (· = '0') ++ List.replicate k '0' ∧
      ∀ c ∈ (cs.rdropWhile (· = '0')).getLast?, c ≠ '0' := by
  refine ⟨(cs.rtakeWhile (· = '0')).length, ?_, ?_⟩
  · have hzeros : cs.rtakeWhile (· = '0') =
        List.replicate (cs.rtakeWhile (· = '0')).length '0' :=
      List.eq_replicate_of_mem fun c hc => by simpa using List.mem_rtakeWhile_imp hc
    rw [← hzeros, List.rdropWhile_append_rtakeWhile]
  · intro c hc
    obtain ⟨hne, rfl⟩ := List.mem_getLast?_eq_getLast hc
    simpa using List.rdropWhile_last_not (· = '0') cs hne

/-- The digits of a remainder that is not zero: as many as are needed. -/
lemma exists_fraction (hpos : 0 < n) (hlt : n < 10 ^ d) : ∃ ds c k,
    (List.replicate (d - (Nat.toDigits 10 n).length) '0' ++ Nat.toDigits 10 n).rdropWhile (· = '0') =
        ds ++ [c] ∧
      c ≠ '0' ∧ (ds ++ [c]).all Char.isDigit = true ∧ (ds ++ [c]).length + k = d ∧
      ofDigits 10 (ds ++ [c]) * 10 ^ k = n := by
  have hd : 0 < d := by
    rcases Nat.eq_zero_or_pos d with rfl | hd
    · omega
    · exact hd
  have hlength : (Nat.toDigits 10 n).length ≤ d :=
    (Nat.length_toDigits_le_iff (by decide) hd).2 hlt
  obtain ⟨k, hall, hlast⟩ := exists_rdropWhile_zeros
    (List.replicate (d - (Nat.toDigits 10 n).length) '0' ++ Nat.toDigits 10 n)
  generalize List.rdropWhile _ (List.replicate _ _ ++ _) = fs at hall hlast ⊢
  have hvalue : ofDigits 10 fs * 10 ^ k = n := by
    have h := congrArg (ofDigits 10) hall
    rw [ofDigits_zeros_append, ofDigits_toDigits, ofDigits_append, ofDigits_zeros,
      List.length_replicate, Nat.add_zero] at h
    exact h.symm
  rcases fs.eq_nil_or_concat' with rfl | ⟨ds, c, rfl⟩
  · -- all digits would be zeros
    rw [ofDigits, List.foldl_nil, Nat.zero_mul] at hvalue
    omega
  · refine ⟨ds, c, k, rfl, hlast c (by simp), ?_, ?_, hvalue⟩
    · have hdigits : ∀ a ∈ List.replicate (d - (Nat.toDigits 10 n).length) '0' ++
          Nat.toDigits 10 n, a.isDigit = true := by
        intro a ha
        rcases List.mem_append.1 ha with ha | ha
        · rw [List.eq_of_mem_replicate ha]
          rfl
        · exact List.all_eq_true.1 (all_isDigit_toDigits n) a ha
      rw [hall] at hdigits
      exact List.all_eq_true.2 fun a ha => hdigits a (List.mem_append_left _ ha)
    · have h := congrArg List.length hall
      simp only [List.length_append, List.length_replicate, List.length_singleton] at h ⊢
      omega

lemma tightPoint_digits (hds : ds.all Char.isDigit = true) : TightPoint (String.ofList ds) := by
  intro whole fraction h
  rw [String.toList_ofList] at h
  have hpoint := List.all_eq_true.1 hds '.' (h ▸ by simp)
  exact absurd hpoint (by decide)

lemma tightPoint_point {c : Char} (hws : ws.all Char.isDigit = true) (hne : ws ≠ [])
    (hfs : (fs ++ [c]).all Char.isDigit = true) (hc : c ≠ '0') :
    TightPoint (String.ofList (ws ++ '.' :: (fs ++ [c]))) := by
  intro whole fraction h
  rw [String.toList_ofList] at h
  have hpoint : ∀ {as : List Char}, as.all Char.isDigit = true → '.' ∉ as := fun has hmem =>
    absurd (List.all_eq_true.1 has '.' hmem) (by decide)
  -- the only point is the one between the two
  obtain ⟨rfl, -, rfl⟩ := (List.append_cons_inj_of_notMem (hpoint hws) (hpoint hfs)).1 h
  exact ⟨hne, fs, c, rfl, hc⟩

end

end Js
