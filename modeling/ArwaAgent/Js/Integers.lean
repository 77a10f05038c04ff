import Mathlib.Data.List.TakeWhile
import Mathlib.Tactic.IntervalCases
import Mathlib.Tactic.NormNum
import Mathlib.Tactic.Positivity
import Mathlib.Tactic.Linarith
import ArwaAgent.Js.Text

/-!
# Integers read as numbers

The same text is read by `BigInt` as an integer and by `Number` as the nearest double.
The two readings differ beyond 2^53, but not in a comparison with an integer below it.
What is written of an integer reads back as the integer, also where it is written as a
double, from the shortest digits that round to it.
-/

namespace Js

namespace Number

variable {z m : ℤ} {x : Number}

/-! ### Rounding an integer -/

lemma floor_le_roundHalfEven (q : ℚ) : ⌊q⌋ ≤ roundHalfEven q := by
  simp only [roundHalfEven]
  split_ifs <;> omega

@[simp] lemma roundHalfEven_intCast (z : ℤ) : roundHalfEven (z : ℚ) = z := by
  simp [roundHalfEven]

@[simp] lemma round_zero : round 0 = finite 0 := if_pos rfl

lemma log_le_of_lt (hz : z ≠ 0) (h : |z| < 2 ^ 53) : Int.log 2 |(z : ℚ)| ≤ 52 := by
  have hpos : (0 : ℚ) < |(z : ℚ)| := abs_pos.2 (Int.cast_ne_zero.2 hz)
  have hlt : |(z : ℚ)| < (2 : ℕ) ^ (53 : ℤ) := by exact_mod_cast h
  have := (Int.lt_zpow_iff_log_lt one_lt_two hpos).1 hlt
  omega

lemma round_intCast (h : |z| < 2 ^ 53) : round (z : ℚ) = finite z := by
  by_cases hz : z = 0
  · subst hz
    exact round_zero
  · obtain ⟨n, hn⟩ : ∃ n : ℕ, (Int.log 2 |(z : ℚ)| - 52) ⊔ (-1074) = -(n : ℤ) := by
      have := log_le_of_lt hz h
      exact ⟨(-((Int.log 2 |(z : ℚ)| - 52) ⊔ (-1074))).toNat, by omega⟩
    have hscaled : |(z : ℚ)| / 2 ^ (-(n : ℤ)) = ((|z| * 2 ^ n : ℤ) : ℚ) := by
      rw [zpow_neg, zpow_natCast, div_inv_eq_mul]
      push_cast
      rfl
    have hback : ((|z| * 2 ^ n : ℤ) : ℚ) * 2 ^ (-(n : ℤ)) = |(z : ℚ)| := by
      rw [← hscaled, div_mul_cancel₀ _ (zpow_pos two_pos _).ne']
    have hlt : ¬ (2 : ℚ) ^ 1024 ≤ |(z : ℚ)| := by
      have : |(z : ℚ)| < 2 ^ 53 := by exact_mod_cast h
      exact not_le.2 (this.trans (pow_lt_pow_right₀ one_lt_two (by norm_num)))
    simp only [round, Int.cast_eq_zero, hz, if_false, hn, hscaled, roundHalfEven_intCast, hback,
      if_neg hlt]
    split_ifs with hneg
    · rw [abs_of_neg hneg, neg_neg]
    · rw [abs_of_nonneg (not_lt.1 hneg)]

/-- A difference that is an integer below 2^53 is exact. -/
lemma finite_sub_finite {p q : ℚ} (h : p - q = z) (hz : |z| < 2 ^ 53) :
    (finite p).sub (finite q) = finite z := by
  rw [sub, h, round_intCast hz]

/-- Beyond 2^53 the rounded absolute value stays beyond it. -/
lemma le_scaled (h : 2 ^ 53 ≤ |z|) :
    (2 : ℚ) ^ 53 ≤ roundHalfEven (|(z : ℚ)| / 2 ^ ((Int.log 2 |(z : ℚ)| - 52) ⊔ (-1074))) *
      2 ^ ((Int.log 2 |(z : ℚ)| - 52) ⊔ (-1074)) := by
  have hpos : (0 : ℚ) < |(z : ℚ)| := by
    have : (2 : ℚ) ^ 53 ≤ |(z : ℚ)| := by exact_mod_cast h
    linarith
  have hlog : 53 ≤ Int.log 2 |(z : ℚ)| := by
    refine (Int.zpow_le_iff_le_log one_lt_two hpos).1 ?_
    exact_mod_cast h
  have hself : (2 : ℚ) ^ Int.log 2 |(z : ℚ)| ≤ |(z : ℚ)| := by
    exact_mod_cast Int.zpow_log_le_self (b := 2) one_lt_two hpos
  generalize Int.log 2 |(z : ℚ)| = l at hlog hself ⊢
  have he : (l - 52) ⊔ (-1074) = l - 52 := by omega
  rw [he]
  have hscaled : ((2 ^ 52 : ℤ) : ℚ) ≤ |(z : ℚ)| / 2 ^ (l - 52) := by
    rw [le_div_iff₀ (zpow_pos two_pos _)]
    refine le_trans (le_of_eq ?_) hself
    rw [Int.cast_pow, Int.cast_ofNat, ← zpow_natCast, ← zpow_add₀ two_ne_zero]
    congr 1
    omega
  have hround : (2 : ℤ) ^ 52 ≤ roundHalfEven (|(z : ℚ)| / 2 ^ (l - 52)) :=
    (Int.le_floor.2 hscaled).trans (floor_le_roundHalfEven _)
  calc (2 : ℚ) ^ 53 = ((2 ^ 52 : ℤ) : ℚ) * 2 ^ (1 : ℤ) := by norm_num
    _ ≤ roundHalfEven (|(z : ℚ)| / 2 ^ (l - 52)) * 2 ^ (l - 52) := by
      refine mul_le_mul (by exact_mod_cast hround) ?_ (by positivity) ?_
      · exact zpow_le_zpow_right₀ one_le_two (by omega)
      · exact_mod_cast le_trans (by positivity) hround

/-- An integer from 2^53 on is read as a number from 2^53 on, or as infinity. -/
lemma round_of_le (h : 2 ^ 53 ≤ z) :
    round (z : ℚ) = infinity false ∨ ∃ q : ℚ, round (z : ℚ) = finite q ∧ 2 ^ 53 ≤ q := by
  have hz : ¬ (z : ℚ) = 0 := by
    rw [Int.cast_eq_zero]
    omega
  have hneg : ¬ (z : ℚ) < 0 := by
    rw [Int.cast_lt_zero]
    omega
  have hle := le_scaled (z := z) (h.trans (le_abs_self z))
  simp only [round, if_neg hz, hneg, decide_false, if_false]
  split_ifs
  · exact Or.inl rfl
  · exact Or.inr ⟨_, rfl, hle⟩

lemma round_of_le_neg (h : z ≤ -2 ^ 53) :
    round (z : ℚ) = infinity true ∨ ∃ q : ℚ, round (z : ℚ) = finite q ∧ q ≤ -2 ^ 53 := by
  have hz : ¬ (z : ℚ) = 0 := by
    rw [Int.cast_eq_zero]
    omega
  have hneg : (z : ℚ) < 0 := by
    rw [Int.cast_lt_zero]
    omega
  have hle := le_scaled (z := z) (by rw [le_abs]; omega)
  simp only [round, if_neg hz, hneg, decide_true, if_true]
  split_ifs
  · exact Or.inl rfl
  · exact Or.inr ⟨_, rfl, neg_le_neg hle⟩

/-! ### Comparing with an integer -/

/-- The number is a reading of the integer, exact or rounded. -/
def Reads (x : Number) (z : ℤ) : Prop :=
  x = finite z ∨ x = round z

namespace Reads

lemma eq_finite (hx : x.Reads z) (h : |z| < 2 ^ 53) : x = finite z :=
  hx.elim id fun h' => h'.trans (round_intCast h)

/-- A reading is exact, or far beyond the integers below 2^53, on the side of the integer. -/
lemma exact_or_far (hx : x.Reads z) :
    x = finite z ∨
      (2 ^ 53 ≤ z ∧ (x = infinity false ∨ ∃ q : ℚ, x = finite q ∧ 2 ^ 53 ≤ q)) ∨
      (z ≤ -2 ^ 53 ∧ (x = infinity true ∨ ∃ q : ℚ, x = finite q ∧ q ≤ -2 ^ 53)) := by
  rcases lt_or_ge |z| (2 ^ 53) with hz | hz
  · exact Or.inl (hx.eq_finite hz)
  · rcases hx with rfl | rfl
    · exact Or.inl rfl
    · rcases le_abs.1 hz with hz | hz
      · exact Or.inr (Or.inl ⟨hz, round_of_le hz⟩)
      · exact Or.inr (Or.inr ⟨le_neg.1 hz, round_of_le_neg (le_neg.1 hz)⟩)

lemma lt_finite (hx : x.Reads z) (hm : |m| < 2 ^ 53) : x.lt (finite m) = decide (z < m) := by
  have hmz := abs_lt.1 hm
  have hmq : -2 ^ 53 < (m : ℚ) ∧ (m : ℚ) < 2 ^ 53 := by exact_mod_cast hmz
  rcases hx.exact_or_far with rfl | ⟨hz, rfl | ⟨q, rfl, hq⟩⟩ | ⟨hz, rfl | ⟨q, rfl, hq⟩⟩
  · rw [finite_lt_finite, decide_eq_decide, Int.cast_lt]
  · exact (decide_eq_false (by omega)).symm
  · rw [finite_lt_finite, decide_eq_false (by linarith), decide_eq_false (by omega)]
  · exact (decide_eq_true (by omega)).symm
  · rw [finite_lt_finite, decide_eq_true (by linarith), decide_eq_true (by omega)]

lemma finite_lt (hx : x.Reads z) (hm : |m| < 2 ^ 53) : (finite m).lt x = decide (m < z) := by
  have hmz := abs_lt.1 hm
  have hmq : -2 ^ 53 < (m : ℚ) ∧ (m : ℚ) < 2 ^ 53 := by exact_mod_cast hmz
  rcases hx.exact_or_far with rfl | ⟨hz, rfl | ⟨q, rfl, hq⟩⟩ | ⟨hz, rfl | ⟨q, rfl, hq⟩⟩
  · rw [finite_lt_finite, decide_eq_decide, Int.cast_lt]
  · exact (decide_eq_true (by omega)).symm
  · rw [finite_lt_finite, decide_eq_true (by linarith), decide_eq_true (by omega)]
  · exact (decide_eq_false (by omega)).symm
  · rw [finite_lt_finite, decide_eq_false (by linarith), decide_eq_false (by omega)]

lemma sub_finite (hx : x.Reads z) (hz : |z| < 2 ^ 53) (h : |z - m| < 2 ^ 53) :
    x.sub (finite m) = finite (z - m : ℤ) := by
  rw [hx.eq_finite hz, finite_sub_finite (Int.cast_sub z m).symm h]

end Reads

end Number

/-! ### Reading a text in both ways -/

section

variable {s : String} {v : Value} {z : ℤ} {ds : List Char}

lemma decimalPrefix_digits (hne : ds ≠ []) (h : ds.all Char.isDigit = true) :
    decimalPrefix ds = some ((ofDigits 10 ds : ℚ), []) := by
  have hspan : ds.span Char.isDigit = (ds, []) := by
    rw [List.span_eq_takeWhile_dropWhile, List.takeWhile_eq_self_iff.2 (List.all_eq_true.1 h),
      List.dropWhile_eq_nil_iff.2 (List.all_eq_true.1 h)]
  simp only [decimalPrefix, hspan, exponentPart]
  simp [hne]

lemma isPrefixOf_digits (h : ds.all Char.isDigit = true) :
    ¬ "Infinity".toList.isPrefixOf ds = true := by
  intro hpre
  have hmem := (List.isPrefixOf_iff_prefix.1 hpre).subset (by decide : 'I' ∈ "Infinity".toList)
  exact absurd (List.all_eq_true.1 h _ hmem) (by decide)

lemma signedPrefix_digits (hne : ds ≠ []) (h : ds.all Char.isDigit = true) :
    signedPrefix ('-' :: ds) = some (Number.round (-(ofDigits 10 ds : ℚ)), []) ∧
      signedPrefix ('+' :: ds) = some (Number.round (ofDigits 10 ds), []) ∧
      signedPrefix ds = some (Number.round (ofDigits 10 ds), []) := by
  have hprefix := decimalPrefix_digits hne h
  have hinfinity := isPrefixOf_digits h
  refine ⟨?_, ?_, ?_⟩
  · show (if "Infinity".toList.isPrefixOf ds = true then _ else (decimalPrefix ds).map _) = _
    rw [if_neg hinfinity, hprefix]
    rfl
  · show (if "Infinity".toList.isPrefixOf ds = true then _ else (decimalPrefix ds).map _) = _
    rw [if_neg hinfinity, hprefix]
    rfl
  · simp only [signedPrefix]
    split
    · simp at h
    · simp at h
    · rw [if_neg hinfinity, hprefix]
      rfl

/-- What `BigInt` reads in a text, `Number` reads in it too. -/
lemma reads_of_stringToBigInt (h : stringToBigInt s = some z) : (stringToNumber s).Reads z := by
  simp only [stringToBigInt, stringToNumber] at h ⊢
  by_cases hempty : trim s.toList = []
  · rw [if_pos hempty] at h ⊢
    cases h
    exact Or.inl rfl
  · rw [if_neg hempty] at h ⊢
    cases hlit : prefixedLiteral (trim s.toList) with
    | some n =>
      rw [hlit] at h
      cases h
      exact Or.inr rfl
    | none =>
      simp only [hlit] at h ⊢
      -- the sign that `BigInt` has taken off
      split at h
      next ds ht =>
        split at h
        next hds =>
          cases h
          rw [ht, (signedPrefix_digits hds.1 hds.2).1]
          exact Or.inr (by simp)
        next => cases h
      next ds ht =>
        split at h
        next hds =>
          cases h
          rw [ht, (signedPrefix_digits hds.1 hds.2).2.1]
          exact Or.inr (by simp)
        next => cases h
      next =>
        split at h
        next hds =>
          cases h
          rw [(signedPrefix_digits hds.1 hds.2).2.2]
          exact Or.inr (by simp)
        next => cases h

lemma Value.toBigInt_intCast (z : ℤ) : (Value.num (.finite z)).toBigInt = .ok z := by
  rw [Value.toBigInt, if_pos (Rat.den_intCast z), Rat.num_intCast]

lemma Value.reads_of_toBigInt (h : v.toBigInt = .ok z) :
    ∃ x, v.toNumber = .ok x ∧ x.Reads z := by
  have hstr : ∀ s : String, Value.bigIntOfString s = .ok z → (stringToNumber s).Reads z := by
    intro s hs
    rw [Value.bigIntOfString] at hs
    split at hs
    next n hn =>
      cases hs
      exact reads_of_stringToBigInt hn
    next => cases hs
  cases v with
  | undefined => cases h
  | null => cases h
  | bool b =>
    cases h
    exact ⟨_, rfl, Or.inl (by cases b <;> rfl)⟩
  | num x =>
    cases x with
    | finite q =>
      rw [Value.toBigInt] at h
      split at h
      next hden =>
        cases h
        exact ⟨_, rfl, Or.inl (congrArg _ (Rat.den_eq_one_iff q |>.1 hden).symm)⟩
      next => cases h
    | _ => cases h
  | str s => exact ⟨_, rfl, hstr s h⟩
  | _ =>
    obtain ⟨s, hs, h⟩ := bind_eq_ok.1 h
    exact ⟨_, bind_eq_ok.2 ⟨s, hs, rfl⟩, hstr s h⟩

/-! ### Writing an integer -/

lemma isSpace_of_isDigit {c : Char} (h : c.isDigit = true) : isSpace c = false := by
  simp only [Char.isDigit, Bool.and_eq_true, decide_eq_true_eq, UInt32.le_iff_toNat_le] at h
  have hlo : 48 ≤ c.toNat := h.1
  have hhi : c.toNat ≤ 57 := h.2
  rw [isSpace, decide_eq_false_iff_not]
  simp only [List.mem_cons, List.not_mem_nil, or_false]
  omega

lemma trim_eq_self {cs : List Char} (h : ∀ c ∈ cs, isSpace c = false) : trim cs = cs := by
  have hdrop : ∀ l : List Char, (∀ c ∈ l, isSpace c = false) → l.dropWhile isSpace = l := by
    intro l hl
    cases l with
    | nil => rfl
    | cons c l => rw [List.dropWhile_cons, if_neg (by rw [hl c (List.mem_cons_self ..)]; simp)]
  rw [trim, hdrop cs h, hdrop _ fun c hc => h c (List.mem_reverse.1 hc), List.reverse_reverse]

lemma exists_digit {c : Char} (h : c.isDigit = true) : ∃ d < 10, c = Char.ofNat (48 + d) := by
  simp only [Char.isDigit, Bool.and_eq_true, decide_eq_true_eq, UInt32.le_iff_toNat_le] at h
  have hlo : 48 ≤ c.toNat := h.1
  have hhi : c.toNat ≤ 57 := h.2
  refine ⟨c.toNat - 48, by omega, ?_⟩
  rw [show 48 + (c.toNat - 48) = c.toNat by omega, Char.ofNat_toNat]

lemma prefixedLiteral_digits (h : ds.all Char.isDigit = true) : prefixedLiteral ds = none := by
  rw [prefixedLiteral.eq_def]
  split
  · next b r =>
    obtain ⟨d, hd, rfl⟩ := exists_digit (List.all_eq_true.1 h b (by simp))
    interval_cases d <;> rfl
  · rfl

lemma stringToBigInt_digits (hne : ds ≠ []) (h : ds.all Char.isDigit = true) :
    stringToBigInt (String.ofList ds) = some (ofDigits 10 ds : ℤ) ∧
      stringToBigInt (String.ofList ('-' :: ds)) = some (-(ofDigits 10 ds : ℤ)) := by
  have hspace : ∀ c ∈ ds, isSpace c = false := fun c hc =>
    isSpace_of_isDigit (List.all_eq_true.1 h c hc)
  constructor
  · rw [stringToBigInt, String.toList_ofList, trim_eq_self hspace]
    simp only [if_neg hne, prefixedLiteral_digits h]
    -- a text of digits has no sign
    split
    · simp at h
    · simp at h
    · rw [if_pos ⟨hne, h⟩, one_mul]
  · have hsigned : ∀ c ∈ '-' :: ds, isSpace c = false :=
      List.forall_mem_cons.2 ⟨by decide, hspace⟩
    rw [stringToBigInt, String.toList_ofList, trim_eq_self hsigned]
    show (if ds ≠ [] ∧ ds.all Char.isDigit = true then
      some (-1 * (ofDigits 10 ds : ℤ)) else none) = _
    rw [if_pos ⟨hne, h⟩, neg_one_mul]

lemma ofDigits_eq_ofDigitChars (h : ds.all Char.isDigit = true) (n : ℕ) :
    ds.foldl (fun n d => n * 10 + digitValue d) n = Nat.ofDigitChars 10 ds n := by
  induction ds generalizing n with
  | nil => rfl
  | cons c ds ih =>
    rw [List.all_cons, Bool.and_eq_true] at h
    rw [List.foldl_cons, Nat.ofDigitChars_cons, ih h.2, digitValue, if_pos h.1, Nat.mul_comm]

lemma all_isDigit_toDigits (n : ℕ) : (Nat.toDigits 10 n).all Char.isDigit = true :=
  List.all_eq_true.2 fun c hc => Nat.isDigit_of_mem_toDigits (by decide) (by decide) hc

lemma ofDigits_toDigits (n : ℕ) : ofDigits 10 (Nat.toDigits 10 n) = n := by
  rw [ofDigits, ofDigits_eq_ofDigitChars (all_isDigit_toDigits n),
    Nat.ofDigitChars_toDigits (by decide) (by decide)]

/-- Different numbers have different digits. -/
lemma toString_injective : Function.Injective (toString : ℕ → String) := by
  intro m n h
  have hdigits : Nat.toDigits 10 m = Nat.toDigits 10 n :=
    String.ofList_injective (Nat.repr_eq_ofList_toDigits.symm.trans
      (h.trans Nat.repr_eq_ofList_toDigits))
  rw [← ofDigits_toDigits m, hdigits, ofDigits_toDigits]

lemma toString_natCast (n : ℕ) : toString (n : ℤ) = String.ofList (Nat.toDigits 10 n) := by
  rw [Int.toString_eq_repr, Int.repr_eq_if, if_pos (Int.natCast_nonneg n), Int.toNat_natCast,
    Nat.repr_eq_ofList_toDigits]

lemma stringToBigInt_toString (z : ℤ) : stringToBigInt (toString z) = some z := by
  rw [Int.toString_eq_repr, Int.repr_eq_if]
  split
  · rw [Nat.repr_eq_ofList_toDigits,
      (stringToBigInt_digits Nat.toDigits_ne_nil (all_isDigit_toDigits _)).1, ofDigits_toDigits]
    exact congrArg some (Int.toNat_of_nonneg ‹_›)
  · have hneg : "-" ++ (-z).toNat.repr = String.ofList ('-' :: Nat.toDigits 10 (-z).toNat) := by
      rw [Nat.repr_eq_ofList_toDigits, ← String.toList_inj]
      simp
    rw [hneg, (stringToBigInt_digits Nat.toDigits_ne_nil (all_isDigit_toDigits _)).2,
      ofDigits_toDigits]
    congr 1
    omega

lemma bigIntOfString_toString (z : ℤ) : Value.bigIntOfString (toString z) = .ok z := by
  rw [Value.bigIntOfString, stringToBigInt_toString]

end

/-! ### The error of rounding -/

namespace Number

lemma abs_roundHalfEven_sub_le (q : ℚ) : |(roundHalfEven q : ℚ) - q| ≤ 1 / 2 := by
  have hfloor : (⌊q⌋ : ℚ) ≤ q := Int.floor_le q
  have hlt : q < ⌊q⌋ + 1 := Int.lt_floor_add_one q
  rw [abs_le]
  simp only [roundHalfEven]
  split_ifs <;> push_cast <;> constructor <;> linarith

lemma roundHalfEven_le (q : ℚ) : (roundHalfEven q : ℚ) ≤ q + 1 := by
  have := (abs_le.1 (abs_roundHalfEven_sub_le q)).2
  linarith

/-- Below `2 ^ k` the nearest double is at most `2 ^ (k - 54)` away. -/
lemma exists_round {q : ℚ} {k : ℕ} (hpos : 0 < q) (hk : k ≤ 53) (hlt : q < 2 ^ k) :
    ∃ r, round q = finite r ∧ |r - q| ≤ 2 ^ ((k : ℤ) - 54) := by
  have hlog : Int.log 2 |q| < k := by
    refine (Int.lt_zpow_iff_log_lt one_lt_two (abs_pos.2 hpos.ne')).1 ?_
    rw [abs_of_pos hpos]
    exact_mod_cast hlt
  obtain ⟨e, he, hround⟩ : ∃ e : ℤ, e ≤ k - 53 ∧ e = (Int.log 2 |q| - 52) ⊔ (-1074) :=
    ⟨_, by omega, rfl⟩
  have hscale : (0 : ℚ) < 2 ^ e := zpow_pos two_pos _
  have herror : |roundHalfEven (|q| / 2 ^ e) * (2 : ℚ) ^ e - q| ≤ 2 ^ ((k : ℤ) - 54) := by
    calc |roundHalfEven (|q| / 2 ^ e) * (2 : ℚ) ^ e - q|
      _ = |(roundHalfEven (|q| / 2 ^ e) : ℚ) - |q| / 2 ^ e| * 2 ^ e := by
        rw [← abs_of_pos hscale, ← abs_mul, abs_of_pos hscale, sub_mul,
          div_mul_cancel₀ _ hscale.ne', abs_of_pos hpos]
      _ ≤ 1 / 2 * 2 ^ e := mul_le_mul_of_nonneg_right (abs_roundHalfEven_sub_le _) hscale.le
      _ = 2 ^ (e - 1) := by rw [zpow_sub_one₀ two_ne_zero, one_div, mul_comm]
      _ ≤ 2 ^ ((k : ℤ) - 54) := zpow_le_zpow_right₀ one_le_two (by omega)
  have hsmall : ¬ (2 : ℚ) ^ 1024 ≤ roundHalfEven (|q| / 2 ^ e) * 2 ^ e := by
    have hbig : (2 : ℚ) ^ 54 ≤ 2 ^ 1024 := pow_le_pow_right₀ one_le_two (by norm_num)
    have hq : (2 : ℚ) ^ k ≤ 2 ^ 53 := pow_le_pow_right₀ one_le_two hk
    have hone : (2 : ℚ) ^ ((k : ℤ) - 54) ≤ 1 := zpow_le_one_of_nonpos₀ one_le_two (by omega)
    have := (abs_le.1 herror).2
    refine not_le.2 (lt_of_lt_of_le ?_ hbig)
    linarith
  refine ⟨_, ?_, herror⟩
  rw [round, if_neg hpos.ne', ← hround, if_neg hsmall, if_neg hpos.le.not_gt]

/-- Below 2^53 a positive number is rounded up by at most one. -/
lemma round_le_add_one {q : ℚ} (hpos : 0 < q) (hlt : q < 2 ^ 53) :
    ∃ r, round q = finite r ∧ r ≤ q + 1 := by
  obtain ⟨r, hr, herror⟩ := exists_round hpos le_rfl hlt
  have hhalf : (2 : ℚ) ^ (((53 : ℕ) : ℤ) - 54) ≤ 1 := by norm_num
  exact ⟨r, hr, by linarith [(abs_le.1 herror).2]⟩

/-- The quotient of a count of hundredths, rounded, exceeds an integer when the count does. -/
lemma finite_lt_hundredths {n : ℤ} (hn : 0 ≤ n) (hle : n ≤ 10000) (m : ℕ) :
    (finite m).lt ((round n).div (finite 100)) = decide (100 * (m : ℤ) < n) := by
  have hround : round (n : ℚ) = finite n := round_intCast (by rw [abs_lt]; omega)
  rw [hround, div, if_neg (by norm_num)]
  rcases hn.eq_or_lt with rfl | hpos
  · rw [Int.cast_zero, zero_div, round_zero, finite_lt_finite, decide_eq_decide]
    exact iff_of_false (not_lt.2 (Nat.cast_nonneg m)) (by omega)
  · have hq : (0 : ℚ) < n / 100 := by positivity
    have hlt : (n : ℚ) / 100 < 2 ^ 7 := by
      have : (n : ℚ) ≤ 10000 := by exact_mod_cast hle
      linarith
    obtain ⟨r, hr, herror⟩ := exists_round hq (by norm_num) hlt
    have hnear : |r - (n : ℚ) / 100| < 1 / 100 := lt_of_le_of_lt herror (by norm_num)
    rw [abs_lt] at hnear
    rw [hr, finite_lt_finite, decide_eq_decide]
    rcases lt_trichotomy (100 * (m : ℤ)) n with h | h | h
    · have hn : 100 * (m : ℚ) + 1 ≤ n := by exact_mod_cast h
      exact iff_of_true (by linarith) h
    · -- a quotient that is an integer is not rounded
      have hm : (n : ℚ) / 100 = ((m : ℤ) : ℚ) := by
        rw [← h]
        push_cast
        ring
      rw [hm, round_intCast (by rw [abs_lt]; omega)] at hr
      cases hr
      exact iff_of_false (by simp) (by omega)
    · have hn : (n : ℚ) + 1 ≤ 100 * m := by exact_mod_cast h
      exact iff_of_false (by linarith) (by omega)

/-! ### Writing a double that is an integer -/

/-- Rounded to fewer digits, an integer is the same double only if it is the same integer. -/
lemma eq_of_round_digits {n j : ℕ} (hn : n < 10 ^ 15) (hj : j ≤ 15)
    (h : round (roundHalfEven ((n : ℚ) / 10 ^ j) * (10 : ℚ) ^ j) = finite n) :
    roundHalfEven ((n : ℚ) / 10 ^ j) * 10 ^ j = n := by
  have hpow : (10 : ℚ) ^ j ≤ 10 ^ 15 := pow_le_pow_right₀ (by norm_num) hj
  have hpos : (0 : ℚ) < 10 ^ j := by positivity
  have hnonneg : 0 ≤ roundHalfEven ((n : ℚ) / 10 ^ j) :=
    (Int.floor_nonneg.2 (by positivity)).trans (floor_le_roundHalfEven _)
  have hle := roundHalfEven_le ((n : ℚ) / 10 ^ j)
  generalize roundHalfEven ((n : ℚ) / 10 ^ j) = s at h hle hnonneg ⊢
  have hbound : (s : ℚ) * 10 ^ j < 2 ^ 53 := by
    calc (s : ℚ) * 10 ^ j
      _ ≤ ((n : ℚ) / 10 ^ j + 1) * 10 ^ j := mul_le_mul_of_nonneg_right hle hpos.le
      _ = n + 10 ^ j := by field_simp
      _ < 2 ^ 53 := by
        have : (n : ℚ) < 10 ^ 15 := by exact_mod_cast hn
        linarith
  have hcast : (s : ℚ) * 10 ^ j = ((s * 10 ^ j : ℤ) : ℚ) := by push_cast; rfl
  rw [hcast] at hbound
  rw [hcast, round_intCast] at h
  · have := finite.inj h
    exact_mod_cast this
  · rw [abs_of_nonneg (by positivity)]
    exact_mod_cast hbound

/-- The digits of an integer, without some zeros at its end. -/
lemma shortestDigits_natCast {n d : ℕ} (hn : n < 10 ^ 15) (hd : d ≤ 15) (fuel k : ℕ) (hk : k ≤ d)
    (hfuel : d ≤ k + fuel) : ∃ s k' : ℕ, k' ≤ d ∧ s * 10 ^ (d - k') = n ∧
      shortestDigits n d k fuel = ((s : ℤ), k') := by
  have hexp : ∀ k ≤ d, (10 : ℚ) ^ ((d : ℤ) - (k : ℕ)) = 10 ^ (d - k) := fun k hk => by
    rw [← zpow_natCast, Nat.cast_sub hk]
  have hself : roundHalfEven ((n : ℚ) / 10 ^ (d - d)) = n := by
    rw [Nat.sub_self, pow_zero, div_one]
    exact_mod_cast roundHalfEven_intCast n
  induction fuel generalizing k with
  | zero =>
    obtain rfl : k = d := by omega
    exact ⟨n, k, le_rfl, by simp, by rw [shortestDigits, hexp k le_rfl, hself]⟩
  | succ fuel ih =>
    rw [shortestDigits, hexp k hk]
    split_ifs with hround
    · have heq := eq_of_round_digits hn (by omega) hround
      have hnonneg : 0 ≤ roundHalfEven ((n : ℚ) / 10 ^ (d - k)) :=
        (Int.floor_nonneg.2 (by positivity)).trans (floor_le_roundHalfEven _)
      obtain ⟨s, hs⟩ := Int.eq_ofNat_of_zero_le hnonneg
      rw [hs] at heq ⊢
      exact ⟨s, k, hk, by exact_mod_cast heq, rfl⟩
    · -- all the digits are enough
      have hne : k ≠ d := by
        rintro rfl
        refine hround ?_
        rw [hself, Nat.sub_self, pow_zero, mul_one]
        exact round_intCast (by rw [abs_of_nonneg (by positivity)]; omega)
      exact ih (k + 1) (by omega) (by omega)

end Number

/-- Powers of ten put zeros behind the digits. -/
lemma toDigits_mul_pow {s : ℕ} (hs : 0 < s) (j : ℕ) :
    Nat.toDigits 10 (s * 10 ^ j) = Nat.toDigits 10 s ++ List.replicate j '0' := by
  induction j with
  | zero => simp
  | succ j ih =>
    have hpos : 0 < s * 10 ^ j := by positivity
    have hstep : s * 10 ^ (j + 1) = 10 * (s * 10 ^ j) + 0 := by ring
    rw [hstep, ← Nat.toDigits_append_toDigits (by decide) hpos (by decide), ih,
      List.replicate_succ', List.append_assoc, Nat.toDigits_zero]

lemma positiveToString_natCast {n : ℕ} (hpos : 0 < n) (hn : n < 10 ^ 15) :
    Number.positiveToString n = String.ofList (Nat.toDigits 10 n) := by
  have hlog : Int.log 10 (n : ℚ) = Nat.log 10 n := Int.log_natCast 10 n
  have hd : Nat.log 10 n < 15 := Nat.log_lt_of_lt_pow hpos.ne' hn
  obtain ⟨s, k, hk, hs, hdigits⟩ := Number.shortestDigits_natCast (d := Nat.log 10 n + 1) hn
    (by omega) 16 1 (by omega) (by omega)
  have hspos : 0 < s := by
    rcases Nat.eq_zero_or_pos s with rfl | hspos
    · omega
    · exact hspos
  push_cast at hdigits
  have hzeros : ((Nat.log 10 n : ℤ) + 1 - k).toNat = Nat.log 10 n + 1 - k := by omega
  have hall : Nat.toDigits 10 n =
      Nat.toDigits 10 s ++ List.replicate (Nat.log 10 n + 1 - k) '0' := by
    rw [← toDigits_mul_pow hspos, hs]
  simp only [Number.positiveToString, hlog, hdigits, hzeros, toString_natCast]
  rw [if_pos (by omega), hall, String.ofList_append]

/-- The text of an integer below 10^15 is its decimal one. -/
lemma toStr_natCast {n : ℕ} (hn : n < 10 ^ 15) :
    Number.toStr (.finite n) = String.ofList (Nat.toDigits 10 n) := by
  rcases Nat.eq_zero_or_pos n with rfl | hpos
  · rfl
  · have hq : ¬ (n : ℚ) = 0 := by exact_mod_cast hpos.ne'
    have hneg : ¬ (n : ℚ) < 0 := not_lt.2 (Nat.cast_nonneg n)
    rw [Number.toStr, if_neg hq, if_neg hneg, positiveToString_natCast hpos hn]

lemma stringToBigInt_toStr {z : ℤ} (h : |z| < 10 ^ 15) :
    stringToBigInt (Number.toStr (.finite z)) = some z := by
  rcases lt_or_ge z 0 with hlt | hge
  · obtain ⟨n, rfl⟩ : ∃ n : ℕ, z = -n := ⟨z.natAbs, by omega⟩
    have hpos : 0 < n := by omega
    have hq : ¬ ((-(n : ℤ) : ℤ) : ℚ) = 0 := by exact_mod_cast hlt.ne
    have hneg : -((-(n : ℤ) : ℤ) : ℚ) = n := by push_cast; ring
    have htext : "-" ++ String.ofList (Nat.toDigits 10 n) =
        String.ofList ('-' :: Nat.toDigits 10 n) := by
      rw [← String.toList_inj]
      simp
    rw [Number.toStr, if_neg hq, if_pos (by exact_mod_cast hlt), hneg,
      positiveToString_natCast hpos (by simpa using h), htext,
      (stringToBigInt_digits Nat.toDigits_ne_nil (all_isDigit_toDigits n)).2, ofDigits_toDigits]
  · obtain ⟨n, rfl⟩ : ∃ n : ℕ, z = n := ⟨z.toNat, by omega⟩
    rw [Int.cast_natCast, toStr_natCast (by simpa using h),
      (stringToBigInt_digits Nat.toDigits_ne_nil (all_isDigit_toDigits n)).1, ofDigits_toDigits]

end Js
