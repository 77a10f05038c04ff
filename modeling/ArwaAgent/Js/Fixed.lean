import Mathlib.Algebra.Order.Round
import ArwaAgent.Js.Decimal

/-!
# Decimals of a fixed length

`toFixed` writes the nearest decimal with so many digits after its point.  A quotient of integers
is rounded twice on the way, to a double and then to a decimal, and for integers below 2^53 the
first error is less than one unit of the dividend (`exists_div`), which the second does not make
visible (`exists_toFixed_div`).  A decimal that is not too long is read and written again as the same
text (`toFixed_stringToNumber`).
-/

namespace Js

/-- The decimal with `d` digits after its point of which the last counts `n` times. -/
def fixedText (negative : Bool) (n d : ℕ) : String :=
  (if negative then "-" else "") ++ toString (n / 10 ^ d) ++ "." ++
    String.ofList (List.replicate (d - (toString (n % 10 ^ d)).length) '0') ++
      toString (n % 10 ^ d)

/-- The decimal of an integral count. -/
def decimalText (k : ℤ) (d : ℕ) : String :=
  fixedText (k < 0) k.natAbs d

/-! ### The nearest integer -/

lemma abs_floor_add_half_sub_le (x : ℚ) : |(⌊x + 1 / 2⌋ : ℚ) - x| ≤ 1 / 2 := by
  rw [← round_eq, abs_sub_comm]
  exact abs_sub_round x

lemma floor_add_half_eq {x : ℚ} {z : ℤ} (h : |x - z| < 1 / 2) : ⌊x + 1 / 2⌋ = z := by
  rw [abs_lt] at h
  rw [Int.floor_eq_iff]
  constructor <;> linarith

namespace Number

variable {q r : ℚ} {m : ℤ} {B D d n : ℕ}

/-! ### Quotients -/

lemma round_neg (q : ℚ) : round (-q) = (round q).neg := by
  rcases eq_or_ne q 0 with rfl | hq
  · rw [neg_zero, round_zero]
    exact congrArg finite neg_zero.symm
  · have hsign : (-q < 0) ↔ ¬ q < 0 := by
      rw [neg_lt_zero, not_lt]
      exact ⟨le_of_lt, fun h => lt_of_le_of_ne h hq.symm⟩
    rw [round, round, if_neg (neg_ne_zero.2 hq), if_neg hq, abs_neg]
    by_cases hneg : q < 0
    · simp only [hsign, hneg, not_true, decide_true, decide_false, if_true, if_false]
      split_ifs
      · rfl
      · rw [neg, neg_neg]
    · simp only [hsign, hneg, not_false_iff, decide_true, decide_false, if_true, if_false]
      split_ifs <;> rfl

/-- The nearest double of a positive quotient, and how far it is from the quotient. -/
lemma exists_round_div (hm : 0 < n) (hn : n ≤ B) (hD : 0 < D) (hDB : D ≤ B) (hB : B < 2 ^ 53) :
    ∃ r, round (n / D) = finite r ∧ |r * D - n| * 2 ^ 53 ≤ B := by
  have hDpos : (0 : ℚ) < D := by exact_mod_cast hD
  have hq : (0 : ℚ) < n / D := div_pos (by exact_mod_cast hm) hDpos
  have hlog : ((n : ℚ) / D) < 2 ^ (Int.log 2 ((n : ℚ) / D) + 1) := by
    exact_mod_cast Int.lt_zpow_succ_log_self (b := 2) one_lt_two ((n : ℚ) / D)
  have hself : (2 : ℚ) ^ Int.log 2 ((n : ℚ) / D) ≤ n / D := by
    exact_mod_cast Int.zpow_log_le_self (b := 2) one_lt_two hq
  have hle : (n : ℚ) / D ≤ n := div_le_self (Nat.cast_nonneg n) (by exact_mod_cast hD)
  have hnB : (n : ℚ) ≤ B := by exact_mod_cast hn
  have hsmall : Int.log 2 ((n : ℚ) / D) < 53 := by
    refine (Int.lt_zpow_iff_log_lt one_lt_two hq).1 ?_
    have : (B : ℚ) < 2 ^ 53 := by exact_mod_cast hB
    exact_mod_cast (hle.trans hnB).trans_lt this
  generalize Int.log 2 ((n : ℚ) / D) = l at hlog hself hsmall
  -- the power of two above the quotient, and not below one
  obtain ⟨k, hk⟩ : ∃ k : ℕ, (k : ℤ) = (l + 1) ⊔ 0 := ⟨((l + 1) ⊔ 0).toNat, by omega⟩
  have hlt : (n : ℚ) / D < 2 ^ k := by
    refine hlog.trans_le ?_
    rw [← zpow_natCast]
    exact zpow_le_zpow_right₀ one_le_two (by omega)
  obtain ⟨r, hr, herror⟩ := exists_round hq (by omega) hlt
  refine ⟨r, hr, ?_⟩
  have hscaled : (2 : ℚ) ^ ((k : ℤ) - 1) * D ≤ B := by
    rcases le_total 0 l with hl | hl
    · rw [show (k : ℤ) - 1 = l by omega]
      exact (le_div_iff₀ hDpos).1 hself |>.trans hnB
    · have hhalf : (2 : ℚ) ^ ((k : ℤ) - 1) ≤ 1 := zpow_le_one_of_nonpos₀ one_le_two (by omega)
      have : (D : ℚ) ≤ B := by exact_mod_cast hDB
      exact (mul_le_of_le_one_left hDpos.le hhalf).trans this
  calc |r * D - n| * 2 ^ 53
    _ = |r - n / D| * D * 2 ^ 53 := by
      rw [← abs_of_pos hDpos, ← abs_mul, abs_of_pos hDpos, sub_mul, div_mul_cancel₀ _ hDpos.ne']
    _ ≤ 2 ^ ((k : ℤ) - 54) * D * 2 ^ 53 := by gcongr
    _ = 2 ^ ((k : ℤ) - 1) * D := by
      rw [mul_right_comm, ← zpow_natCast (2 : ℚ) 53, ← zpow_add₀ two_ne_zero]
      congr 2
      push_cast
      ring
    _ ≤ B := hscaled

/-- The quotient of two integers, and how far it is from the exact one. -/
lemma exists_div (hm : |m| ≤ B) (hD : 0 < D) (hDB : D ≤ B) (hB : B < 2 ^ 53) :
    ∃ r, (finite m).div (finite D) = finite r ∧ |r * D - m| * 2 ^ 53 ≤ B := by
  have hD0 : ¬ (D : ℚ) = 0 := by exact_mod_cast hD.ne'
  rw [div, if_neg hD0]
  obtain ⟨n, rfl | rfl⟩ := m.eq_nat_or_neg
  all_goals
    rcases Nat.eq_zero_or_pos n with rfl | hpos
    · exact ⟨0, by simp, by simp⟩
    obtain ⟨r, hr, herror⟩ := exists_round_div hpos (by simpa using hm) hD hDB hB
  · exact ⟨r, by exact_mod_cast hr, by exact_mod_cast herror⟩
  · have hopposite : -r * D - -(n : ℚ) = -(r * D - n) := by ring
    refine ⟨-r, ?_, ?_⟩
    · rw [Int.cast_neg, Int.cast_natCast, neg_div, round_neg, hr]
      rfl
    · rwa [Int.cast_neg, Int.cast_natCast, hopposite, abs_neg]

/-! ### Writing -/

lemma finiteToFixed_eq (hd : d ≠ 0) (q : ℚ) :
    finiteToFixed q d = fixedText (q < 0) ⌊|q| * 10 ^ d + 1 / 2⌋.toNat d := by
  rw [finiteToFixed, if_neg hd, fixedText]
  by_cases hq : q < 0 <;> simp [hq]

/-- What is written counts the last digit up to one half. -/
lemma exists_toFixed (hd : d ≠ 0) (hq : |q| < 10 ^ 21) :
    ∃ n : ℕ, (finite q).toFixed d = fixedText (q < 0) n d ∧ |(n : ℚ) - |q| * 10 ^ d| ≤ 1 / 2 := by
  have hnonneg : 0 ≤ ⌊|q| * 10 ^ d + 1 / 2⌋ := Int.floor_nonneg.2 (by positivity)
  obtain ⟨n, hn⟩ := Int.eq_ofNat_of_zero_le hnonneg
  refine ⟨n, ?_, ?_⟩
  · rw [toFixed, if_pos hq, finiteToFixed_eq hd, hn]
    rfl
  · have hnear := abs_floor_add_half_sub_le (|q| * 10 ^ d)
    rwa [hn] at hnear

/-- A double that is next to a count of the last digit is written as this count. -/
lemma toFixed_of_near (hd : d ≠ 0) (hq : |q| < 10 ^ 21) (h : |(|q| * 10 ^ d) - n| < 1 / 2) :
    (finite q).toFixed d = fixedText (q < 0) n d := by
  rw [toFixed, if_pos hq, finiteToFixed_eq hd, floor_add_half_eq (z := n) h]
  rfl

/-- A quotient is written as the decimal that is nearest to the exact one. -/
lemma exists_toFixed_div {u : ℕ} (hm : |m| < 2 ^ 53) (hd : d ≠ 0) (hu : 0 < u)
    (hD : 10 ^ d * (2 * u) < 2 ^ 53) : ∃ negative n,
    ((finite m).div (finite (10 ^ d * (2 * u) : ℕ))).toFixed d = fixedText negative n d ∧
      |(if negative then -(n : ℤ) else n) * (2 * u) - m| ≤ u := by
  have hpos : 0 < 10 ^ d * (2 * u) := by positivity
  obtain ⟨r, hr, herror⟩ := exists_div (B := 2 ^ 53 - 1) (m := m) (by omega) hpos (by omega)
    (by norm_num)
  have hnear : |r * (10 ^ d * (2 * u)) - m| < 1 := by
    push_cast at herror
    linarith
  have hsize : |r| < 10 ^ 21 := by
    have hone : (1 : ℚ) ≤ 10 ^ d * (2 * u) := by exact_mod_cast hpos
    have hmq : |(m : ℚ)| < 2 ^ 53 := by exact_mod_cast hm
    calc |r| ≤ |r| * (10 ^ d * (2 * u)) := le_mul_of_one_le_right (abs_nonneg r) hone
      _ = |r * (10 ^ d * (2 * u))| := by rw [abs_mul, abs_of_pos (one_pos.trans_le hone)]
      _ ≤ |r * (10 ^ d * (2 * u)) - m| + |(m : ℚ)| := by
        simpa using abs_add_le (r * (10 ^ d * (2 * u)) - m) (m : ℚ)
      _ < 10 ^ 21 := by linarith
  obtain ⟨n, htext, hn⟩ := exists_toFixed hd hsize
  refine ⟨r < 0, n, by rw [hr, htext], ?_⟩
  -- the count with its sign, which is that of the double
  have hcount : |((if r < 0 then -(n : ℤ) else n : ℤ) : ℚ) - r * 10 ^ d| ≤ 1 / 2 := by
    split_ifs with hneg
    · rw [abs_of_neg hneg] at hn
      rw [← abs_neg]
      convert hn using 2
      push_cast
      ring
    · rw [abs_of_nonneg (not_lt.1 hneg)] at hn
      exact_mod_cast hn
  simp only [decide_eq_true_eq]
  generalize (if r < 0 then -(n : ℤ) else n : ℤ) = k at hcount
  have hunits : |((k * (2 * u) - m : ℤ) : ℚ)| < u + 1 := by
    have huq : (0 : ℚ) < 2 * u := by positivity
    calc |((k * (2 * u) - m : ℤ) : ℚ)|
      _ = |(k - r * 10 ^ d) * (2 * u) + (r * (10 ^ d * (2 * u)) - m)| := by
        push_cast
        ring_nf
      _ ≤ |(k - r * 10 ^ d) * (2 * u)| + |r * (10 ^ d * (2 * u)) - m| := abs_add_le _ _
      _ < 1 / 2 * (2 * u) + 1 := by
        rw [abs_mul, abs_of_pos huq]
        exact add_lt_add_of_le_of_lt (mul_le_mul_of_nonneg_right hcount huq.le) hnear
      _ = u + 1 := by ring
  have : |k * (2 * u) - m| < (u : ℤ) + 1 := by exact_mod_cast hunits
  omega

end Number

/-! ### Reading -/

section

variable {negative : Bool} {n d : ℕ}

/-- The digits of a decimal: of the whole, and of the fraction with the zeros before it. -/
lemma exists_digits (negative : Bool) (n : ℕ) (hd : 0 < d) : ∃ ws fs : List Char,
    (fixedText negative n d).toList = (if negative then ['-'] else []) ++ (ws ++ '.' :: fs) ∧
      ws = Nat.toDigits 10 (n / 10 ^ d) ∧ fs.all Char.isDigit = true ∧ fs.length = d ∧
        ofDigits 10 (ws ++ fs) = n := by
  have hlt : n % 10 ^ d < 10 ^ d := Nat.mod_lt n (by positivity)
  have hlength : (Nat.toDigits 10 (n % 10 ^ d)).length ≤ d :=
    (Nat.length_toDigits_le_iff (by decide) hd).2 hlt
  refine ⟨Nat.toDigits 10 (n / 10 ^ d),
    List.replicate (d - (Nat.toDigits 10 (n % 10 ^ d)).length) '0' ++ Nat.toDigits 10 (n % 10 ^ d),
    ?_, rfl, ?_, ?_, ?_⟩
  · cases negative <;> simp [fixedText, ← String.length_toList]
  · rw [List.all_append, all_isDigit_toDigits, Bool.and_true]
    exact List.all_eq_true.2 fun c hc => (List.eq_of_mem_replicate hc) ▸ rfl
  · rw [List.length_append, List.length_replicate]
    omega
  · rw [ofDigits_append, ofDigits_zeros_append, ofDigits_toDigits, ofDigits_toDigits,
      List.length_append, List.length_replicate, Nat.sub_add_cancel hlength]
    exact Nat.div_add_mod' n (10 ^ d)

lemma prefixedLiteral_point {cs : List Char} (h : ∀ c ∈ cs, c.isDigit = true ∨ c = '.') :
    prefixedLiteral cs = none := by
  rw [prefixedLiteral.eq_def]
  split
  · next b r =>
    rcases h b (by simp) with hb | rfl
    · obtain ⟨d, hd, rfl⟩ := exists_digit hb
      interval_cases d <;> rfl
    · rfl
  · rfl

lemma stringToNumber_fixedText (negative : Bool) (n : ℕ) (hd : 0 < d) :
    stringToNumber (fixedText negative n d) =
      Number.round (if negative then -((n : ℚ) / 10 ^ d) else n / 10 ^ d) := by
  obtain ⟨ws, fs, htext, rfl, hfs, hlength, hvalue⟩ := exists_digits negative n hd
  have hws := all_isDigit_toDigits (n / 10 ^ d)
  have hne : Nat.toDigits 10 (n / 10 ^ d) ≠ [] := Nat.toDigits_ne_nil
  generalize Nat.toDigits 10 (n / 10 ^ d) = ws at htext hws hne hvalue
  have hchars : ∀ c ∈ ws ++ '.' :: fs, c.isDigit = true ∨ c = '.' := by
    intro c hc
    rcases List.mem_append.1 hc with hc | hc
    · exact .inl (List.all_eq_true.1 hws c hc)
    · rcases List.mem_cons.1 hc with rfl | hc
      · exact .inr rfl
      · exact .inl (List.all_eq_true.1 hfs c hc)
  have hspace : ∀ c ∈ ws ++ '.' :: fs, isSpace c = false := by
    intro c hc
    rcases hchars c hc with hc | rfl
    · exact isSpace_of_isDigit hc
    · decide
  have hinfinity : ¬ "Infinity".toList.isPrefixOf (ws ++ '.' :: fs) = true := by
    intro hpre
    have hmem := (List.isPrefixOf_iff_prefix.1 hpre).subset (by decide : 'I' ∈ "Infinity".toList)
    rcases hchars _ hmem with h | h <;> revert h <;> decide
  have hdecimal : decimalPrefix (ws ++ '.' :: fs) = some ((n : ℚ) / 10 ^ d, []) := by
    rw [decimalPrefix_point hws hne hfs, hvalue, hlength, zpow_neg, zpow_natCast, div_eq_mul_inv]
  have hnil : ws ++ '.' :: fs ≠ [] := by simp
  generalize ws ++ '.' :: fs = cs at hchars hspace hinfinity hdecimal htext hnil
  cases negative with
  | true =>
    have hsigned : ∀ c ∈ '-' :: cs, isSpace c = false := List.forall_mem_cons.2 ⟨by decide, hspace⟩
    have hread : signedPrefix ('-' :: cs) = some (Number.round (-((n : ℚ) / 10 ^ d)), []) := by
      show (if "Infinity".toList.isPrefixOf cs = true then _ else (decimalPrefix cs).map _) = _
      rw [if_neg hinfinity, hdecimal]
      rfl
    rw [if_pos rfl, List.singleton_append] at htext
    rw [stringToNumber, htext, trim_eq_self hsigned]
    simp only [hread]
    rfl
  | false =>
    have hread : signedPrefix cs = some (Number.round ((n : ℚ) / 10 ^ d), []) := by
      simp only [signedPrefix]
      split
      · exact absurd (hchars '-' List.mem_cons_self) (by decide)
      · exact absurd (hchars '+' List.mem_cons_self) (by decide)
      · rw [if_neg hinfinity, hdecimal]
        rfl
    rw [if_neg (by decide), List.nil_append] at htext
    rw [stringToNumber, htext, trim_eq_self hspace]
    simp only [prefixedLiteral_point hchars, hread, if_neg hnil]
    rfl

/-- A decimal that is read and written again is the same, but for the sign of a zero. -/
lemma toFixed_stringToNumber (negative : Bool) (hn : n < 2 ^ 52) (hd : 0 < d) (hD : 10 ^ d < 2 ^ 52) :
    (stringToNumber (fixedText negative n d)).toFixed d =
      decimalText (if negative then -(n : ℤ) else n) d := by
  obtain ⟨m, hm⟩ : ∃ m : ℤ, m = if negative then -(n : ℤ) else n := ⟨_, rfl⟩
  have habs : |m| = n := by
    rw [hm]
    split_ifs <;> simp
  have hread : stringToNumber (fixedText negative n d) =
      (Number.finite m).div (.finite (10 ^ d : ℕ)) := by
    have hD0 : ¬ ((10 ^ d : ℕ) : ℚ) = 0 := by positivity
    rw [stringToNumber_fixedText negative n hd, Number.div, if_neg hD0, hm]
    cases negative
    · simp
    · simp [neg_div]
  obtain ⟨r, hr, herror⟩ := Number.exists_div (B := 2 ^ 52 - 1) (m := m) (by omega)
    (by positivity : 0 < 10 ^ d) (by omega) (by norm_num)
  have hnear : |r * 10 ^ d - m| < 1 / 2 := by
    push_cast at herror
    linarith
  have hpow : (0 : ℚ) < 10 ^ d := by positivity
  have hcount : |(|r| * 10 ^ d) - n| < 1 / 2 := by
    have hm' : |(m : ℚ)| = n := by exact_mod_cast habs
    rw [← hm', ← abs_of_pos hpow, ← abs_mul]
    exact (abs_abs_sub_abs_le _ _).trans_lt hnear
  have hsize : |r| < 10 ^ 21 := by
    have hone : (1 : ℚ) ≤ 10 ^ d := one_le_pow₀ (by norm_num)
    have hle : |r| ≤ |r| * 10 ^ d := le_mul_of_one_le_right (abs_nonneg r) hone
    have hnq : (n : ℚ) < 2 ^ 52 := by exact_mod_cast hn
    linarith [(abs_lt.1 hcount).2]
  have hsign : r < 0 ↔ m < 0 := by
    rw [abs_lt] at hnear
    rcases lt_trichotomy m 0 with hneg | rfl | hpos
    · have hmq : (m : ℚ) ≤ -1 := by exact_mod_cast Int.le_sub_one_of_lt hneg
      exact iff_of_true (neg_of_mul_neg_left (by linarith) hpow.le) hneg
    · have hzero : r = 0 := by
        rw [Int.cast_zero, Number.div, if_neg (by positivity), zero_div, Number.round_zero] at hr
        exact (Number.finite.inj hr).symm
      simp [hzero]
    · have hmq : (1 : ℚ) ≤ m := by exact_mod_cast hpos
      exact iff_of_false (not_lt.2 (pos_of_mul_pos_left (by linarith) hpow.le).le) hpos.not_gt
  rw [hread, hr, Number.toFixed_of_near hd.ne' hsize hcount, decimalText, ← hm]
  congr 1
  · exact decide_eq_decide.2 hsign
  · omega

end

end Js
