import Mathlib.Order.WithBot
import ArwaAgent.Js.Integers

/-!
# Comparing numbers

Numbers other than NaN are ordered by `value`, with the infinities at the two ends.  A finite
double is a multiple of 2^-1074, and so is a difference of two: unless it is zero, it is not
rounded to zero.  So code that compares two doubles by the sign of their difference compares
their values (`zero_lt_sub`).  Rounding keeps the order too: what lies between two integers
below 2^53 is rounded to what lies between them (`round_between`).
-/

namespace Js

namespace Number

/-- `x <= y`, which is false as soon as one side is NaN. -/
def le : Number → Number → Bool
  | nan, _ | _, nan => false
  | infinity a, infinity b => a || !b
  | infinity a, finite _ => a
  | finite _, infinity b => !b
  | finite p, finite q => p ≤ q

/-- Where a number stands in the order; NaN stands nowhere, and is put at the lower end. -/
def value : Number → WithBot (WithTop ℚ)
  | nan => ⊥
  | infinity negative => if negative then ⊥ else (⊤ : WithTop ℚ)
  | finite q => (q : WithTop ℚ)

/-- NaN, an infinity or a multiple of 2^-1074. -/
def IsDouble : Number → Prop
  | finite q => ∃ k : ℤ, q = k * 2 ^ (-1074 : ℤ)
  | _ => True

section

variable {x y : Number} {q : ℚ} {a b z : ℤ}

@[simp] lemma finite_le_finite (p q : ℚ) : (finite p).le (finite q) = decide (p ≤ q) := rfl

lemma lt_iff_value (hx : x ≠ nan) (hy : y ≠ nan) : x.lt y = true ↔ x.value < y.value := by
  rcases x with _ | (_ | _) | p <;> rcases y with _ | (_ | _) | q <;>
    simp_all [lt, value, -WithBot.coe_top]

lemma le_iff_value (hx : x ≠ nan) (hy : y ≠ nan) : x.le y = true ↔ x.value ≤ y.value := by
  rcases x with _ | (_ | _) | p <;> rcases y with _ | (_ | _) | q <;>
    simp_all [le, value, -WithBot.coe_top]

/-! ### Differences -/

lemma roundHalfEven_nonneg (h : 0 ≤ q) : 0 ≤ roundHalfEven q :=
  (Int.floor_nonneg.2 h).trans (floor_le_roundHalfEven q)

lemma one_le_roundHalfEven (h : 1 ≤ q) : 1 ≤ roundHalfEven q :=
  (Int.le_floor.2 (by simpa using h)).trans (floor_le_roundHalfEven q)

/-- Rounding to a double, from the integer that counts units of the last bit. -/
lemma round_eq (hq : q ≠ 0) : ∃ e : ℤ, -1074 ≤ e ∧ ((2 : ℚ) ^ (-1074 : ℤ) ≤ |q| → 2 ^ e ≤ |q|) ∧
    round q = if 2 ^ 1024 ≤ roundHalfEven (|q| / 2 ^ e) * (2 : ℚ) ^ e then infinity (q < 0)
      else finite (if q < 0 then -(roundHalfEven (|q| / 2 ^ e) * (2 : ℚ) ^ e)
        else roundHalfEven (|q| / 2 ^ e) * (2 : ℚ) ^ e) := by
  refine ⟨(Int.log 2 |q| - 52) ⊔ (-1074), le_sup_right, fun hle => ?_, if_neg hq⟩
  rcases max_choice (Int.log 2 |q| - 52) (-1074) with h | h <;> rw [h]
  · have hlog : (2 : ℚ) ^ (Int.log 2 |q|) ≤ |q| := by
      exact_mod_cast Int.zpow_log_le_self one_lt_two (abs_pos.2 hq)
    exact (zpow_le_zpow_right₀ one_le_two (sub_le_self _ (by norm_num))).trans hlog
  · exact hle

/-- What is at least the least positive double is not rounded to zero. -/
lemma zero_lt_round (h : q = 0 ∨ 2 ^ (-1074 : ℤ) ≤ |q|) :
    (finite 0).lt (round q) = true ↔ 0 < q := by
  rcases eq_or_ne q 0 with rfl | hq
  · simp
  · obtain ⟨e, -, hscale, hround⟩ := round_eq hq
    have hunit : (0 : ℚ) < 2 ^ e := zpow_pos two_pos e
    rw [hround]
    rcases hq.lt_or_gt with hneg | hpos
    · have hnonneg : (0 : ℚ) ≤ roundHalfEven (|q| / 2 ^ e) := by
        exact_mod_cast roundHalfEven_nonneg (div_nonneg (abs_nonneg q) hunit.le)
      simp only [hneg, hneg.not_gt, decide_true, if_true, iff_false]
      split_ifs
      · exact Bool.false_ne_true
      · simpa using mul_nonneg hnonneg hunit.le
    · have hone : (1 : ℚ) ≤ roundHalfEven (|q| / 2 ^ e) := by
        exact_mod_cast one_le_roundHalfEven ((one_le_div₀ hunit).2 (hscale (h.resolve_left hq)))
      simp only [hpos, hpos.not_gt, decide_false, if_false, iff_true]
      split_ifs
      · rfl
      · simpa using mul_pos (one_pos.trans_le hone) hunit

lemma pow_le_round {m : ℕ} (h : 2 ^ m ≤ q) :
    round q = infinity false ∨ ∃ r : ℚ, round q = finite r ∧ 2 ^ m ≤ r := by
  have hpos : 0 < q := (by positivity : (0 : ℚ) < 2 ^ m).trans_le h
  have hlog : (m : ℤ) ≤ Int.log 2 |q| := by
    refine (Int.zpow_le_iff_le_log one_lt_two (abs_pos.2 hpos.ne')).1 ?_
    rw [abs_of_pos hpos]
    exact_mod_cast h
  have hself : (2 : ℚ) ^ Int.log 2 |q| ≤ |q| := by
    exact_mod_cast Int.zpow_log_le_self one_lt_two (abs_pos.2 hpos.ne')
  have hle : (2 : ℚ) ^ m ≤ roundHalfEven (|q| / 2 ^ (Int.log 2 |q| - 52)) *
      2 ^ (Int.log 2 |q| - 52) := by
    -- the significand has 53 bits
    have hscaled : ((2 ^ 52 : ℤ) : ℚ) ≤ |q| / 2 ^ (Int.log 2 |q| - 52) := by
      rw [le_div_iff₀ (zpow_pos two_pos _)]
      refine le_trans (le_of_eq ?_) hself
      rw [Int.cast_pow, Int.cast_ofNat, ← zpow_natCast, ← zpow_add₀ two_ne_zero]
      congr 1
      omega
    have hround : (2 : ℤ) ^ 52 ≤ roundHalfEven (|q| / 2 ^ (Int.log 2 |q| - 52)) :=
      (Int.le_floor.2 hscaled).trans (floor_le_roundHalfEven _)
    calc (2 : ℚ) ^ m = (2 : ℚ) ^ (m : ℤ) := (zpow_natCast 2 m).symm
      _ ≤ 2 ^ Int.log 2 |q| := zpow_le_zpow_right₀ one_le_two hlog
      _ = ((2 ^ 52 : ℤ) : ℚ) * 2 ^ (Int.log 2 |q| - 52) := by
        rw [Int.cast_pow, Int.cast_ofNat, ← zpow_natCast, ← zpow_add₀ two_ne_zero]
        congr 1
        omega
      _ ≤ _ := mul_le_mul_of_nonneg_right (by exact_mod_cast hround) (zpow_pos two_pos _).le
  have he : (Int.log 2 |q| - 52) ⊔ (-1074) = Int.log 2 |q| - 52 := by omega
  simp only [round, if_neg hpos.ne', he, hpos.not_gt, decide_false, if_false]
  split_ifs
  · exact Or.inl rfl
  · exact Or.inr ⟨_, rfl, hle⟩

lemma isDouble_round (q : ℚ) : (round q).IsDouble := by
  rcases eq_or_ne q 0 with rfl | hq
  · rw [round_zero]
    exact ⟨0, by simp⟩
  · obtain ⟨e, he, -, hround⟩ := round_eq hq
    obtain ⟨n, rfl⟩ : ∃ n : ℕ, e = n + -1074 := ⟨(e + 1074).toNat, by omega⟩
    have hunits : ∀ z : ℤ, (z : ℚ) * 2 ^ ((n : ℤ) + -1074) = (z * 2 ^ n : ℤ) * 2 ^ (-1074 : ℤ) := by
      intro z
      rw [zpow_add₀ two_ne_zero, zpow_natCast, Int.cast_mul, Int.cast_pow, Int.cast_ofNat, mul_assoc]
    rw [hround, hunits]
    split_ifs
    · trivial
    · exact ⟨_, by rw [← neg_mul, ← Int.cast_neg]⟩
    · exact ⟨_, rfl⟩

/-- Two doubles are compared by the sign of their difference. -/
lemma zero_lt_sub (hx : x.IsDouble) (hy : y.IsDouble) (hxn : x ≠ nan) (hyn : y ≠ nan) :
    (finite 0).lt (x.sub y) = true ↔ y.value < x.value := by
  rw [← lt_iff_value hyn hxn]
  rcases x with _ | a | p
  · exact absurd rfl hxn
  · rcases y with _ | b | q
    · exact absurd rfl hyn
    · cases a <;> cases b <;> simp [sub, lt]
    · simp [sub, lt]
  · rcases y with _ | b | q
    · exact absurd rfl hyn
    · simp [sub, lt]
    · obtain ⟨k, rfl⟩ := hx
      obtain ⟨l, rfl⟩ := hy
      rw [finite_lt_finite, decide_eq_true_eq, ← sub_pos]
      refine zero_lt_round ?_
      rw [← sub_mul, ← Int.cast_sub]
      rcases eq_or_ne (k - l) 0 with h | h
      · exact Or.inl (by rw [h, Int.cast_zero, zero_mul])
      · have hone : (1 : ℚ) ≤ |((k - l : ℤ) : ℚ)| := by exact_mod_cast Int.one_le_abs h
        rw [abs_mul, abs_of_pos (zpow_pos two_pos _ : (0 : ℚ) < 2 ^ (-1074 : ℤ))]
        exact Or.inr (le_mul_of_one_le_left (zpow_nonneg zero_le_two _) hone)

/-! ### Integers below 2^53 -/

lemma roundHalfEven_le_of_le (h : q ≤ z) : roundHalfEven q ≤ z := by
  rcases h.eq_or_lt with rfl | hlt
  · rw [roundHalfEven_intCast]
  · have hfloor : ⌊q⌋ < z := Int.floor_lt.2 hlt
    simp only [roundHalfEven]
    split_ifs <;> omega

lemma le_roundHalfEven_of_le (h : (z : ℚ) ≤ q) : z ≤ roundHalfEven q :=
  (Int.le_floor.2 h).trans (floor_le_roundHalfEven q)

/-- Rounding does not lead across an integer below 2^53. -/
lemma round_between (ha : 0 ≤ a) (hb : b < 2 ^ 53) (haq : (a : ℚ) ≤ q) (hqb : q ≤ b) :
    ∃ r, round q = finite r ∧ (a : ℚ) ≤ r ∧ r ≤ b := by
  have haq' : (0 : ℚ) ≤ a := by exact_mod_cast ha
  rcases (haq'.trans haq).eq_or_lt with rfl | hpos
  · exact ⟨0, round_zero, haq, hqb⟩
  · have hb53 : (b : ℚ) < 2 ^ 53 := by exact_mod_cast hb
    have hlog : Int.log 2 |q| < 53 := by
      refine (Int.lt_zpow_iff_log_lt one_lt_two (abs_pos.2 hpos.ne')).1 ?_
      rw [abs_of_pos hpos]
      exact_mod_cast hqb.trans_lt hb53
    -- the last bit counts a fraction of one
    obtain ⟨n, hn⟩ : ∃ n : ℕ, (Int.log 2 |q| - 52) ⊔ (-1074) = -(n : ℤ) :=
      ⟨(-((Int.log 2 |q| - 52) ⊔ (-1074))).toNat, by omega⟩
    have hscale : (0 : ℚ) < 2 ^ n := by positivity
    have hunits : ∀ r : ℚ, r / 2 ^ (-(n : ℤ)) = r * 2 ^ n := fun r => by
      rw [zpow_neg, zpow_natCast, div_inv_eq_mul]
    have hle : (a * 2 ^ n : ℤ) ≤ roundHalfEven (q * 2 ^ n) := by
      refine le_roundHalfEven_of_le ?_
      push_cast
      exact mul_le_mul_of_nonneg_right haq hscale.le
    have hge : roundHalfEven (q * 2 ^ n) ≤ (b * 2 ^ n : ℤ) := by
      refine roundHalfEven_le_of_le ?_
      push_cast
      exact mul_le_mul_of_nonneg_right hqb hscale.le
    have hback : ∀ z : ℤ, ((z * 2 ^ n : ℤ) : ℚ) * 2 ^ (-(n : ℤ)) = z := fun z => by
      push_cast
      rw [zpow_neg, zpow_natCast, mul_assoc, mul_inv_cancel₀ hscale.ne', mul_one]
    have hpow : (0 : ℚ) ≤ 2 ^ (-(n : ℤ)) := (zpow_pos two_pos _).le
    have hlow : (a : ℚ) ≤ roundHalfEven (q * 2 ^ n) * 2 ^ (-(n : ℤ)) := by
      rw [← hback a]
      exact mul_le_mul_of_nonneg_right (by exact_mod_cast hle) hpow
    have hhigh : roundHalfEven (q * 2 ^ n) * 2 ^ (-(n : ℤ)) ≤ (b : ℚ) := by
      rw [← hback b]
      exact mul_le_mul_of_nonneg_right (by exact_mod_cast hge) hpow
    refine ⟨_, ?_, hlow, hhigh⟩
    have hsmall : ¬ (2 : ℚ) ^ 1024 ≤ roundHalfEven (q * 2 ^ n) * 2 ^ (-(n : ℤ)) := by
      have hbig : (2 : ℚ) ^ 53 ≤ 2 ^ 1024 := pow_le_pow_right₀ one_le_two (by norm_num)
      exact not_le.2 ((hhigh.trans_lt hb53).trans_le hbig)
    rw [abs_of_pos hpos] at hn
    simp only [round, if_neg hpos.ne', abs_of_pos hpos, hn, hunits, if_neg hsmall, hpos.not_gt,
      if_false]

end

end Number

end Js
