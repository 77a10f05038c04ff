import ArwaAgent.Agent.Cycle
import ArwaAgent.Js.Decimal

/-!
# The text of a balance

`formatCep18Balance` writes an amount of motes, read by `BigInt`, as a decimal fraction of
the token.  The text is exact, so that no two amounts are written alike.
-/

namespace ArwaAgent

open Js

/-- The text stands for `m` units of which `10 ^ decimals` make a token, and has no zero at the
end of its fraction and no bare point. -/
structure Shows (s : String) (m decimals : ℕ) : Prop where
  exact : ∃ q, decimalValue s = some q ∧ q * 10 ^ decimals = m
  tight : TightPoint s

section

variable {motes s : String} {m m' decimals : ℕ}

lemma Shows.unique (h : Shows s m decimals) (h' : Shows s m' decimals) : m = m' := by
  obtain ⟨q, hq, hm⟩ := h.exact
  obtain ⟨q', hq', hm'⟩ := h'.exact
  rw [hq] at hq'
  cases hq'
  exact_mod_cast hm.symm.trans hm'

lemma shows_whole (whole decimals : ℕ) :
    Shows (toString (whole : ℤ)) (whole * 10 ^ decimals) decimals := by
  rw [toString_natCast]
  exact ⟨⟨whole, decimalValue_toDigits whole, by push_cast; rfl⟩,
    tightPoint_digits (all_isDigit_toDigits whole)⟩

lemma trimZeros_eq (cs : List Char) : trimZeros cs = cs.rdropWhile (· = '0') := rfl

lemma shows_fraction (whole : ℕ) {frac : ℕ} (hpos : 0 < frac) (hlt : frac < 10 ^ decimals) :
    Shows (toString (whole : ℤ) ++ "." ++ String.ofList (trimZeros
        (List.replicate (decimals - (toString (frac : ℤ)).toList.length) '0' ++
          (toString (frac : ℤ)).toList)))
      (whole * 10 ^ decimals + frac) decimals := by
  obtain ⟨ds, c, k, htrim, hc, hdigits, hlength, hvalue⟩ := exists_fraction hpos hlt
  have hwhole := all_isDigit_toDigits whole
  have hjoined : toString (whole : ℤ) ++ "." ++ String.ofList (trimZeros
        (List.replicate (decimals - (toString (frac : ℤ)).toList.length) '0' ++
          (toString (frac : ℤ)).toList)) =
        String.ofList (Nat.toDigits 10 whole ++ '.' :: (ds ++ [c])) := by
    rw [toString_natCast, toString_natCast, String.toList_ofList, trimZeros_eq, htrim,
      ← String.toList_inj]
    simp
  rw [hjoined]
  refine ⟨⟨_, decimalValue_point hwhole Nat.toDigits_ne_nil hdigits, ?_⟩,
    tightPoint_point hwhole Nat.toDigits_ne_nil hdigits hc⟩
  rw [ofDigits_append, ofDigits_toDigits, ← hlength, ← hvalue, zpow_neg, zpow_natCast]
  push_cast
  field_simp
  ring

lemma formatCep18Balance_shows (hm : Value.bigIntOfString motes = .ok m) (decimals : ℕ) :
    ∃ s, formatCep18Balance motes decimals = .ok s ∧ Shows s m decimals := by
  have hwhole : (m : ℤ).tdiv (10 ^ decimals) = ((m / 10 ^ decimals : ℕ) : ℤ) := by
    rw [Int.tdiv_eq_ediv_of_nonneg (Int.natCast_nonneg m)]
    push_cast
    rfl
  have hfrac : (m : ℤ).tmod (10 ^ decimals) = ((m % 10 ^ decimals : ℕ) : ℤ) := by
    rw [Int.tmod_eq_emod_of_nonneg (Int.natCast_nonneg m)]
    push_cast
    rfl
  have hsplit : m / 10 ^ decimals * 10 ^ decimals + m % 10 ^ decimals = m :=
    Nat.div_add_mod' m (10 ^ decimals)
  simp only [formatCep18Balance, hm, ok_bind, hwhole, hfrac, Int.natCast_eq_zero]
  split
  next hzero =>
    rw [hzero, Nat.add_zero] at hsplit
    refine ⟨_, rfl, ?_⟩
    rw [← hsplit, Nat.mul_div_cancel _ (by positivity)]
    exact shows_whole _ _
  next hpos =>
    refine ⟨_, rfl, ?_⟩
    have hshows := shows_fraction (m / 10 ^ decimals) (Nat.pos_of_ne_zero hpos)
      (Nat.mod_lt m (by positivity))
    rwa [hsplit] at hshows

/-- The shortcut of the cycle for the amount zero shows the same. -/
lemma displayBalance_eq (balance : String) :
    displayBalance balance = formatCep18Balance balance 9 := by
  rw [displayBalance]
  split
  next hzero =>
    subst hzero
    decide
  next => rfl

/-- An amount is shown exactly, without zeros at the end of its fraction and without a bare
point, and no other amount is shown by the same text. -/
theorem formatCep18Balance_exact (hm : Value.bigIntOfString motes = .ok m) (decimals : ℕ) :
    ∃ s, formatCep18Balance motes decimals = .ok s ∧ Shows s m decimals ∧
      ∀ motes' (m' : ℕ), Value.bigIntOfString motes' = .ok m' → m' ≠ m →
        formatCep18Balance motes' decimals ≠ .ok s := by
  obtain ⟨s, hs, hshows⟩ := formatCep18Balance_shows hm decimals
  refine ⟨s, hs, hshows, fun motes' m' hm' hne hsame => ?_⟩
  obtain ⟨s', hs', hshows'⟩ := formatCep18Balance_shows hm' decimals
  rw [hsame] at hs'
  cases hs'
  exact hne (hshows'.unique hshows)

theorem formatCep18Balance_exact_zeros_inside :
    formatCep18Balance "1000050000" 9 = .ok "1.00005" ∧
      ∃ s, formatCep18Balance "1000050000" 9 = .ok s ∧ Shows s 1000050000 9 ∧
        ∀ motes' (m' : ℕ), Value.bigIntOfString motes' = .ok m' → m' ≠ 1000050000 →
          formatCep18Balance motes' 9 ≠ .ok s :=
  ⟨by decide, formatCep18Balance_exact (m := 1000050000) (by decide) 9⟩

end

end ArwaAgent
