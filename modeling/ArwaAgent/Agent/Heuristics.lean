import ArwaAgent.Agent.Strategy
import ArwaAgent.Js.Integers

/-!
# The two heuristics

Both heuristics turn on one test of the price impact and the signal, `addsLiquidity`: if it
succeeds they add liquidity, else they swap with a floor half a percent below the quote.
They differ in the token, in the amount they read when there is none, and in the
confidence.
-/

namespace ArwaAgent

open Js

/-- A low price impact and a bullish signal. -/
def addsLiquidity (priceImpact signal : Value) : Except Error Bool := do
  let piPct ← priceImpactPct priceImpact
  let forecast ← signal.field "utilization_forecast"
  let bullish ← signalBullish forecast
  return piPct.lt (.finite 1) && bullish

/-- Half a percent less, towards zero. -/
def lessSlippage (n : ℤ) : ℤ := (n * 9950).tdiv 10000

/-! ### The floor -/

lemma floor_le_lessSlippage (n : ℤ) : n * 9950 / 10000 ≤ lessSlippage n := by
  rw [lessSlippage, Int.tdiv_eq_ediv]
  split_ifs <;> simp

lemma applySlippage_eq_ok {amount : Value} {minAmountOut : String} :
    applySlippage amount (1 / 2) = .ok minAmountOut ↔
      ∃ n, amount.toBigInt = .ok n ∧ minAmountOut = toString (lessSlippage n) := by
  have hbps : (10000 - ⌊(1 / 2 : ℚ) * 100⌋ : ℤ) = 9950 := by norm_num
  rw [applySlippage, bind_eq_ok, hbps]
  refine exists_congr fun n => and_congr_right fun _ => ?_
  constructor
  · intro h
    cases h
    rfl
  · rintro rfl
    rfl

lemma toBigInt_toString (n : ℤ) : (Value.str (toString n)).toBigInt = .ok n :=
  bigIntOfString_toString n

/-- A value that reads as an integer reads as the same one with a default of zero. -/
lemma toBigInt_or_zero {v : Value} {n : ℤ} (h : v.toBigInt = .ok n) :
    (v.or (.str "0")).toBigInt = .ok n := by
  rw [Value.or]
  split
  · exact h
  · next hfalsy =>
    have hzero : (Value.str "0").toBigInt = .ok 0 := by decide
    rw [hzero]
    cases v with
    | undefined | null => cases h
    | bool b =>
      cases b with
      | true => exact absurd rfl hfalsy
      | false => exact h
    | num x =>
      cases x with
      | nan => cases h
      | infinity negative => exact absurd rfl hfalsy
      | finite q =>
        obtain rfl : q = 0 := by simpa [Value.truthy, Number.truthy] using hfalsy
        exact h
    | str s =>
      obtain rfl : s = "" := by simpa [Value.truthy] using hfalsy
      exact h
    | arr elems | obj fields => exact absurd rfl hfalsy

/-! ### The test -/

section

variable {quote : Quote} {signal tokenOut : Value} {ctx : LLMContext}

lemma toStr_of_priceImpactPct {priceImpact : Value} {piPct : Number}
    (h : priceImpactPct priceImpact = .ok piPct) : ∃ impact, priceImpact.toStr = .ok impact := by
  obtain ⟨impact, himpact, -⟩ := bind_eq_ok.1 h
  cases priceImpact with
  | str s => exact ⟨s, rfl⟩
  | _ =>
    obtain ⟨_, -, hthrown⟩ := bind_eq_ok.1 himpact
    cases hthrown

lemma addsLiquidity_eq_ok {priceImpact : Value} {adds : Bool} :
    addsLiquidity priceImpact signal = .ok adds ↔
      ∃ piPct, priceImpactPct priceImpact = .ok piPct ∧
        ∃ forecast, signal.field "utilization_forecast" = .ok forecast ∧
          ∃ bullish, signalBullish forecast = .ok bullish ∧
            adds = (piPct.lt (.finite 1) && bullish) := by
  rw [addsLiquidity, bind_eq_ok]
  refine exists_congr fun piPct => and_congr_right fun _ => ?_
  rw [bind_eq_ok]
  refine exists_congr fun forecast => and_congr_right fun _ => ?_
  rw [bind_eq_ok]
  refine exists_congr fun bullish => and_congr_right fun _ => ?_
  constructor
  · intro h
    cases h
    rfl
  · rintro rfl
    rfl

/-! ### The heuristic of the analyst -/

/-- The ways in which the heuristic of the analyst decides. -/
lemma decideHeuristic_eq_ok {h : Choice} (hh : decideHeuristic quote signal tokenOut = .ok h) :
    (addsLiquidity quote.priceImpact signal = .ok true ∧
        ∃ rationale, h = ⟨.str "add_liquidity", tokenOut, .str "0", rationale⟩) ∨
      (addsLiquidity quote.priceImpact signal = .ok false ∧ ∃ n token rationale,
        quote.amountOut.toBigInt = .ok n ∧ tokenOut.toStr = .ok token ∧
          h = ⟨.str "swap", tokenOut, .str (toString (lessSlippage n)), rationale⟩) := by
  obtain ⟨piPct, hpi, hh⟩ := bind_eq_ok.1 hh
  obtain ⟨forecast, hforecast, hh⟩ := bind_eq_ok.1 hh
  obtain ⟨bullish, hbullish, hh⟩ := bind_eq_ok.1 hh
  obtain ⟨impact, himpact, hh⟩ := bind_eq_ok.1 hh
  have hadds : addsLiquidity quote.priceImpact signal = .ok (piPct.lt (.finite 1) && bullish) :=
    addsLiquidity_eq_ok.2 ⟨piPct, hpi, forecast, hforecast, bullish, hbullish, rfl⟩
  rw [hadds]
  split at hh
  · next htest =>
    obtain ⟨text, -, hh⟩ := bind_eq_ok.1 hh
    cases hh
    exact Or.inl ⟨by rw [htest], _, rfl⟩
  · next htest =>
    obtain ⟨minAmountOut, hmin, hh⟩ := bind_eq_ok.1 hh
    obtain ⟨token, htoken, hh⟩ := bind_eq_ok.1 hh
    cases hh
    obtain ⟨n, hn, rfl⟩ := applySlippage_eq_ok.1 hmin
    rw [Bool.not_eq_true] at htest
    exact Or.inr ⟨by rw [htest], n, token, _, hn, htoken, rfl⟩

lemma decideHeuristic_adds (h : addsLiquidity quote.priceImpact signal = .ok true) :
    ∃ rationale, decideHeuristic quote signal tokenOut =
      .ok ⟨.str "add_liquidity", tokenOut, .str "0", rationale⟩ := by
  obtain ⟨piPct, hpi, forecast, hforecast, bullish, hbullish, htest⟩ := addsLiquidity_eq_ok.1 h
  obtain ⟨impact, himpact⟩ := toStr_of_priceImpactPct hpi
  obtain ⟨text, htext, -⟩ := bind_eq_ok.1 hbullish
  rw [decideHeuristic]
  simp only [hpi, hforecast, hbullish, himpact, htext, ok_bind, ← htest, if_true]
  exact ⟨_, rfl⟩

lemma decideHeuristic_swaps {n : ℤ} {token : String}
    (h : addsLiquidity quote.priceImpact signal = .ok false)
    (hn : quote.amountOut.toBigInt = .ok n) (htoken : tokenOut.toStr = .ok token) :
    ∃ rationale, decideHeuristic quote signal tokenOut =
      .ok ⟨.str "swap", tokenOut, .str (toString (lessSlippage n)), rationale⟩ := by
  obtain ⟨piPct, hpi, forecast, hforecast, bullish, hbullish, htest⟩ := addsLiquidity_eq_ok.1 h
  obtain ⟨impact, himpact⟩ := toStr_of_priceImpactPct hpi
  have hmin := applySlippage_eq_ok.2 ⟨n, hn, rfl⟩
  rw [decideHeuristic]
  simp only [hpi, hforecast, hbullish, himpact, hmin, htoken, ok_bind, ← htest,
    Bool.false_eq_true, if_false]
  exact ⟨_, rfl⟩

/-! ### The fallback of the LLM -/

lemma heuristicDecision_eq_ok {d : Decision} (hd : heuristicDecision ctx = .ok d) :
    (addsLiquidity ctx.quote.priceImpact ctx.signal = .ok true ∧ ∃ rationale c,
        ((ctx.signal.ownField "confidence").orElse (.num (.finite 70))).toNumber = .ok c ∧
          d = ⟨⟨.str "add_liquidity", .str "sCSPR", .str "0", rationale⟩,
            .num ((Number.finite 60).max c)⟩) ∨
      (addsLiquidity ctx.quote.priceImpact ctx.signal = .ok false ∧ ∃ n rationale c,
        (ctx.quote.amountOut.or (.str "0")).toBigInt = .ok n ∧
        ((ctx.signal.ownField "confidence").orElse (.num (.finite 60))).toNumber = .ok c ∧
          d = ⟨⟨.str "swap", .str "sCSPR", .str (toString (lessSlippage n)), rationale⟩,
            .num ((Number.finite 50).max (c.sub (.finite 10)))⟩) := by
  obtain ⟨piPct, hpi, hd⟩ := bind_eq_ok.1 hd
  obtain ⟨forecast, hforecast, hd⟩ := bind_eq_ok.1 hd
  obtain ⟨bullish, hbullish, hd⟩ := bind_eq_ok.1 hd
  obtain ⟨impact, himpact, hd⟩ := bind_eq_ok.1 hd
  obtain ⟨confidence, hconf, hd⟩ := bind_eq_ok.1 hd
  obtain rfl := Value.field_eq_ok hconf
  have hadds : addsLiquidity ctx.quote.priceImpact ctx.signal =
      .ok (piPct.lt (.finite 1) && bullish) :=
    addsLiquidity_eq_ok.2 ⟨piPct, hpi, forecast, hforecast, bullish, hbullish, rfl⟩
  rw [hadds]
  split at hd
  · next htest =>
    obtain ⟨text, -, hd⟩ := bind_eq_ok.1 hd
    obtain ⟨c, hc, hd⟩ := bind_eq_ok.1 hd
    cases hd
    exact Or.inl ⟨by rw [htest], _, c, hc, rfl⟩
  · next htest =>
    obtain ⟨n, hn, hd⟩ := bind_eq_ok.1 hd
    obtain ⟨c, hc, hd⟩ := bind_eq_ok.1 hd
    cases hd
    rw [Bool.not_eq_true] at htest
    exact Or.inr ⟨by rw [htest], n, _, c, hn, hc, rfl⟩

lemma heuristicDecision_adds {c : Number}
    (h : addsLiquidity ctx.quote.priceImpact ctx.signal = .ok true)
    (hc : ((ctx.signal.ownField "confidence").orElse (.num (.finite 70))).toNumber = .ok c) :
    ∃ rationale, heuristicDecision ctx =
      .ok ⟨⟨.str "add_liquidity", .str "sCSPR", .str "0", .str rationale⟩,
        .num ((Number.finite 60).max c)⟩ := by
  obtain ⟨piPct, hpi, forecast, hforecast, bullish, hbullish, htest⟩ := addsLiquidity_eq_ok.1 h
  obtain ⟨impact, himpact⟩ := toStr_of_priceImpactPct hpi
  obtain ⟨text, htext, -⟩ := bind_eq_ok.1 hbullish
  obtain ⟨confidence, hconf⟩ := Value.exists_field hforecast "confidence"
  obtain rfl := Value.field_eq_ok hconf
  rw [heuristicDecision]
  simp only [hpi, hforecast, hbullish, himpact, hconf, htext, hc, ok_bind, ← htest, if_true]
  exact ⟨_, rfl⟩

lemma heuristicDecision_swaps {n : ℤ} {c : Number}
    (h : addsLiquidity ctx.quote.priceImpact ctx.signal = .ok false)
    (hn : (ctx.quote.amountOut.or (.str "0")).toBigInt = .ok n)
    (hc : ((ctx.signal.ownField "confidence").orElse (.num (.finite 60))).toNumber = .ok c) :
    ∃ rationale, heuristicDecision ctx =
      .ok ⟨⟨.str "swap", .str "sCSPR", .str (toString (lessSlippage n)), .str rationale⟩,
        .num ((Number.finite 50).max (c.sub (.finite 10)))⟩ := by
  obtain ⟨piPct, hpi, forecast, hforecast, bullish, hbullish, htest⟩ := addsLiquidity_eq_ok.1 h
  obtain ⟨impact, himpact⟩ := toStr_of_priceImpactPct hpi
  obtain ⟨confidence, hconf⟩ := Value.exists_field hforecast "confidence"
  obtain rfl := Value.field_eq_ok hconf
  rw [heuristicDecision]
  simp only [hpi, hforecast, hbullish, himpact, hconf, hn, hc, ok_bind, ← htest,
    Bool.false_eq_true, if_false]
  exact ⟨_, rfl⟩

end

end ArwaAgent
