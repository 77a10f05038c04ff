import ArwaAgent.Agent.Types
import Mathlib.Data.List.Infix

/-!
# Deciding on a strategy

The LLM with its deterministic fallback, and the heuristic of the analyst, which decides
without an LLM.  The two heuristics are kept apart, as they are in the source.
-/

namespace ArwaAgent

open Js Effects Effects.Code

/-- A strategy, without the confidence in it. -/
structure Choice where
  action : Value
  tokenOut : Value
  minAmountOut : Value
  rationale : Value

/-- A decision of the analyst. -/
structure Decision extends Choice where
  confidence : Value

/-- The regular expression `/higher|up|\+\d+%/i`, at the start of a string. -/
def bullishHere (s : List Char) : Bool :=
  let lower := s.map Char.toLower
  "higher".toList.isPrefixOf lower || "up".toList.isPrefixOf lower ||
    match s with
    | '+' :: r =>
      let (ds, rest) := r.span Char.isDigit
      ds ≠ [] && rest.head? = some '%'
    | _ => false

/-- Whether a forecast reads as bullish. -/
def signalBullish (forecast : Value) : Except Error Bool := do
  return (← forecast.toStr).toList.tails.any bullishHere

/-- The value of a string, for a method that only strings have. -/
def asString (v : Value) (method : String) : Except Error String :=
  match v with
  | .str s => .ok s
  | v => do
    let _ ← v.field method
    .error ⟨s!"{method} is not a function"⟩

/-- `parseFloat(priceImpact.replace('%', '')) || 0` -/
def priceImpactPct (priceImpact : Value) : Except Error Number := do
  let x := parseFloat (removeFirst (← asString priceImpact "replace") '%')
  return if x.truthy then x else .finite 0

/-- Subtract `pct` percent from an amount of motes. -/
def applySlippage (amount : Value) (pct : ℚ) : Except Error String := do
  let v ← amount.toBigInt
  return toString ((v * (10000 - ⌊pct * 100⌋)).tdiv 10000)

/-- The heuristic of the analyst: liquidity at a low impact and a bullish signal, else a
swap with a floor of half a percent below the quote. -/
def decideHeuristic (quote : Quote) (signal : Value) (tokenOut : Value) :
    Except Error Choice := do
  let piPct ← priceImpactPct quote.priceImpact
  let forecast ← signal.field "utilization_forecast"
  let bullish ← signalBullish forecast
  let impact ← quote.priceImpact.toStr
  if piPct.lt (.finite 1) && bullish then
    return {
      action := .str "add_liquidity"
      tokenOut := tokenOut
      minAmountOut := .str "0"
      rationale := .str s!"Low price impact ({impact}) + bullish signal ({← forecast.toStr}). Add liquidity to {quote.pair} to capture fees." }
  else
    return {
      action := .str "swap"
      tokenOut := tokenOut
      minAmountOut := .str (← applySlippage quote.amountOut (1 / 2))
      rationale := .str s!"Conservative swap to {← tokenOut.toStr} with 0.5% slippage protection. Price impact {impact}." }

/-- `Math.max(lo, Math.min(hi, n))` -/
def clamp (n : Value) (lo hi : Number) : Except Error Number := do
  return lo.max (hi.min (← n.toNumber))

/-- The fallback of the LLM. -/
def heuristicDecision (ctx : LLMContext) : Except Error Decision := do
  let piPct ← priceImpactPct ctx.quote.priceImpact
  let forecast ← ctx.signal.field "utilization_forecast"
  let bullish ← signalBullish forecast
  let impact ← ctx.quote.priceImpact.toStr
  let confidence ← ctx.signal.field "confidence"
  if piPct.lt (.finite 1) && bullish then
    return {
      action := .str "add_liquidity"
      tokenOut := .str "sCSPR"
      minAmountOut := .str "0"
      rationale := .str s!"Low price impact ({impact}) + bullish signal ({← forecast.toStr}). Add liquidity to capture fees."
      confidence := .num ((Number.finite 60).max (← (confidence.orElse (.num (.finite 70))).toNumber)) }
  else
    let amountOut ← (ctx.quote.amountOut.or (.str "0")).toBigInt
    return {
      action := .str "swap"
      tokenOut := .str "sCSPR"
      minAmountOut := .str (toString ((amountOut * (10000 - 50)).tdiv 10000))
      rationale := .str s!"Conservative swap to sCSPR with 0.5% slippage protection. Price impact {impact}."
      confidence := .num ((Number.finite 50).max
        ((← (confidence.orElse (.num (.finite 60))).toNumber).sub (.finite 10))) }

/-- The rationale of the heuristic is a text, and its confidence a number that is not below
the gate. -/
lemma heuristicDecision_fields {ctx : LLMContext} {d : Decision}
    (h : heuristicDecision ctx = .ok d) :
    ∃ c rationale, d.confidence = .num c ∧ d.rationale = .str rationale ∧
      c.lt (.finite 50) = false := by
  obtain ⟨piPct, -, h⟩ := bind_eq_ok.1 h
  obtain ⟨forecast, -, h⟩ := bind_eq_ok.1 h
  obtain ⟨bullish, -, h⟩ := bind_eq_ok.1 h
  obtain ⟨impact, -, h⟩ := bind_eq_ok.1 h
  obtain ⟨confidence, -, h⟩ := bind_eq_ok.1 h
  split at h
  · obtain ⟨text, -, h⟩ := bind_eq_ok.1 h
    obtain ⟨c, -, h⟩ := bind_eq_ok.1 h
    cases h
    exact ⟨_, _, rfl, rfl, Number.finite_max_lt (by norm_num) _⟩
  · obtain ⟨amountOut, -, h⟩ := bind_eq_ok.1 h
    obtain ⟨c, -, h⟩ := bind_eq_ok.1 h
    cases h
    exact ⟨_, _, rfl, rfl, Number.finite_max_lt (le_refl _) _⟩

/-- The answer of the LLM as a decision; it is not checked. -/
def ofLLMOutput (out : Value) : Decision where
  action := out.ownField "action"
  tokenOut := out.ownField "token_out"
  minAmountOut := out.ownField "min_amount_out"
  rationale := out.ownField "rationale"
  confidence := out.ownField "confidence"

/-- Ask the LLM, and fall back to the heuristic when it fails or answers nothing; `hold` is
read as a swap. -/
def decideStrategyWithLLM {L : Type} (ctx : LLMContext) : Agent L Decision := do
  -- a failed call leaves `null`, which is not truthy either
  let out ← tryCatch (ask (.callLLM ctx) id) fun _ => pure .null
  let d ← result (if out.truthy then .ok (ofLLMOutput out) else heuristicDecision ctx)
  return { d with action := if d.action.is "hold" then .str "swap" else d.action }

end ArwaAgent
