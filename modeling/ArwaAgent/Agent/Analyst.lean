import ArwaAgent.Agent.Strategy

/-!
# The analyst

From a revenue event to a strategy proposal: read the chain, stop at the circuit
breaker, quote, pay for the signal, decide, apply a forced action.  A `try` whose
handler only logs keeps the default it started from.
-/

namespace ArwaAgent

open Js Effects Effects.Code

/-- The input of the analyst. -/
structure AnalystInput where
  revenueEvent : RevenueEvent
  ownerAddress : String
  signalEndpoint : String
  signalPriceMotes : String
  forceHeuristic : Bool
  forceAction : Value

/-- The proposal of a cycle that the breaker holds. -/
def buildHoldProposal (revenueEvent : RevenueEvent) (reason : String) : StrategyProposal where
  action := .str "swap"
  pair := "HOLD"
  tokenIn := "CSPR"
  tokenOut := .str "CSPR"
  amountIn := "0"
  minAmountOut := .str "0"
  rationale := .str s!"[HOLD] {reason}"
  confidence := .num (.finite 0)
  x402Proof := none
  revenueEvent := revenueEvent
  validatorPubKey := none

section

variable {L : Type} (cfg : Config) (input : AnalystInput)

/-- Step 2: the state of the vault, which only the log shows. -/
def readVault : Agent L Unit :=
  if cfg.agentVaultContractHash.getD "" ≠ "" then
    tryCatch (ask .getVaultOverview id) fun _ => pure ()
  else pure ()

/-- Step 3: the recent events. -/
def readRecentEvents : Agent L Value :=
  if cfg.revenueEmitterContractHash.getD "" ≠ "" then
    tryCatch (ask (.getRecentRevenueEvents (cfg.revenueEmitterContractHash.getD "") 20) id)
      fun _ => pure (.arr [])
  else pure (.arr [])

/-- Steps 1 to 3: the balance of the agent, the vault and the recent events.  Only the
balance is used. -/
def readChain : Agent L Value := do
  let keys ← ask .getAgentKeys id
  let account ← tryCatch (ask (.getAccountInfo keys.publicKey) id) fun _ => pure (.str "0")
  readVault cfg
  let recent ← readRecentEvents cfg
  -- the log line counts the events, which fails when there is no list
  let _ ← result (recent.field "length")
  return account

/-- What the decision is based on. -/
structure Market where
  selectedTokenOut : Value
  quote : Quote
  portfolio : Value
  signal : Value
  x402Proof : Option X402Proof

/-- Steps 4b to 6: the pair, its quote, the portfolio, and the paid signal. -/
def readMarket : Agent L Market := do
  let amountIn := input.revenueEvent.amount
  let sel ← tryCatch (ask (.selectBestPair amountIn) id) fun _ => pure none
  let selectedTokenOut := (sel.map (·.tokenOut)).getD (.str "sCSPR")
  let now ← ask .dateNow .ok
  let quote ← tryCatch (ask (.getQuote "CSPR" selectedTokenOut amountIn) id) fun _ => pure
    { amountOut := .str amountIn
      priceImpact := .str "0%"
      pair := (sel.map (·.pair)).getD "CSPR/sCSPR"
      expiresAt := now + 60000 }
  let portfolio ← tryCatch (ask (.getPortfolioValue input.ownerAddress) id) fun _ =>
    pure (.obj [("total", .str "0"), ("breakdown", .arr [])])
  let paid ← ask (.payAndFetchViaX402 input.signalEndpoint input.signalPriceMotes) id
  -- the log line reads both fields of the signal, which fails when there is no body
  let _ ← result ((← result (paid.data.field "utilization_forecast")).toStr)
  let _ ← result (((← result (paid.data.field "confidence")).orElse (.str "?")).toStr)
  return ⟨selectedTokenOut, quote, portfolio, paid.data, paid.proof⟩

/-- Step 7: the heuristic when there is no LLM, else the LLM. -/
def decideStrategy (account : Value) (m : Market) : Agent L Decision := do
  if input.forceHeuristic || cfg.llmApiKey.getD "" = "" then
    let h ← result (decideHeuristic m.quote m.signal m.selectedTokenOut)
    let confidence ← result (m.signal.field "confidence")
    let c ← result (clamp (confidence.orElse (.num (.finite 0))) (.finite 0) (.finite 100))
    return { h with confidence := .num c }
  else
    let d ← decideStrategyWithLLM
      ⟨account, m.quote, m.signal, m.portfolio, input.revenueEvent⟩
    return { d with rationale := .str ("[LLM] " ++ (← result d.rationale.toStr)) }

/-- `Math.max(decision.confidence ?? 60, 60)` -/
def forcedConfidence (d : Decision) : Except Error Value := do
  return .num ((← (d.confidence.orElse (.num (.finite 60))).toNumber).max (.finite 60))

/-- Step 8: the forced action of the dashboard, with the amount and the pair label it leaves. -/
def applyForceAction (m : Market) (d : Decision) : Except Error (Decision × String × String) := do
  let amountIn := input.revenueEvent.amount
  if !input.forceAction.truthy then
    return (d, amountIn, m.quote.pair)
  else if input.forceAction.is "hold" then
    return (
      { action := .str "swap"
        tokenOut := d.tokenOut
        minAmountOut := .str "0"
        rationale := .str "[FORCED HOLD] User-selected action via dashboard"
        confidence := ← forcedConfidence d },
      "0", "HOLD")
  else if input.forceAction.is "stake" then
    let amountBig ← ((Value.str amountIn).or (.str "0")).toBigInt
    if amountBig < cfg.minStakeMotes then
      -- too little for a delegation
      return (
        { action := .str "swap"
          tokenOut := m.selectedTokenOut
          minAmountOut := .str (← applySlippage m.quote.amountOut (1 / 2))
          rationale := .str s!"[AUTO-SWAP from stake] amount {amountIn} motes below {cfg.minStakeMotes} minimum, swapped to sCSPR instead"
          confidence := ← forcedConfidence d },
        amountIn, m.quote.pair)
    else
      return (
        { action := .str "stake"
          tokenOut := .str "CSPR"
          minAmountOut := .str "0"
          rationale := .str "[FORCED STAKE] Native delegate via Casper 2.0 auction (~7-9% APY, 7d unbond)"
          confidence := ← forcedConfidence d },
        amountIn, m.quote.pair)
  else
    -- any other action, known or not
    let minAmountOut ← applySlippage m.quote.amountOut (1 / 2)
    let forced ← asString input.forceAction "toUpperCase"
    return (
      { action := if input.forceAction.is "compound" then .str "add_liquidity" else input.forceAction
        tokenOut := m.selectedTokenOut
        minAmountOut := .str minAmountOut
        rationale := .str s!"[FORCED {forced.toUpper}] User-selected action via dashboard"
        confidence := ← forcedConfidence d },
      amountIn, m.quote.pair)

/-- The proposal of a decision; a stake gets its label and a validator. -/
def toProposal (m : Market) (d : Decision) (amountIn pair : String) : StrategyProposal where
  action := d.action
  pair := if d.action.is "stake" then "CSPR/staked" else pair
  tokenIn := "CSPR"
  tokenOut := d.tokenOut
  amountIn := amountIn
  minAmountOut := d.minAmountOut
  rationale := d.rationale
  confidence := d.confidence
  x402Proof := m.x402Proof
  revenueEvent := input.revenueEvent
  validatorPubKey :=
    if d.action.is "stake" then
      some (cfg.stakingValidatorPubkey.getD (fallbackTestnetValidators.headD ""))
    else none

/-- The analyst. -/
def runAnalyst : Agent L StrategyProposal := do
  let account ← readChain cfg
  -- asked once, before anything is paid for
  let cb ← ask .checkCircuitBreaker .ok
  if cb.tripped then
    return buildHoldProposal input.revenueEvent cb.reason
  else
    let m ← readMarket input
    let d ← decideStrategy cfg input account m
    let (d, amountIn, pair) ← result (applyForceAction cfg input m d)
    return toProposal cfg input m d amountIn pair

end

end ArwaAgent
