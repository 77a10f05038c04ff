import ArwaAgent.Agent.Types
import Mathlib.Data.Nat.Digits.Defs

/-!
# The executor

A proposal is held, staked, or taken to the exchange.  The source leaves its `try` block
by exceptions also where nothing went wrong, and tells them apart by their messages;
the two local variables keep what they were set to before the exception.  The three
paths are three definitions here, with the exceptions as they are.
-/

namespace ArwaAgent

open Js Effects Effects.Code

/-- The values of the local variable `outcome`. -/
inductive LocalOutcome
  | success
  | reverted
  | failed
  | skipped
  deriving DecidableEq

/-- The outcome as it is written to the audit log. -/
def LocalOutcome.toStr : LocalOutcome → String
  | success => "success"
  | reverted => "reverted"
  | failed => "failed"
  | skipped => "skipped"

/-- The outcome as it is reported to the risk guard, which does not know `skipped`. -/
def LocalOutcome.reported : LocalOutcome → Outcome
  | success => .success
  | reverted => .reverted
  | _ => .failed

/-- The local variables of the executor. -/
structure ExecutorVars where
  deployHash : Value
  outcome : LocalOutcome

/-- What the executor returns. -/
structure ExecutorResult where
  txHash : Value
  vaultResult : ExecutionResult
  proposal : StrategyProposal

/-- `n.toString(36)` -/
def base36 (n : ℕ) : String :=
  if n = 0 then "0"
  else String.ofList ((Nat.digits 36 n).reverse.map fun d =>
    Char.ofNat (if d < 10 then '0'.toNat + d else 'a'.toNat + (d - 10)))

/-- The proposals that the executor does not submit anything for. -/
def StrategyProposal.isHold (p : StrategyProposal) : Bool :=
  p.amountIn = "0" || p.pair = "HOLD"

/-- The value that a successful strategy is recorded with:
`proposal.minAmountOut || proposal.amountIn`. -/
def StrategyProposal.snapshotValue (p : StrategyProposal) : Value :=
  p.minAmountOut.or (.str p.amountIn)

section

variable (cfg : Config) (p : StrategyProposal)

/-- Record a position in the vault and in the fund cache; a failure is only logged. -/
def openPosition (kind target : String) (openedTx : Value) : Agent ExecutorVars Unit :=
  tryCatch (do
      let _ ← ask (.recordStrategyExecution kind target p.amountIn openedTx) id
      -- the position is counted even if the amount is refused after it
      ask .recordPositionOpened .ok
      ask (.recordCustodianDeposit p.amountIn) id)
    fun _ => pure ()

/-- The HOLD path. -/
def holdPath : Agent ExecutorVars Unit := do
  let now ← ask .dateNow .ok
  set (ExecutorVars.mk (.str ("hold-" ++ base36 now)) .skipped)
  -- the way out of the block: the handler keeps the variables for this message
  throw ⟨"hold-short-circuit"⟩

/-- The validator of a stake, or the first known one when there is none. -/
def stakeValidator : String :=
  match p.validatorPubKey with
  | some v => if v = "" ∨ v = "undefined" then fallbackTestnetValidators.headD "" else v
  | none => fallbackTestnetValidators.headD ""

/-- The amount that the stake path compares with the minimum: `BigInt(amountIn || '0')`. -/
def stakeAmount : Except Error ℤ :=
  ((Value.str p.amountIn).or (.str "0")).toBigInt

/-- Record the position of a successful stake, if the proposal names its validator. -/
def openStakePosition (r : ExecutionResult) : Agent ExecutorVars Unit :=
  if r.outcome = .success ∧ p.validatorPubKey.getD "" ≠ "" then
    openPosition p "validator_delegate" (p.validatorPubKey.getD "") r.txHash
  else pure ()

/-- The STAKE path: a native delegation. -/
def stakePath : Agent ExecutorVars Unit := do
  let amountBig ← result (stakeAmount p)
  if amountBig < cfg.minStakeMotes then
    throw ⟨s!"stake amount {p.amountIn} motes < {cfg.minStakeMotes} min"⟩
  else
    let r ← ask (.delegateToValidator p.amountIn (stakeValidator p)) id
    set (ExecutorVars.mk r.txHash (if r.outcome = .success then .success else .reverted))
    openStakePosition p r
    -- whatever the outcome, so that nothing is taken to the exchange
    throw ⟨"stake-handled"⟩

/-- The parameters of the transaction that the exchange is asked to build; the amount is
scaled down, since the server scales it up. -/
def buildParams (keys : AgentKeys) (amount : ℤ) : BuildParams where
  action := if p.action.is "compound" then .str "add_liquidity" else p.action
  tokenIn := p.tokenIn
  tokenOut := p.tokenOut
  amountIn := toString (amount.tdiv (10 ^ 9))
  minAmountOut := p.minAmountOut
  payerAddress := keys.publicKey

/-- The kind under which a position of the exchange is recorded. -/
def positionKind : String :=
  if p.action.is "add_liquidity" then "lp"
  else if p.action.is "swap" then "sCSPR_swap"
  else if p.action.is "remove_liquidity" then "lp_remove"
  else "compound"

/-- The path through the exchange. -/
def dexPath (keys : AgentKeys) : Agent ExecutorVars Unit := do
  let amount ← result (Value.bigIntOfString p.amountIn)
  let unsigned ← ask (.buildUnsignedDeploy (buildParams p keys amount)) id
  let r ← ask (.signAndSubmitSwap unsigned) id
  set (ExecutorVars.mk r.deployHash (if r.success then .success else .reverted))
  if r.success then openPosition p (positionKind p) p.pair r.deployHash
  else pure ()

/-- The `try` block. -/
def strategyBlock (keys : AgentKeys) : Agent ExecutorVars Unit :=
  if p.isHold then holdPath
  else if p.action.is "stake" then stakePath cfg p
  else dexPath p keys

/-- The `try` block with its handler: the messages of the two exceptions that stand for a
handled proposal keep the variables, any other one is a failure. -/
def submitStrategy (keys : AgentKeys) : Agent Unit ExecutorVars := do
  let (r, vars) ← block (ExecutorVars.mk (.str "") .failed) (strategyBlock cfg p keys)
  match r with
  | .ok _ => return vars
  | .error e =>
    if e.message = "stake-handled" ∨ e.message = "hold-short-circuit" then return vars
    else
      -- also when the exception came after the submission, whose hash is then lost
      let now ← ask .dateNow .ok
      return ⟨.str ("failed-" ++ base36 now), .failed⟩

/-- Step 3b: tell the risk guard. -/
def updateRiskGuard (outcome : LocalOutcome) : Agent Unit Unit :=
  tryCatch (do
      ask (.recordStrategyOutcome outcome.reported) .ok
      if outcome = .success then ask (.updatePortfolioSnapshot p.snapshotValue) id
      else pure ())
    fun _ => pure ()

/-- `(settleTxHash ?? '').slice(0, 64)` -/
def truncateSettle (proof : Option X402Proof) : Except Error Value :=
  match (proof.elim Value.undefined X402Proof.settleTxHash).orElse (.str "") with
  | .str s => .ok (.str (String.ofList (slice16 64 s.toList)))
  | .arr elems => .ok (.arr (elems.take 64))
  | _ => .error ⟨"slice is not a function"⟩

/-- Step 4: the audit log; a failure is only logged. -/
def logDecision (keys : AgentKeys) (vars : ExecutorVars) : Agent Unit ExecutionResult := do
  let header := (p.x402Proof.elim "" X402Proof.paymentHeader).toList
  -- outside the `try` block
  let settle ← result (truncateSettle p.x402Proof)
  tryCatch (ask (.logStrategyToVault
      { action := p.action
        amountIn := p.amountIn
        amountOut := p.minAmountOut
        tokenIn := p.tokenIn
        tokenOut := p.tokenOut
        tokenInHex := "account-hash-" ++ keys.accountHash
        pair := p.pair
        txHash := vars.deployHash
        x402Proof := String.ofList (slice16 512 header)
        x402Signer := settle
        outcome := vars.outcome.toStr }) id)
    fun _ => pure ⟨.str "failed", .reverted⟩

/-- The executor. -/
def runExecutor : Agent Unit ExecutorResult := do
  let keys ← ask .getAgentKeys id
  let vars ← submitStrategy cfg p keys
  updateRiskGuard p vars.outcome
  let vaultResult ← logDecision p keys vars
  return ⟨vars.deployHash, vaultResult, p⟩

end

end ArwaAgent
