import ArwaAgent.Agent.Analyst
import ArwaAgent.Agent.Executor

/-!
# One cycle of the agent

Analyst, confidence gate, executor.
-/

namespace ArwaAgent

open Js Effects Effects.Code

/-- The input of a cycle. -/
structure CycleInput where
  revenueEvent : RevenueEvent
  ownerAddress : String
  forceAction : Value

/-- What a cycle returns; `execution` is missing when the gate stopped it. -/
structure CycleResult where
  proposal : StrategyProposal
  execution : Option ExecutorResult
  tokenBalance : Option (TokenBalance × String)

/-- The digits after the point, without the zeros at the end. -/
def trimZeros (s : List Char) : List Char :=
  (s.reverse.dropWhile (· = '0')).reverse

/-- An amount with a given number of decimals. -/
def formatCep18Balance (motes : String) (decimals : ℕ) : Except Error String := do
  let big ← Value.bigIntOfString motes
  let whole := big.tdiv (10 ^ decimals)
  let frac := big.tmod (10 ^ decimals)
  if frac = 0 then return toString whole
  else
    let digits := (toString frac).toList
    return toString whole ++ "." ++
      String.ofList (trimZeros (List.replicate (decimals - digits.length) '0' ++ digits))

/-- The balance as it is shown. -/
def displayBalance (balance : String) : Except Error String :=
  if balance = "0" then .ok "0" else formatCep18Balance balance 9

/-- The token balance of the agent, if it can be read. -/
def readTokenBalance : Agent Unit (Option (TokenBalance × String)) :=
  tryCatch (do
      let keys ← ask .getAgentKeys id
      let r ← ask (.getAgentCep18Balance keys.accountHash) id
      let display ← result (displayBalance r.balance)
      return some (r, display))
    fun _ => pure none

/-- One cycle. -/
def runCycle (cfg : Config) (input : CycleInput) : Agent Unit CycleResult := do
  let tokenBalance ← readTokenBalance
  let proposal ← runAnalyst cfg
    { revenueEvent := input.revenueEvent
      ownerAddress := input.ownerAddress
      signalEndpoint := cfg.x402SignalEndpoint
      signalPriceMotes := "1000000"
      forceHeuristic := false
      forceAction := input.forceAction }
  let confidence ← result proposal.confidence.toNumber
  -- a confidence that is not a number is not below the gate
  if confidence.lt (.finite 50) then
    return ⟨proposal, none, tokenBalance⟩
  else
    -- nothing in the source: it marks in the log which proposal is executed
    ask (.runExecutor proposal) .ok
    let execution ← runExecutor cfg proposal
    return ⟨proposal, some execution, tokenBalance⟩

end ArwaAgent
