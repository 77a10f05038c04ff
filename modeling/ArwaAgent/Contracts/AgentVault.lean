import ArwaAgent.Odra.Collections
import ArwaAgent.Odra.Runs

/-!
# The AgentVault contract

The storage and the entry points of the contract that keeps the agent's audit log
and the custody ledger.  The audit log is a ring buffer of `maxLogHistory` decisions
with counters next to it: all strategies ever logged, and the successes of every
agent.  The custody ledger counts the motes the agent has moved in and out, and keeps
a list of positions with the yield claimed from each.  Every custody entry point
checks its own arguments and the caller; the motes themselves move in separate
transactions that the contract does not see.

The `paused` cell is set by the constructor and read nowhere; it is left out.
-/

namespace ArwaAgent

/-- An entry of the audit log. -/
structure DecisionLog where
  timestamp : UInt64
  agent : Address
  action : String
  amountIn : U256
  amountOut : U256
  tokenIn : Address
  tokenOut : Address
  pair : String
  txHash : String
  x402Proof : String
  x402Signer : Address
  outcome : String
  reputationDelta : UInt64
deriving DecidableEq, Repr

/-- A position held by the vault. -/
structure Position where
  id : UInt64
  kind : String
  target : String
  amount : U256
  openedTs : UInt64
  openedTx : String
  realisedYield : U256
  isClosed : Bool
  closedTs : UInt64
  closedTx : String
deriving DecidableEq, Repr

structure VaultDeposit where
  amount : U256
  agent : Address
  source : String
  newCustodied : U256
deriving DecidableEq, Repr

structure VaultWithdraw where
  amount : U256
  agent : Address
  reason : String
  newCustodied : U256
deriving DecidableEq, Repr

structure VaultPositionOpened where
  id : UInt64
  kind : String
  target : String
  amount : U256
  agent : Address
  openedTx : String
deriving DecidableEq, Repr

structure VaultYieldRealised where
  positionId : UInt64
  yieldAmount : U256
  newPositionTotal : U256
  totalYield : U256
  sourceTx : String
  agent : Address
deriving DecidableEq, Repr

/-- The events of the contract. -/
inductive VaultEvent
  | deposit (e : VaultDeposit)
  | withdraw (e : VaultWithdraw)
  | positionOpened (e : VaultPositionOpened)
  | yieldRealised (e : VaultYieldRealised)
deriving DecidableEq, Repr

/-- The storage of the contract. -/
structure AgentVault where
  owner : Address
  agents : Address → Bool
  decisionLog : List DecisionLog
  decisionHead : UInt32
  totalStrategies : UInt64
  reputation : Address → UInt64
  reputationGlobal : UInt64
  maxLogHistory : UInt32
  minStrategyAmount : U256
  custodiedCspr : U256
  totalCustodied : U256
  totalYieldRealised : U256
  positions : List Position
  positionCount : UInt64

namespace AgentVault

/-- The arguments of `executeStrategy`. -/
structure Strategy where
  action : String
  amountIn : U256
  amountOut : U256
  tokenIn : Address
  tokenOut : Address
  pair : String
  txHash : String
  x402Proof : String
  x402Signer : Address
  outcome : String
deriving DecidableEq, Repr

/-- The constructor of the contract. -/
def init (owner agent : Address) (maxLogHistory : UInt32) (minStrategyAmount : U256) :
    AgentVault where
  owner := owner
  agents := Function.update (Function.update (fun _ => false) owner true) agent true
  decisionLog := []
  decisionHead := 0
  totalStrategies := 0
  reputation := fun _ => 0
  reputationGlobal := 0
  maxLogHistory := max maxLogHistory 1
  minStrategyAmount := minStrategyAmount
  custodiedCspr := 0
  totalCustodied := 0
  totalYieldRealised := 0
  positions := []
  positionCount := 0

def isAgent (self : AgentVault) (agent : Address) : Bool := self.agents agent

def registerAgent (self : AgentVault) (env : Env) (agent : Address) :
    Except Revert (Commit AgentVault VaultEvent) := do
  require (env.caller = self.owner) ""
  return { contract := { self with agents := Function.update self.agents agent true }
           event := none }

def unregisterAgent (self : AgentVault) (env : Env) (agent : Address) :
    Except Revert (Commit AgentVault VaultEvent) := do
  require (env.caller = self.owner) ""
  return { contract := { self with agents := Function.update self.agents agent false }
           event := none }

/-- The number of slots of the audit log. -/
def cap (self : AgentVault) : UInt32 := max self.maxLogHistory 1

/-- Log a decision of the agent. -/
def executeStrategy (self : AgentVault) (env : Env) (args : Strategy) :
    Except Revert (Commit AgentVault VaultEvent) := do
  let caller := env.caller
  require (self.agents caller = true) ""
  require (self.minStrategyAmount ≤ args.amountIn) ""
  let repDelta : UInt64 := if args.outcome = "success" then 1 else 0
  let log : DecisionLog :=
    { timestamp := env.blockTime, agent := caller, action := args.action,
      amountIn := args.amountIn, amountOut := args.amountOut, tokenIn := args.tokenIn,
      tokenOut := args.tokenOut, pair := args.pair, txHash := args.txHash,
      x402Proof := args.x402Proof, x402Signer := args.x402Signer, outcome := args.outcome,
      reputationDelta := repDelta }
  let (decisionLog, decisionHead) ← ringWrite self.cap self.decisionHead self.decisionLog log
  -- the counters wrap: the release build does not check them
  return {
    contract :=
      { self with
        decisionLog := decisionLog
        decisionHead := decisionHead
        totalStrategies := self.totalStrategies + 1
        reputation := Function.update self.reputation caller (self.reputation caller + repDelta)
        reputationGlobal :=
          if 0 < repDelta then self.reputationGlobal + repDelta else self.reputationGlobal }
    event := none }

def getReputation (self : AgentVault) (agent : Address) : UInt64 := self.reputation agent

def getGlobalReputation (self : AgentVault) : UInt64 := self.reputationGlobal

def getTotalStrategies (self : AgentVault) : UInt64 := self.totalStrategies

/-- The last `limit` decisions, oldest first. -/
def getDecisionLog (self : AgentVault) (limit : UInt32) : List DecisionLog :=
  RingBuffer.recent self.cap.toNat self.decisionLog self.decisionHead.toNat limit.toNat

/-- Record that `amount` motes came under the vault's management. -/
def depositForStrategy (self : AgentVault) (env : Env) (amount : U256) (source : String) :
    Except Revert (Commit AgentVault VaultEvent) := do
  let caller := env.caller
  require (self.agents caller = true) "Only authorised agents can deposit_for_strategy"
  require (0 < amount) "amount must be > 0"
  require (source.utf8ByteSize ≤ 64) "source too long"
  let custodied ← U256.checkedAdd self.custodiedCspr amount
  let total ← U256.checkedAdd self.totalCustodied amount
  return {
    contract := { self with custodiedCspr := custodied, totalCustodied := total }
    event := some (.deposit { amount, agent := caller, source, newCustodied := custodied }) }

/-- Record a new position. What the vault holds is not looked at. -/
def recordStrategyExecution (self : AgentVault) (env : Env) (kind target : String)
    (amount : U256) (openedTx : String) : Except Revert (Commit AgentVault VaultEvent) := do
  let caller := env.caller
  require (self.agents caller = true) "Only authorised agents"
  require (0 < amount) "amount must be > 0"
  require (kind.utf8ByteSize ≤ 32) "kind too long"
  require (target.utf8ByteSize ≤ 64) "target too long"
  require (openedTx.utf8ByteSize ≤ 64) "opened_tx too long"
  let id := self.positionCount + 1
  let pos : Position :=
    { id, kind, target, amount, openedTs := env.blockTime, openedTx, realisedYield := 0,
      isClosed := false, closedTs := 0, closedTx := "" }
  let positions ← listPush self.positions pos
  return {
    contract := { self with positionCount := id, positions := positions }
    event := some (.positionOpened { id, kind, target, amount, agent := caller, openedTx }) }

/-- The linear scan for the slot of a position; `u32::MAX` stands for none. -/
def findPosition (self : AgentVault) (positionId : UInt64) : UInt32 :=
  match (self.positions.take (listLen self.positions).toNat).findIdx? fun p =>
    p.id = positionId with
  | some i => UInt32.ofNat i
  | none => 0xffffffff

/-- Record yield claimed from a position. -/
def recordYieldRealised (self : AgentVault) (env : Env) (positionId : UInt64)
    (yieldAmount : U256) (sourceTx : String) : Except Revert (Commit AgentVault VaultEvent) := do
  let caller := env.caller
  require (self.agents caller = true) "Only authorised agents"
  require (0 < yieldAmount) "yield must be > 0"
  require (sourceTx.utf8ByteSize ≤ 64) "source_tx too long"
  let foundIdx := self.findPosition positionId
  require (foundIdx ≠ 0xffffffff) "position not found"
  let pos ← unwrap self.positions[foundIdx.toNat]?
  let realised ← U256.checkedAdd pos.realisedYield yieldAmount
  let positions ← listReplace self.positions foundIdx.toNat { pos with realisedYield := realised }
  let total ← U256.checkedAdd self.totalYieldRealised yieldAmount
  return {
    contract := { self with positions := positions, totalYieldRealised := total }
    event := some (.yieldRealised
      { positionId, yieldAmount, newPositionTotal := realised, totalYield := total, sourceTx,
        agent := caller }) }

/-- Record that `amount` motes left the vault. The open positions are not looked at. -/
def withdrawForStrategy (self : AgentVault) (env : Env) (amount : U256) (reason : String) :
    Except Revert (Commit AgentVault VaultEvent) := do
  let caller := env.caller
  require (self.agents caller = true) "Only authorised agents"
  require (0 < amount) "amount must be > 0"
  require (amount ≤ self.custodiedCspr) "insufficient custodied balance"
  require (reason.utf8ByteSize ≤ 64) "reason too long"
  let custodied ← U256.checkedSub self.custodiedCspr amount
  return {
    contract := { self with custodiedCspr := custodied }
    event := some (.withdraw { amount, agent := caller, reason, newCustodied := custodied }) }

def getCustodiedCspr (self : AgentVault) : U256 := self.custodiedCspr

def getTotalCustodied (self : AgentVault) : U256 := self.totalCustodied

def getTotalYieldRealised (self : AgentVault) : U256 := self.totalYieldRealised

def getPositionCount (self : AgentVault) : UInt64 := self.positionCount

/-- What `getPosition` answers for an id that no position has. -/
def zeroedPosition : Position where
  id := 0
  kind := ""
  target := ""
  amount := 0
  openedTs := 0
  openedTx := ""
  realisedYield := 0
  isClosed := false
  closedTs := 0
  closedTx := ""

def getPosition (self : AgentVault) (id : UInt64) : Position :=
  match (self.positions.take (listLen self.positions).toNat).find? fun p => p.id = id with
  | some p => p
  | none => zeroedPosition

/-- The state-changing entry points, with their arguments. -/
inductive Call
  | registerAgent (agent : Address)
  | unregisterAgent (agent : Address)
  | executeStrategy (args : Strategy)
  | depositForStrategy (amount : U256) (source : String)
  | recordStrategyExecution (kind target : String) (amount : U256) (openedTx : String)
  | recordYieldRealised (positionId : UInt64) (yieldAmount : U256) (sourceTx : String)
  | withdrawForStrategy (amount : U256) (reason : String)
deriving DecidableEq, Repr

/-- Dispatch of a call to its entry point. -/
def exec (self : AgentVault) (env : Env) : Call → Except Revert (Commit AgentVault VaultEvent)
  | .registerAgent agent => self.registerAgent env agent
  | .unregisterAgent agent => self.unregisterAgent env agent
  | .executeStrategy args => self.executeStrategy env args
  | .depositForStrategy amount source => self.depositForStrategy env amount source
  | .recordStrategyExecution kind target amount openedTx =>
    self.recordStrategyExecution env kind target amount openedTx
  | .recordYieldRealised positionId yieldAmount sourceTx =>
    self.recordYieldRealised env positionId yieldAmount sourceTx
  | .withdrawForStrategy amount reason => self.withdrawForStrategy env amount reason

end AgentVault

/-- An AgentVault and the calls it has accepted. -/
abbrev VaultChain := Chain AgentVault AgentVault.Call VaultEvent

/-- The runs of a vault deployed with the given arguments of its constructor. -/
def vaultSystem (owner agent : Address) (maxLogHistory : UInt32) (minStrategyAmount : U256) :
    TransitionSystem VaultChain (Request AgentVault.Call) :=
  Chain.system AgentVault.exec (.init owner agent maxLogHistory minStrategyAmount)

end ArwaAgent
