import ArwaAgent.Js.Value
import ArwaAgent.Lib.Program

/-!
# The consumer of stakeholder deposits

A loop of polls asks a node for the `deposit_count` of the contract and passes new deposits
on.  A poll reads the count only: the loop over the last five ids has no body, and the
event that it returns is made up for the most recent deposit.  The variable `lastSeenId`
lives from poll to poll.
-/

namespace ArwaAgent.CsprCloud

open Js Effects Effects.Code

/-- A deposit as it is passed on. -/
structure StakeholderDepositEvent where
  id : Number
  stakeholder : String
  amount : String
  sourceLabel : String
  sourceKind : String
  strategyHint : String
  nonce : ℕ
  timestamp : ℕ

/-- The configuration that the consumer reads. -/
structure ConsumerConfig where
  stakeholderDepositContractHash : Option String
  csprCloudApiKey : Option String
  casperRpcUrl : String
  agentPublicKey : Option String

/-- The calls of the consumer.  `loopForever` is a loop that does not end. -/
inductive ConsumerOp
  | stateGetItem (rpcUrl key authorization : String)
  | dateNow
  | onDeposit (e : StakeholderDepositEvent)
  | loopForever

/-- What a call is answered with; the response of a node is its body. -/
@[reducible] def ConsumerAns : ConsumerOp → Type
  | .stateGetItem _ _ _ => Except Error Value
  | .dateNow => ℕ
  | .onDeposit _ => Except Error Unit
  | .loopForever => Empty

/-- Code of the consumer, with the local variable `lastSeenId`. -/
abbrev Consumer (α : Type) : Type :=
  Code ConsumerOp ConsumerAns Error Number α

/-- `data?.result?.stored_value?.CLValue?.parsed` -/
def parsedCount (data : Value) : Value :=
  (((data.field? "result").field? "stored_value").field? "CLValue").field? "parsed"

/-- The loop `for (let id = Math.max(1, count - 4); id <= count; id++) {}` ends: from 2^53 on
`id++` comes to a stop below the count. -/
def scanEnds : Number → Bool
  | .nan => true
  | .infinity negative => negative
  | .finite q => q < 2 ^ 53

/-- The loop over the last five ids. -/
def scanRecentIds (count : Number) : Consumer Unit :=
  if scanEnds count then pure () else ask .loopForever Empty.elim

/-- The most recent deposit, if there is any; a failure reads as none. -/
def fetchRecentDeposits (cfg : ConsumerConfig) (depositContractHash csprCloudKey : String) :
    Consumer (List StakeholderDepositEvent) :=
  tryCatch (do
      let data ← ask (.stateGetItem cfg.casperRpcUrl depositContractHash csprCloudKey) id
      let count ← result ((parsedCount data).orElse (.num (.finite 0))).toNumber
      if count = .finite 0 then return []
      else
        scanRecentIds count
        let now ← ask .dateNow .ok
        return [
          { id := count
            stakeholder := cfg.agentPublicKey.getD ""
            amount := "0"
            sourceLabel := "(see contract)"
            sourceKind := "parking"
            strategyHint := "auto"
            nonce := 0
            timestamp := now / 1000 }])
    fun _ => pure []

/-- The loop over the fetched events. -/
def passOn : List StakeholderDepositEvent → Consumer Unit
  | [] => pure ()
  | e :: es => do
    let lastSeenId ← get
    if lastSeenId.lt e.id then
      -- the first id is only noted; an exception of the callback leaves the loop
      if (Number.finite 0).lt lastSeenId then ask (.onDeposit e) id
      set e.id
    passOn es

/-- One poll. -/
def poll (cfg : ConsumerConfig) (depositContractHash csprCloudKey : String) : Consumer Unit :=
  tryCatch (do
      let events ← fetchRecentDeposits cfg depositContractHash csprCloudKey
      passOn events)
    fun _ => pure ()

/-- A number of polls, one after the other. -/
def polls (cfg : ConsumerConfig) (depositContractHash csprCloudKey : String) : ℕ → Consumer Unit
  | 0 => pure ()
  | n + 1 => do
    poll cfg depositContractHash csprCloudKey
    polls cfg depositContractHash csprCloudKey n

/-- The consumer, started and stopped after `n` polls; it is disabled without a contract and a
key. -/
def startStakeholderDepositConsumer (cfg : ConsumerConfig) (n : ℕ) : Consumer Unit := do
  let depositHash := cfg.stakeholderDepositContractHash.getD ""
  let apiKey := cfg.csprCloudApiKey.getD ""
  if depositHash = "" ∨ apiKey = "" then pure ()
  else
    set (Number.finite 0)
    polls cfg depositHash apiKey n

end ArwaAgent.CsprCloud
