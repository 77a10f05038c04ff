import ArwaAgent.Odra.Collections
import ArwaAgent.Odra.Runs

/-!
# The RevenueEmitter contract

The storage and the entry points of the contract that publishes revenue on chain.  An
event is a record in a ring buffer of `maxHistory` slots; next to the records the
contract keeps the lifetime total of every asset.  The owner appoints the emitter,
pauses the contract, and hands it over in two steps.
-/

namespace ArwaAgent

namespace RevenueEmitter

/-- On-chain record of a single revenue tick. -/
structure RevenueEvent where
  timestamp : UInt64
  amount : U256
  asset : Address
  source : String
  emitter : Address
  reference : String
deriving DecidableEq, Repr

structure RevenueEmitted where
  amount : U256
  asset : Address
  source : String
  timestamp : UInt64
  emitter : Address
  reference : String
deriving DecidableEq, Repr

/-- The events of the contract. -/
inductive Event
  | revenueEmitted (e : RevenueEmitted)
  | ownershipTransferred (fromOwner toOwner : Address)
  | emitterUpdated (newEmitter : Address)
  | paused (paused : Bool)
deriving DecidableEq, Repr

end RevenueEmitter

/-- The storage of the contract. -/
structure RevenueEmitter where
  owner : Address
  emitter : Address
  /-- Unset until the first transfer of the ownership. -/
  pendingOwner : Option Address
  paused : Bool
  events : List RevenueEmitter.RevenueEvent
  head : UInt32
  totalEmitted : Address → U256
  maxHistory : UInt32

namespace RevenueEmitter

/-- The constructor of the contract. -/
def init (owner emitter : Address) (maxHistory : UInt32) : RevenueEmitter where
  owner := owner
  emitter := emitter
  pendingOwner := none
  paused := false
  events := []
  head := 0
  totalEmitted := fun _ => 0
  maxHistory := max maxHistory 1

def onlyOwner (self : RevenueEmitter) (env : Env) : Except Revert Unit :=
  require (env.caller = self.owner) "Only owner"

def transferOwnership (self : RevenueEmitter) (env : Env) (newOwner : Address) :
    Except Revert (Commit RevenueEmitter Event) := do
  self.onlyOwner env
  return { contract := { self with pendingOwner := some newOwner }, event := none }

def acceptOwnership (self : RevenueEmitter) (env : Env) :
    Except Revert (Commit RevenueEmitter Event) := do
  let caller := env.caller
  let pending := self.pendingOwner.getD zeroAddress
  require (pending ≠ zeroAddress) "No pending ownership transfer"
  require (caller = pending) "Only pending owner can accept"
  let prev := self.owner
  return { contract := { self with owner := caller, pendingOwner := some zeroAddress }
           event := some (.ownershipTransferred prev caller) }

def setEmitter (self : RevenueEmitter) (env : Env) (newEmitter : Address) :
    Except Revert (Commit RevenueEmitter Event) := do
  self.onlyOwner env
  return { contract := { self with emitter := newEmitter }
           event := some (.emitterUpdated newEmitter) }

def setPaused (self : RevenueEmitter) (env : Env) (paused : Bool) :
    Except Revert (Commit RevenueEmitter Event) := do
  self.onlyOwner env
  return { contract := { self with paused := paused }, event := some (.paused paused) }

/-- The number of slots of the ring buffer. -/
def cap (self : RevenueEmitter) : UInt32 := max self.maxHistory 1

/-- Emit a new revenue event. Only the emitter and the owner may. -/
def emitRevenue (self : RevenueEmitter) (env : Env) (amount : U256) (asset : Address)
    (source reference : String) : Except Revert (Commit RevenueEmitter Event) := do
  require (self.paused = false) "Contract is paused"
  let caller := env.caller
  require (caller = self.emitter ∨ caller = self.owner) "Not authorized to emit"
  require (0 < amount) "Amount must be > 0"
  require (source.utf8ByteSize ≤ 64) "source too long"
  require (reference.utf8ByteSize ≤ 128) "reference too long"
  let event : RevenueEvent :=
    { timestamp := env.blockTime, amount, asset, source, emitter := caller, reference }
  let (events, head) ← ringWrite self.cap self.head self.events event
  let total ← U256.checkedAdd (self.totalEmitted asset) amount
  return {
    contract :=
      { self with
        events := events
        head := head
        totalEmitted := Function.update self.totalEmitted asset total }
    event := some (.revenueEmitted
      { amount, asset, source, timestamp := event.timestamp, emitter := caller, reference }) }

/-- The last `limit` events, oldest first. -/
def getRecentEvents (self : RevenueEmitter) (limit : UInt32) : List RevenueEvent :=
  RingBuffer.recent self.cap.toNat self.events self.head.toNat limit.toNat

def getTotalEmitted (self : RevenueEmitter) (asset : Address) : U256 := self.totalEmitted asset

def eventCount (self : RevenueEmitter) : UInt32 := listLen self.events

/-- The state-changing entry points, with their arguments. -/
inductive Call
  | transferOwnership (newOwner : Address)
  | acceptOwnership
  | setEmitter (newEmitter : Address)
  | setPaused (paused : Bool)
  | emitRevenue (amount : U256) (asset : Address) (source reference : String)
deriving DecidableEq, Repr

/-- Dispatch of a call to its entry point. -/
def exec (self : RevenueEmitter) (env : Env) :
    Call → Except Revert (Commit RevenueEmitter Event)
  | .transferOwnership newOwner => self.transferOwnership env newOwner
  | .acceptOwnership => self.acceptOwnership env
  | .setEmitter newEmitter => self.setEmitter env newEmitter
  | .setPaused paused => self.setPaused env paused
  | .emitRevenue amount asset source reference =>
    self.emitRevenue env amount asset source reference

end RevenueEmitter

/-- A RevenueEmitter and the calls it has accepted. -/
abbrev EmitterChain := Chain RevenueEmitter RevenueEmitter.Call RevenueEmitter.Event

/-- The runs of an emitter deployed with the given arguments of its constructor. -/
def emitterSystem (owner emitter : Address) (maxHistory : UInt32) :
    TransitionSystem EmitterChain (Request RevenueEmitter.Call) :=
  Chain.system RevenueEmitter.exec (.init owner emitter maxHistory)

end ArwaAgent
