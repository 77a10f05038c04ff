import ArwaAgent.Js.Json

/-!
# The streams of CSPR.cloud

Envelopes arrive as JSON text over one of two transports.  The filters `filterByContract` and
`filterByContractAndEvent` say which envelopes are events of a contract; the subscription that
the agent uses, `onContractCESEvents` with the name test of its callbacks, is written without
them.  What a callback is called with is the result here, if it is called.

Which characters `toLowerCase` maps depends on the Unicode version of the engine; it is a
parameter, and nothing depends on what it maps.
-/

namespace ArwaAgent.CsprCloud

open Js

/-- An envelope; the fields are those of a JSON value, which may lack any of them. -/
structure StreamEnvelope where
  action : Value
  data : Value
  timestamp : Value
  extra : Value

/-- A JSON value with an action and data. -/
def envelopeOf (v : Value) : Option StreamEnvelope :=
  match v.ownField "action", v.ownField "data" with
  | .undefined, _ | _, .undefined => none
  | action, data => some ⟨action, data, v.ownField "timestamp", v.ownField "extra"⟩

/-- `parseStreamEnvelope` -/
def parseStreamEnvelope (raw : Value) : Option StreamEnvelope :=
  match raw with
  | .arr _ | .obj _ => envelopeOf raw
  | .str s => (Json.parse s).bind fun v => if v.truthy then envelopeOf v else none
  -- the text of any other value is a value without fields, or no JSON
  | _ => none

/-! ### The filters -/

/-- `env.data ?? {}` -/
def StreamEnvelope.dataOrEmpty (env : StreamEnvelope) : Value :=
  env.data.orElse (.obj [])

/-- `d.contract_hash ?? d.contractHash ?? d.package_hash` -/
def StreamEnvelope.hash (env : StreamEnvelope) : Value :=
  ((env.dataOrEmpty.ownField "contract_hash").orElse
    (env.dataOrEmpty.ownField "contractHash")).orElse (env.dataOrEmpty.ownField "package_hash")

/-- `d.event_name ?? d.name` -/
def StreamEnvelope.eventName (env : StreamEnvelope) : Value :=
  (env.dataOrEmpty.ownField "event_name").orElse (env.dataOrEmpty.ownField "name")

/-- `v.toString()` on a value that has methods; `name` is what the code calls the value. -/
def textOf (v : Value) (name : String) : Except Error String :=
  match v with
  | .obj fields =>
    if (fields.lookup "toString").isSome then .error ⟨s!"{name}.toString is not a function"⟩
    else (Value.obj fields).toStr
  | v => v.toStr

section

variable (toLowerCase : String → String)

/-- `filterByContract` -/
def filterByContract (contractHash : String) (env : StreamEnvelope) : Except Error Bool := do
  let ch ← textOf (env.hash.orElse (.str ""))
    "(d.contract_hash ?? d.contractHash ?? d.package_hash ?? \"\")"
  return toLowerCase ch = toLowerCase contractHash

/-- `filterByContractAndEvent` -/
def filterByContractAndEvent (contractHash eventName : String) (env : StreamEnvelope) :
    Except Error Bool := do
  if !(← filterByContract toLowerCase contractHash env) then return false
  else
    let en ← textOf (env.eventName.orElse (.str "")) "(d.event_name ?? d.name ?? \"\")"
    return toLowerCase en = toLowerCase eventName

/-! ### The subscription -/

/-- What `onEvent` is called with. -/
structure CESEvent where
  eventName : Value
  payload : Value
  envelope : StreamEnvelope

/-- `matchHash` -/
def matchHash (contractHash : String) (h : Value) : Except Error Bool :=
  match h.orElse (.str "") with
  | .str s => .ok (toLowerCase s = toLowerCase contractHash)
  | _ => .error ⟨"(h ?? \"\").toLowerCase is not a function"⟩

/-- The handler of `onContractCESEvents`, the same for both transports. -/
def onEnvelope (contractHash : String) (env : StreamEnvelope) : Except Error (Option CESEvent) := do
  if !env.action.is "emitted" then return none
  else if !(← matchHash toLowerCase contractHash env.hash) then return none
  else
    let payload := ((env.dataOrEmpty.ownField "data").orElse
      (env.dataOrEmpty.ownField "payload")).orElse (.obj [])
    return some ⟨env.eventName.orElse (.str "Unknown"), payload, env⟩

/-- `env.extra?.f ?? env.data?.f ?? ''` for a field `f`. -/
def StreamEnvelope.origin (env : StreamEnvelope) (field : String) : Value :=
  ((env.extra.field? field).orElse (env.data.field? field)).orElse (.str "")

/-- The subscription to the events of a contract that have a name: the event that is passed on,
with the hashes of its deploy and its block. -/
def onNamedEvent (eventName contractHash : String) (env : StreamEnvelope) :
    Except Error (Option Value) := do
  match ← onEnvelope toLowerCase contractHash env with
  | none => return none
  | some e =>
    if !e.eventName.is eventName then return none
    else
      return some ((e.payload.withField "deploy_hash" (env.origin "deploy_hash")).withField
        "block_hash" (env.origin "block_hash"))

/-- A subscription to a contract of the configuration, which may not be set. -/
def onConfigured (eventName : String) (contractHash : Option String) :
    Option (StreamEnvelope → Except Error (Option Value)) :=
  (contractHash.filter (· ≠ "")).map (onNamedEvent toLowerCase eventName)

/-- `onStrategyExecuted`, for `AGENT_VAULT_CONTRACT_HASH` -/
def onStrategyExecuted (agentVaultContractHash : Option String) :
    Option (StreamEnvelope → Except Error (Option Value)) :=
  onConfigured toLowerCase "StrategyExecuted" agentVaultContractHash

/-- `onRevenueEmitted`, for `REVENUE_EMITTER_CONTRACT_HASH` -/
def onRevenueEmitted (revenueEmitterContractHash : Option String) :
    Option (StreamEnvelope → Except Error (Option Value)) :=
  onConfigured toLowerCase "RevenueEmitted" revenueEmitterContractHash

end

/-! ### The transports -/

/-- A message on the socket of `subscribeWS`: what its handler throws is not caught. -/
def receiveWS {α : Type} (onMessage : StreamEnvelope → Except Error (Option α)) (raw : String) :
    Except Error (Option α) :=
  match (Json.parse raw).bind fun v => if v.truthy then envelopeOf v else none with
  | none => .ok none
  | some env => onMessage env

/-- An event of `subscribeSSE`: an exception of its handler is taken for text that is no JSON. -/
def receiveSSE {α : Type} (onMessage : StreamEnvelope → Except Error (Option α)) (raw : String) :
    Except Error (Option α) :=
  match receiveWS onMessage raw with
  | .ok r => .ok r
  | .error _ => .ok none

end ArwaAgent.CsprCloud
