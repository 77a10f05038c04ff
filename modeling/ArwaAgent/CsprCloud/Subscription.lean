import ArwaAgent.CsprCloud.Streaming
import ArwaAgent.Lib.Transition

/-!
# A subscription over a WebSocket

`subscribeWS` keeps one socket and opens another one some time after it has closed.  The
variables of its closure, the sockets that it has made and the timers that it has set are the
state; a step is an event that the library or the runtime reports to it, or a call of the
function `close` that it returns.

A socket goes from connecting to open, and from both by way of closing to closed.  A text that
is sent before a socket is open makes the library throw, and one that is sent after that is
dropped.
-/

namespace ArwaAgent.CsprCloud

open Js

/-- `StreamName` -/
inductive StreamName
  | accountBalance
  | block
  | contract
  | contractPackage
  | contractLevelEvents
  | deploy
  | fungibleTokenAction
  | nft
  | nftAction
  | transfer
  deriving DecidableEq

/-- The name that the server knows a stream by. -/
def StreamName.text : StreamName → String
  | .accountBalance => "Account balance"
  | .block => "Block"
  | .contract => "Contract"
  | .contractPackage => "Contract package"
  | .contractLevelEvents => "Contract-level events"
  | .deploy => "Deploy"
  | .fungibleTokenAction => "Fungible token action"
  | .nft => "Non-fungible token (NFT)"
  | .nftAction => "Non-fungible token (NFT) action"
  | .transfer => "Transfer"

/-- `JSON.stringify({ action: 'subscribe', stream })` -/
def subscribeText (stream : StreamName) : String :=
  String.ofList ((Json.stringify
    (.obj [("action", .str "subscribe"), ("stream", .str stream.text)])).getD [])

/-! ### Sockets -/

/-- `readyState` -/
inductive ReadyState
  | connecting
  | opened
  | closing
  | closed
  deriving DecidableEq

/-- A socket, with the texts that have been sent over it. -/
structure Socket where
  readyState : ReadyState
  sent : List String
  deriving DecidableEq

namespace Socket

/-- `new WebSocket(url)` -/
def new : Socket :=
  ⟨.connecting, []⟩

/-- `sock.send(text)` -/
def send (text : String) (k : Socket) : Except Error Socket :=
  match k.readyState with
  | .connecting => .error ⟨"WebSocket is not open: readyState 0 (CONNECTING)"⟩
  | .opened => .ok { k with sent := k.sent ++ [text] }
  | .closing | .closed => .ok k

/-- `sock.close()`: a socket that is not closed begins to close. -/
def close (k : Socket) : Socket :=
  match k.readyState with
  | .closed => k
  | _ => { k with readyState := .closing }

end Socket

/-! ### The subscription -/

/-- The variables of `subscribeWS`, its sockets in the order they were made, and the waits of
the timers that have not run out. -/
structure Subscription where
  /-- `sock`, by its place among the sockets -/
  sock : Option ℕ
  stopped : Bool
  backoff : Number
  sockets : List Socket
  timers : List Number

/-- What happens to a subscription; a number says which socket or which timer it happens to. -/
inductive SubscriptionEvent
  | opened (n : ℕ)
  | message (n : ℕ) (raw : String)
  | error (n : ℕ)
  /-- A socket begins to close, by the network or by the server. -/
  | closing (n : ℕ)
  | closed (n : ℕ)
  | timeout (i : ℕ)
  | close
  deriving DecidableEq

namespace Subscription

/-- The first value of `backoff`. -/
def firstBackoff : Number :=
  .finite 500

/-- The longest wait, in milliseconds. -/
def maxWait : Number :=
  .finite 30000

/-- The variables before the first `open()`. -/
def start : Subscription where
  sock := none
  stopped := false
  backoff := firstBackoff
  sockets := []
  timers := []

/-- `open` -/
def connect (s : Subscription) : Subscription :=
  if s.stopped then s
  else { s with sock := some s.sockets.length, sockets := s.sockets ++ [.new] }

/-- A socket that has changed. -/
def modifySocket (n : ℕ) (f : Socket → Socket) (s : Subscription) : Subscription :=
  { s with sockets := s.sockets.modify n f }

/-- A socket in another state. -/
def setReady (n : ℕ) (r : ReadyState) (s : Subscription) : Subscription :=
  s.modifySocket n fun k => { k with readyState := r }

/-- `sock!.send(text)`, for the socket that the variable holds now. -/
def send (text : String) (s : Subscription) : Except Error Subscription :=
  match s.sock.bind fun n => s.sockets[n]?.map fun k => (n, k) with
  | none => .error ⟨"Cannot read properties of null (reading 'send')"⟩
  | some (n, k) => do
    let k ← k.send text
    return { s with sockets := s.sockets.set n k }

/-- The `open` handler: the backoff starts again, and every stream is subscribed to. -/
def onOpen (streams : List StreamName) (s : Subscription) : Except Error Subscription :=
  streams.foldlM (fun s stream => s.send (subscribeText stream))
    { s with backoff := firstBackoff }

/-- The wait after a connection that closes. -/
def wait (backoff : Number) : Number :=
  backoff.min maxWait

/-- The `close` handler: `setTimeout(open, Math.min(backoff *= 2, 30_000))`. -/
def onClose (s : Subscription) : Subscription :=
  if s.stopped then s
  else
    let backoff := s.backoff.mul (.finite 2)
    { s with backoff, timers := s.timers ++ [wait backoff] }

/-- The function `close` that is returned. -/
def close (s : Subscription) : Subscription :=
  match s.sock with
  | none => { s with stopped := true }
  | some n => modifySocket n Socket.close { s with stopped := true }

/-- What can happen in a state. -/
def enabled (s : Subscription) : SubscriptionEvent → Prop
  | .opened n => ∃ k, s.sockets[n]? = some k ∧ k.readyState = .connecting
  | .message n _ => ∃ k, s.sockets[n]? = some k ∧
      (k.readyState = .opened ∨ k.readyState = .closing)
  | .error n | .closed n => ∃ k, s.sockets[n]? = some k ∧ k.readyState ≠ .closed
  | .closing n => ∃ k, s.sockets[n]? = some k ∧
      (k.readyState = .connecting ∨ k.readyState = .opened)
  | .timeout i => i < s.timers.length
  | .close => True

/-- An event, with what the handlers do about it; `onMessage` is the handler of the caller, who
may throw. -/
def handle {α : Type} (streams : List StreamName)
    (onMessage : StreamEnvelope → Except Error (Option α)) (s : Subscription) :
    SubscriptionEvent → Except Error Subscription
  | .opened n => onOpen streams (s.setReady n .opened)
  | .message _ raw => do
    let _ ← receiveWS onMessage raw
    return s
  | .error _ => .ok s
  | .closing n => .ok (s.setReady n .closing)
  | .closed n => .ok (s.setReady n .closed).onClose
  | .timeout i => .ok (connect { s with timers := s.timers.eraseIdx i })
  | .close => .ok s.close

/-- The runs of a subscription: they end where a handler throws. -/
def system {α : Type} (streams : List StreamName)
    (onMessage : StreamEnvelope → Except Error (Option α)) :
    TransitionSystem Subscription SubscriptionEvent where
  init := fun s => s = start.connect
  step := fun s e t => s.enabled e ∧ s.handle streams onMessage e = .ok t

end Subscription

end ArwaAgent.CsprCloud
