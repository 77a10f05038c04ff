import ArwaAgent.Lib.Pool
import ArwaAgent.X402.Server

/-!
# Concurrent requests

Any number of requests are handled at the same time over the set of used nonces, with
the calls of their handlers interleaved in any order.  `requestProtocol` is what a handler
does with the nonce of its payment: it adds nothing that it has not found unused, and
sells a signal only after that.
-/

namespace ArwaAgent.X402

open Js Effects Effects.Code

/-- What the handlers share: the clock, in milliseconds, and the used nonces. -/
structure ServerState where
  now : ℕ
  usedNonces : List String

/-- The answer and the effect of a call that stays inside the server; `none` for the calls that
another party answers.  A nonce with a length that is not a string is an object, which is never
found again. -/
def ServerState.local (x : ServerState) : (op : ServerOp) → Option (ServerAns op × ServerState)
  | .hasNonce (.str n) => some (decide (n ∈ x.usedNonces), x)
  | .hasNonce _ => some (false, x)
  | .dateNow => some (x.now, x)
  | .addNonce (.str n) => some ((), { x with usedNonces := n :: x.usedNonces })
  | .addNonce _ => some ((), x)
  | .verdict _ => some ((), x)
  | _ => none

/-- The server, starting with no used nonces. -/
def server (crypto : Crypto) (cfg : ServerConfig) :
    Machine ServerOp ServerAns ServerState Request where
  init := fun x => x.usedNonces = []
  code := fun req => (getSignal crypto cfg req).toProgram () >>= fun _ => .done ()
  answer := fun x op r y =>
    match x.local op with
    | some (r', y') => r = r' ∧ y = y'
    | none => y = x
  drift := fun x y => x.now ≤ y.now ∧ y.usedNonces = x.usedNonces

/-- A call in the log of the server. -/
abbrev ServerEntry : Type := Entry ServerOp ServerAns ServerState Request

/-- The states of a run of the server. -/
abbrev ServerWorld : Type := Pool ServerOp ServerAns ServerState Request

/-- The runs of the server. -/
def signalServer (crypto : Crypto) (cfg : ServerConfig) :
    TransitionSystem ServerWorld (Pool.Label ServerOp ServerAns ServerState Request) :=
  Pool.system (server crypto cfg)

/-! ### The protocol of a handler -/

/-- How far a handler is with the payment of its request. -/
inductive RequestPhase
  | anonymous
  | unchecked (payload : Value)
  | checked (payload : Value)
  | accepted (payload : Value)
  | refused
  | selling (payload : Value)

/-- The calls that a handler may make in a phase. -/
def RequestPhase.allows : RequestPhase → ServerOp → Prop
  | anonymous, op => op = .getAssetMeta
  | unchecked p, op => match op with
    | .getAssetMeta | .verdict (.invalid _) => True
    | .hasNonce n => n = nonce p
    | _ => False
  | checked p, op => match op with
    | .dateNow | .getAssetMeta | .verdict (.invalid _) => True
    | .addNonce n => n = nonce p ∧ ∃ s, n = .str s
    | _ => False
  | accepted _, op => match op with
    | .verdict (.valid _ _) => True
    | _ => False
  | refused, op => op = .getAssetMeta
  | selling _, op => match op with
    | .forwardToFacilitator _ _ | .computeForecast _ => True
    | _ => False

/-- The phase after a call. -/
def RequestPhase.next : RequestPhase → (op : ServerOp) → ServerAns op → RequestPhase
  | unchecked p, .hasNonce _, r => if r then unchecked p else checked p
  | unchecked _, .verdict _, _ => refused
  | checked _, .verdict _, _ => refused
  | checked p, .addNonce _, _ => accepted p
  | accepted p, .verdict _, _ => selling p
  | ph, _, _ => ph

/-- The order of the calls of a handler. -/
def requestProtocol : Monitor ServerOp ServerAns RequestPhase where
  allows := RequestPhase.allows
  next := RequestPhase.next

/-- The phase in which the handler of a request starts. -/
def Request.phase (req : Request) : RequestPhase :=
  match req.paymentSignature with
  | .payload p => .unchecked p
  | _ => .anonymous

section

variable {crypto : Crypto} {cfg : ServerConfig} {payload : Value}
  {requirements : PaymentRequirements}

lemma asText_eq_ok {v : Value} {name method s : String} (h : asText v name method = .ok s) :
    v = .str s := by
  cases v with
  | str t => exact congrArg Value.str (Except.ok.inj h)
  | _ =>
    obtain ⟨_, -, h⟩ := bind_eq_ok.1 h
    cases h

/-- A digest is made only of a nonce that is a string. -/
lemma nonce_of_digest {hash : String} (h : digest crypto payload requirements = .ok hash) :
    ∃ s, nonce payload = .str s := by
  obtain ⟨domain, -, h⟩ := bind_eq_ok.1 h
  obtain ⟨m, hm, -⟩ := bind_eq_ok.1 h
  obtain ⟨sender, -, hm⟩ := bind_eq_ok.1 hm
  obtain ⟨v, -, hm⟩ := bind_eq_ok.1 hm
  obtain ⟨value, -, hm⟩ := bind_eq_ok.1 hm
  obtain ⟨v, -, hm⟩ := bind_eq_ok.1 hm
  obtain ⟨validAfter, -, hm⟩ := bind_eq_ok.1 hm
  obtain ⟨v, -, hm⟩ := bind_eq_ok.1 hm
  obtain ⟨validBefore, -, hm⟩ := bind_eq_ok.1 hm
  obtain ⟨n, hn, hm⟩ := bind_eq_ok.1 hm
  obtain ⟨s, hs, -⟩ := bind_eq_ok.1 hm
  exact ⟨s, (Value.field_eq_ok hn).symm.trans (asText_eq_ok hs)⟩

lemma nonce_of_checkSignature {r : Except String String}
    (h : checkSignature crypto payload requirements = .ok r) : ∃ s, nonce payload = .str s := by
  obtain ⟨hash, hhash, -⟩ := bind_eq_ok.1 h
  exact nonce_of_digest hhash

lemma stays_ask {α : Type} {ph : RequestPhase} {op : ServerOp} {read : ServerAns op → Except Error α}
    (hallows : ph.allows op) (hnext : ∀ r, ph.next op r = ph) :
    Stays requestProtocol ph (ask op read : Handler α) :=
  Stays.ask hallows hnext

/-- What the phase says about the result of the verification: a valid payment has been accepted,
and an invalid one has not. -/
def RequestPhase.Agrees (payload : Value) (ph : RequestPhase) : Verification → Prop
  | .valid _ _ => ph = accepted payload
  | .invalid _ => ph = unchecked payload ∨ ph = checked payload

lemma verifyUnused_meets :
    Meets requestProtocol (.checked payload) () (verifyUnused crypto payload requirements)
      fun ph _ r => match r with
        | .ok v => ph.Agrees payload v
        | .error _ => ph = .checked payload := by
  refine meets_ask_bind.2 ⟨trivial, fun ms _ => ?_⟩
  refine Stays.meets_bind (Stays.result _) (fun _ reason => ?_) fun _ _ => rfl
  cases reason with
  | some reason => exact Or.inr rfl
  | none =>
    have hmeta : Stays requestProtocol (.checked payload) (ask .getAssetMeta id : Handler AssetMeta) :=
      stays_ask trivial fun r => rfl
    refine Stays.meets_bind hmeta (fun _ _ => ?_) fun _ _ => rfl
    refine meets_result_bind.2 ?_
    cases hcheck : checkSignature crypto payload requirements with
    | error e => exact rfl
    | ok r =>
      cases r with
      | error reason => exact Or.inr rfl
      | ok payer =>
        exact meets_ask_bind.2 ⟨⟨rfl, nonce_of_checkSignature hcheck⟩, fun _ _ => rfl⟩

/-- The verification accepts a payment exactly when it says so. -/
lemma verifyX402V2Signature_meets :
    Meets requestProtocol (.unchecked payload) () (verifyX402V2Signature crypto payload requirements)
      fun ph _ r => ∃ v, r = .ok v ∧ ph.Agrees payload v := by
  refine meets_tryCatch.2 ?_
  refine Stays.meets_bind (Stays.result _) (fun _ reason => ?_) fun _ e => ⟨_, rfl, Or.inl rfl⟩
  cases reason with
  | some reason => exact ⟨_, rfl, Or.inl rfl⟩
  | none =>
    refine meets_ask_bind.2 ⟨rfl, fun used _ => ?_⟩
    cases used with
    | true => exact ⟨_, rfl, Or.inl rfl⟩
    | false =>
      refine verifyUnused_meets.mono fun ph _ r hr => ?_
      cases r with
      | ok v => exact ⟨v, rfl, hr⟩
      | error e => exact ⟨_, rfl, Or.inr hr⟩

lemma paymentRequired_meets {ph : RequestPhase} {reason : Option String}
    (hph : ph = .anonymous ∨ ph = .refused) :
    Meets requestProtocol ph () (paymentRequired cfg reason) fun _ _ _ => True := by
  refine meets_ask_bind.2 ⟨?_, fun r _ => ?_⟩
  · rcases hph with rfl | rfl <;> rfl
  · cases r <;> trivial

lemma sellSignal_meets {lot : String} :
    Meets requestProtocol (.unchecked payload) () (sellSignal crypto cfg lot payload requirements)
      fun _ _ _ => True := by
  refine Meets.bind verifyX402V2Signature_meets ?_ fun _ _ _ _ => trivial
  rintro ph _ v ⟨_, ⟨⟩, hagrees⟩
  cases v with
  | invalid reason =>
    rcases hagrees with rfl | rfl
    · exact meets_ask_bind.2 ⟨trivial, fun _ _ => paymentRequired_meets (Or.inr rfl)⟩
    · exact meets_ask_bind.2 ⟨trivial, fun _ _ => paymentRequired_meets (Or.inr rfl)⟩
  | valid publicKey payer =>
    obtain rfl : ph = .accepted payload := hagrees
    refine meets_ask_bind.2 ⟨trivial, fun _ _ => meets_ask_bind.2 ⟨trivial, fun settle _ => ?_⟩⟩
    refine Stays.meets_bind (Stays.result _) (fun _ _ => ?_) fun _ _ => trivial
    refine meets_ask_bind.2 ⟨trivial, fun r _ => ?_⟩
    cases r <;> trivial

/-- A handler follows the protocol, whatever it is answered. -/
lemma getSignal_meets (crypto : Crypto) (cfg : ServerConfig) (req : Request) :
    Meets requestProtocol req.phase () (getSignal crypto cfg req) fun _ _ _ => True := by
  rw [getSignal]
  split
  · trivial
  · split
    · trivial
    · refine Stays.meets_bind (Stays.result _) (fun _ lot => ?_) fun _ _ => trivial
      have hmeta : Stays requestProtocol req.phase (ask .getAssetMeta id : Handler AssetMeta) := by
        refine stays_ask ?_ ?_
        · rw [Request.phase]
          split <;> first | rfl | trivial
        · intro r
          rw [Request.phase]
          split <;> rfl
      refine Stays.meets_bind hmeta (fun _ info => ?_) fun _ _ => trivial
      cases hsig : req.paymentSignature with
      | payload p =>
        rw [Request.phase, hsig]
        exact sellSignal_meets
      | missing =>
        rw [Request.phase, hsig]
        exact paymentRequired_meets (Or.inl rfl)
      | malformed message =>
        rw [Request.phase, hsig]
        exact paymentRequired_meets (Or.inl rfl)

lemma code_meets (crypto : Crypto) (cfg : ServerConfig) (req : Request) :
    ((server crypto cfg).code req).Meets requestProtocol req.phase fun _ _ => True :=
  Program.meets_bind.2 ((getSignal_meets crypto cfg req).mono fun _ _ _ _ => trivial)

/-- In every run, every handler follows the protocol. -/
theorem conforms {w : ServerWorld} (h : (signalServer crypto cfg).Reachable w) :
    Pool.Conforms requestProtocol Request.phase w :=
  Pool.conforms (code_meets crypto cfg) (fun _ _ _ _ _ _ => trivial) h

end

end ArwaAgent.X402
