import ArwaAgent.Js.Text
import ArwaAgent.Lib.Program

/-!
# The signal server

The handler of `GET /signal`, with the verification of a payment.  The set of used
nonces and the clock are calls, and so is everything that the handler awaits; the SDK
and the elliptic curve are functions that may throw.  `verdict` marks the moment at
which the handler has the result of the verification.
-/

namespace ArwaAgent.X402

open Js Effects Effects.Code

/-- The settings of the server. -/
structure ServerConfig where
  demoEnabled : Bool
  asset : String
  priceMotes : String
  payeeHex : String
  network : String

/-- `PAYEE_HEX` -/
def payeeHex (address : Option String) : String :=
  last64 (removeStart "account-hash-" (address.getD ""))

/-- `DEFAULT_WCSPR_TESTNET` -/
def defaultWcsprTestnet : String :=
  "3d80df21ba4ee4d66a2a1f60c32570dd5685e4b279f6538162a5fd1314847c1e"

/-- The variables of the environment that the server reads. -/
structure ServerEnv where
  x402DemoServerEnabled : Option String
  x402Cep18PackageHash : Option String
  signalPriceMotes : Option String
  x402PayeeAddress : Option String
  casperNetwork : Option String

/-- The settings that the server takes from its environment. -/
def ServerEnv.config (env : ServerEnv) : ServerConfig where
  demoEnabled := env.x402DemoServerEnabled ≠ some "false"
  asset :=
    let asset := removeText "hash-" (env.x402Cep18PackageHash.getD "")
    if asset = "" then defaultWcsprTestnet else asset
  priceMotes := env.signalPriceMotes.getD "1000000"
  payeeHex := payeeHex env.x402PayeeAddress
  network := if env.casperNetwork = some "casper" then "casper:casper" else "casper:casper-test"

/-- What the server knows about the asset. -/
structure AssetMeta where
  name : String
  version : String
  decimals : Number
  symbol : String

/-- The domain of the typed data, as the server announces it. -/
structure RequirementsExtra where
  name : String
  version : String
  decimals : String
  symbol : String

/-- What a payment has to satisfy. -/
structure PaymentRequirements where
  scheme : String
  network : String
  payTo : String
  amount : String
  asset : String
  maxTimeoutSeconds : ℕ
  extra : RequirementsExtra

/-- The message that a payment signs. -/
structure TransferMessage where
  sender : String
  payee : Value
  value : ℤ
  validAfter : ℤ
  validBefore : ℤ
  nonce : String

/-- The functions of the SDK, of the typed-data library and of the elliptic curve. -/
structure Crypto where
  /-- `PublicKey.fromHex(k).toHex()` -/
  publicKeyHex : Value → Except Error String
  /-- `PublicKey.fromHex(k).accountHash().toHex()` -/
  accountHashHex : Value → Except Error String
  /-- the coordinate x of a compressed point, in hexadecimal digits -/
  xCoordinate : List ℕ → Except Error String
  /-- `buildDomain` -/
  buildDomain : String → String → String → String → Except Error Value
  /-- `hashTypedData`, in hexadecimal digits -/
  hashTypedData : Value → TransferMessage → Except Error String
  /-- the compressed key that a signature recovers to, for a recovery bit -/
  recoverPublicKey : ℕ → ℕ → ℕ → String → Except Error String

/-- The result of the verification. -/
inductive Verification
  | valid (publicKey : Value) (payer : String)
  | invalid (reason : String)

/-- Who has settled a payment. -/
inductive SettlementMode
  | facilitator
  | localFallback

/-- What the facilitator has made of a payment. -/
structure Settlement where
  ok : Bool
  mode : SettlementMode
  settleTxHash : Value
  reason : Option String

/-- The calls of a handler. -/
inductive ServerOp
  | getAssetMeta
  | hasNonce (nonce : Value)
  | dateNow
  | addNonce (nonce : Value)
  | verdict (v : Verification)
  | forwardToFacilitator (payload : Value) (paymentRequirements : PaymentRequirements)
  | computeForecast (lot : String)

/-- What a call is answered with. -/
@[reducible] def ServerAns : ServerOp → Type
  | .getAssetMeta => Except Error AssetMeta
  | .hasNonce _ => Bool
  | .dateNow => ℕ
  | .addNonce _ => Unit
  | .verdict _ => Unit
  | .forwardToFacilitator _ _ => Settlement
  | .computeForecast _ => Except Error Value

/-- Code of the server. -/
abbrev Handler (α : Type) : Type :=
  Code ServerOp ServerAns Error Unit α

/-! ### Account hashes -/

/-- `accountHashWithPrefix` -/
def accountHashWithPrefix (hex : String) : String :=
  "00" ++ last64 (removeZeros hex)

/-- The text of a value, for a method that only strings have; `name` is what the code calls the
value. -/
def asText (v : Value) (name method : String) : Except Error String :=
  match v with
  | .str s => .ok s
  | v => do
    let _ ← v.field method
    .error ⟨s!"{name}.{method} is not a function"⟩

/-- `parseAccountHash` -/
def parseAccountHash (s : Value) : Except Error String := do
  let t ← asText s "s" "replace"
  return last64 (removeStart "00" (removeStart "account-hash-" t))

/-! ### The verification -/

section

variable (crypto : Crypto) (payload : Value) (requirements : PaymentRequirements)

/-- `payload?.payload?.authorization` -/
def authorization : Value :=
  (payload.field? "payload").field? "authorization"

/-- `payload?.payload?.signature` -/
def signature : Value :=
  (payload.field? "payload").field? "signature"

/-- `payload?.payload?.publicKey` -/
def publicKey : Value :=
  (payload.field? "payload").field? "publicKey"

/-- `auth.nonce` of an authorization that is there. -/
def nonce : Value :=
  (authorization payload).ownField "nonce"

/-- The checks on the fields before the nonce is looked up: a reason to reject the payment, or
none. -/
def checkFields : Except Error (Option String) := do
  let auth := authorization payload
  let acceptedNetwork := (payload.field? "accepted").field? "network"
  if !auth.truthy || !(signature payload).truthy || !(publicKey payload).truthy then
    return some "missing fields in payload"
  else if acceptedNetwork.truthy && !acceptedNetwork.is requirements.network then
    return some "network_mismatch"
  else if !(← auth.field "to").is requirements.payTo then
    return some "pay_to_mismatch"
  else if !(← auth.field "value").is requirements.amount then
    return some "amount_mismatch"
  else
    -- a list of 64 elements passes as well
    let length ← (← auth.field "nonce").field "length"
    if length.isNumber 64 then return none
    else return some "malformed_payload (nonce != 64 chars)"

/-- The checks on the time, in seconds. -/
def checkTimes (now : ℕ) : Except Error (Option String) := do
  let auth := authorization payload
  -- a field that is missing is not a number, and passes every comparison
  let before ← (← auth.field "validBefore").toNumber
  if before.lt (.finite now) then
    return some "payload_expired"
  else
    let after ← (← auth.field "validAfter").toNumber
    if (Number.finite now).lt after then
      return some "not_yet_valid"
    else if (before.sub (.finite now)).lt (.finite 6) then
      return some "insufficient_time"
    else return none

/-- The address of the signer in the typed data: the algorithm and the coordinate x. -/
def signerAddress : Except Error String := do
  let hex ← crypto.publicKeyHex (publicKey payload)
  let x ← crypto.xCoordinate (hexBytes (hex.toList.drop 2))
  return String.ofList (hex.toList.take 2) ++ x

/-- The message that the payment should have signed. -/
def message : Except Error TransferMessage := do
  let auth := authorization payload
  let sender ← signerAddress crypto payload
  let value ← (← auth.field "value").toBigInt
  let validAfter ← (← auth.field "validAfter").toBigInt
  let validBefore ← (← auth.field "validBefore").toBigInt
  let nonce ← asText (← auth.field "nonce") "auth.nonce" "padStart"
  return ⟨sender, ← auth.field "to", value, validAfter, validBefore, last64 nonce⟩

/-- The digest of the typed data. -/
def digest : Except Error String := do
  let domain ← crypto.buildDomain requirements.extra.name requirements.extra.version
    (removeStart "casper:" requirements.network) (last64 requirements.asset)
  crypto.hashTypedData domain (← message crypto payload)

/-- `signature.replace(/^0x/, '').padEnd(130, '0').slice(0, 130)` -/
def signatureHex : Except Error String := do
  let s ← asText (signature payload) "signature" "replace"
  return String.ofList (slice16 130 (padEnd 130 '0' (removeStart "0x" s)).toList)

/-- Whether the signature recovers to a compressed key, for one of the two recovery bits. -/
def recovers (sigBytes : List ℕ) (hash compressed : String) : Bool :=
  [0, 1].any fun v =>
    match crypto.recoverPublicKey (ofBytes ((sigBytes.drop 1).take 32))
      (ofBytes ((sigBytes.drop 33).take 32)) v hash with
    | .ok key => key = compressed
    | .error _ => false

/-- The first characters of a text. -/
def cut (n : ℕ) (s : String) : String :=
  String.ofList (slice16 n s.toList)

/-- Steps 2 to 4: the payer of a payment that is signed by the key and from the account that it
names, or the reason to reject it. -/
def checkSignature : Except Error (Except String String) := do
  let hash ← digest crypto payload requirements
  let sigHex ← signatureHex payload
  let sigBytes := hexBytes sigHex.toList
  if sigBytes.length ≠ 65 then
    return .error s!"signature must be 65 bytes, got {sigBytes.length} (hex: {cut 40 sigHex}…)"
  else
    match crypto.publicKeyHex (publicKey payload) with
    | .error e => return .error s!"malformed public key: {cut 60 e.message}"
    | .ok hex =>
      let compressed := String.ofList (hex.toList.drop 2)
      if !recovers crypto sigBytes hash compressed then
        return .error s!"signature does not match public key (digest={cut 16 hash}…, expectedPub={cut 16 compressed}…, sigAlgo={sigBytes.headD 0})"
      else
        let recovered := last64 (← crypto.accountHashHex (publicKey payload))
        let expected ← parseAccountHash (← (authorization payload).field "from")
        if recovered ≠ expected then
          return .error s!"from_mismatch: expected {cut 8 expected}…, got {cut 8 recovered}…"
        else return .ok (accountHashWithPrefix recovered)

/-- What follows the look-up of an unused nonce. -/
def verifyUnused : Handler Verification := do
  let ms ← ask .dateNow .ok
  match ← result (checkTimes payload (ms / 1000)) with
  | some reason => return .invalid reason
  | none =>
    -- the only `await`: other handlers may run here
    let _ ← ask .getAssetMeta id
    match ← result (checkSignature crypto payload requirements) with
    | .error reason => return .invalid reason
    | .ok payer =>
      ask (.addNonce (nonce payload)) .ok
      return .valid (publicKey payload) payer

/-- The verification of a payment; an exception is a reason to reject it. -/
def verifyX402V2Signature : Handler Verification :=
  tryCatch (do
      match ← result (checkFields payload requirements) with
      | some reason => return .invalid reason
      | none =>
        let used ← ask (.hasNonce (nonce payload)) .ok
        if used then return .invalid "nonce already used (replay)"
        else verifyUnused crypto payload requirements)
    fun e => return .invalid s!"exception: {cut 80 e.message}"

end

/-! ### The handler -/

/-- The `PAYMENT-SIGNATURE` of a request, decoded: base64 and then JSON. -/
inductive PaymentSignature
  | missing
  | malformed (message : String)
  | payload (v : Value)

/-- A request for a signal. -/
structure Request where
  lot : Value
  paymentSignature : PaymentSignature

/-- How a request is answered. -/
inductive Response
  | unavailable (error : String)
  | paymentRequired (reason : Option String) (requirements : PaymentRequirements)
  | signal (forecast : Value) (settlement : Settlement)

section

variable (crypto : Crypto) (cfg : ServerConfig) (req : Request)

/-- The requirements for a payment, with what is known about the asset. -/
def requirementsOf (info : AssetMeta) : PaymentRequirements where
  scheme := "exact"
  network := cfg.network
  payTo := accountHashWithPrefix cfg.payeeHex
  amount := cfg.priceMotes
  asset := cfg.asset
  maxTimeoutSeconds := 600
  extra :=
    { name := "Casper x402"
      version := info.version
      decimals := info.decimals.toStr
      symbol := info.symbol }

/-- The requirements as the JSON of the `PAYMENT-REQUIRED` header. -/
def PaymentRequirements.toJson (r : PaymentRequirements) : Value :=
  .obj [
    ("scheme", .str r.scheme),
    ("network", .str r.network),
    ("payTo", .str r.payTo),
    ("amount", .str r.amount),
    ("asset", .str r.asset),
    ("maxTimeoutSeconds", .num (.finite r.maxTimeoutSeconds)),
    ("extra", .obj [
      ("name", .str r.extra.name),
      ("version", .str r.extra.version),
      ("decimals", .str r.extra.decimals),
      ("symbol", .str r.extra.symbol)])]

/-- The 402 answer. -/
def paymentRequired (reason : Option String) : Handler Response := do
  let info ← ask .getAssetMeta id
  return .paymentRequired reason (requirementsOf cfg info)

/-- The log line about a settlement cuts its transaction hash. -/
def logSettlement (settle : Settlement) : Except Error Unit :=
  if settle.ok then
    match settle.settleTxHash with
    | .undefined | .null | .str _ | .arr _ => .ok ()
    | _ => .error ⟨"settle.settleTxHash?.slice is not a function"⟩
  else .ok ()

/-- Steps 1 to 4 for a decoded payment. -/
def sellSignal (lot : String) (payload : Value) (requirements : PaymentRequirements) :
    Handler Response := do
  let v ← verifyX402V2Signature crypto payload requirements
  -- nothing in the source: it marks in the log what the verification has returned
  ask (.verdict v) .ok
  match v with
  | .invalid reason => paymentRequired cfg (some reason)
  | .valid _ _ =>
    -- the signal is sold whatever the settlement says
    let settle ← ask (.forwardToFacilitator payload requirements) .ok
    let _ ← result (logSettlement settle)
    let forecast ← ask (.computeForecast lot) id
    return .signal forecast settle

/-- `GET /signal` -/
def getSignal : Handler Response := do
  if !cfg.demoEnabled then return .unavailable "service disabled"
  else if cfg.asset = "" then return .unavailable "X402_CEP18_PACKAGE_HASH not configured"
  else
    let lot ← result (req.lot.orElse (.str "P1 - Gate Keluar Utama")).toStr
    let info ← ask .getAssetMeta id
    match req.paymentSignature with
    | .missing => paymentRequired cfg none
    | .malformed _ => paymentRequired cfg (some "malformed_payload")
    | .payload payload => sellSignal crypto cfg lot payload (requirementsOf cfg info)

end

end ArwaAgent.X402
