import ArwaAgent.Js.Json
import ArwaAgent.X402.Server

/-!
# The paying client

`payAndFetchViaX402` asks for a resource, and where the answer is 402 it builds a payment
from the requirements in the header of the answer, signs it with the key of the agent and
asks again.  The requests, the clock, the random numbers and the key files are calls; the
libraries are those of the server, with the functions that only a client needs.  Headers
stand for what they decode to: base64 and then JSON, which read back what they have written.
-/

namespace ArwaAgent.X402

open Js Effects Effects.Code

/-- `KeyAlgorithm` -/
inductive KeyAlgorithm
  | ed25519
  | secp256k1
  deriving DecidableEq

/-- What the client asks a public key for. -/
structure PublicKey where
  cryptoAlg : KeyAlgorithm
  /-- `pub.toHex()` -/
  hex : String
  /-- `pub.bytes()` -/
  bytes : List ℕ
  /-- `pub.accountHash().toHex()` -/
  accountHashHex : String

/-- The bytes of a private key. -/
abbrev PrivateKey : Type := List ℕ

/-- The libraries, with the functions that only the client calls. -/
structure ClientCrypto extends Crypto where
  /-- `PrivateKey.fromPem` -/
  fromPem : String → KeyAlgorithm → Except Error PrivateKey
  /-- `secp256k1.getPublicKey(k, false)`: the bytes of the point -/
  getPublicKey : PrivateKey → Except Error (List ℕ)
  /-- `secp256k1.sign`: the two numbers of the signature -/
  sign : String → PrivateKey → Except Error (ℕ × ℕ)
  /-- `buildDomain` with a name and a version as they come from outside -/
  buildDomainOf : Value → Value → String → String → Except Error Value
  /-- it is the same function -/
  buildDomainOf_str : ∀ name version chainName package, buildDomainOf (.str name) (.str version)
    chainName package = buildDomain name version chainName package

/-- The settings that the client reads. -/
structure ClientConfig where
  agentSecretKeyPath : String
  x402FacilitatorUrl : String

/-- The method of a request. -/
inductive Method
  | get
  | post

/-- The options of a fetch. -/
structure FetchOptions where
  method : Option Method
  body : Value
  privateKeyPath : Option String
  paymentAmountOverride : Option String

/-- A request, with the payment in its `PAYMENT-SIGNATURE` header. -/
structure HttpRequest where
  method : Method
  url : String
  data : Value
  paymentSignature : Option Value

/-- A response; a header that is missing or cannot be parsed is `none`. -/
structure HttpResponse where
  status : ℕ
  data : Value
  paymentRequired : Option Value
  paymentResponse : Option Value

/-- The calls of the client. -/
inductive ClientOp
  | request (r : HttpRequest)
  | getAgentKeys
  | dateNow
  | getRandomValues
  | readFile (path : String)

/-- What a call is answered with. -/
@[reducible] def ClientAns : ClientOp → Type
  | .request _ => Except Error HttpResponse
  | .getAgentKeys => Except Error (PublicKey × PrivateKey)
  | .dateNow => ℕ
  | .getRandomValues => List ℕ
  | .readFile _ => Except Error String

/-- Code of the client. -/
abbrev Client (α : Type) : Type :=
  Code ClientOp ClientAns Error Unit α

/-- The proof of a payment. -/
structure Proof where
  paymentHeader : Value
  settleTxHash : Value
  facilitator : String
  amountMotes : Value
  asset : String
  signedAt : ℕ

/-- What has been fetched, with the proof of the payment if there was one. -/
structure Fetched where
  data : Value
  proof : Option Proof
  raw : HttpResponse

/-! ### The typed data -/

section

variable (c : ClientCrypto)

/-- `buildCasperAddressFromPublicKey` -/
def buildCasperAddressFromPublicKey (pub : PublicKey) (priv : PrivateKey) : Except Error String :=
  match pub.cryptoAlg with
  | .ed25519 => .ok ("01" ++ hexOf pub.bytes)
  | .secp256k1 => do
    let uncompressed ← c.getPublicKey priv
    return "02" ++ hexOf ((uncompressed.drop 1).take 32)

/-- `agentAccountHashV2` -/
def agentAccountHashV2 (pub : PublicKey) : String :=
  "00" ++ last64 pub.accountHashHex

/-- The payee, the asset and the domain of the typed data, as the requirements say. -/
structure Target where
  payToV2 : String
  assetBytes32 : String
  domain : Value

/-- What is read from the requirements before the time is. -/
def target (reqs : Value) : Except Error Target := do
  let payTo ← asText ((reqs.ownField "payTo").orElse (.str "")) "(reqs.payTo ?? \"\")" "replace"
  let asset ← asText ((reqs.ownField "asset").orElse (.str "")) "(reqs.asset ?? \"\")" "replace"
  let assetBytes32 := last64 (removeStart "hash-" asset)
  let network ← asText (reqs.ownField "network") "reqs.network" "replace"
  let domain ← c.buildDomainOf
    (((reqs.ownField "extra").field? "name").orElse (.str "Casper x402"))
    (((reqs.ownField "extra").field? "version").orElse (.str "1"))
    (removeStart "casper:" network) assetBytes32
  return ⟨"00" ++ last64 (removeStart "00" (removeStart "account-hash-" payTo)), assetBytes32,
    domain⟩

/-- The times between which a payment is valid, in seconds. -/
structure Validity where
  validAfter : Value
  validBefore : Value

/-- Five seconds back, and as long as the server waits. -/
def validity (now : ℕ) (reqs : Value) : Except Error Validity := do
  let before ← ((reqs.ownField "maxTimeoutSeconds").orElse (.num (.finite 600))).addTo (.finite now)
  return ⟨.num ((Number.finite now).sub (.finite 5)), before⟩

/-- The digest of the message. -/
def messageDigest (sender : String) (t : Target) (v : Validity) (nonceHex : String)
    (reqs : Value) : Except Error String := do
  let value ← (reqs.ownField "amount").toBigInt
  let validAfter ← v.validAfter.toBigInt
  let validBefore ← v.validBefore.toBigInt
  c.hashTypedData t.domain ⟨sender, .str t.payToV2, value, validAfter, validBefore, nonceHex⟩

/-! ### Signing -/

/-- `signEip712Digest`: the algorithm, the first two digits of the public key, and then the two
numbers. -/
def signEip712Digest (signedMessage : String) (privateKeyBytes : PrivateKey)
    (publicKeyCompressedHex : String) : Except Error (List ℕ) :=
  if privateKeyBytes.length ≠ 32 then
    .error ⟨s!"private key must be 32 bytes, got {privateKeyBytes.length}"⟩
  else do
    let (r, s) ← c.sign signedMessage privateKeyBytes
    let algo := ofDigits 16 ((publicKeyCompressedHex.toList.take 2).takeWhile (isDigitOf 16))
    return algo :: (toBytes 32 r ++ toBytes 32 s)

/-- The private key in a file, with its algorithm. -/
def parseKey (pem : String) : Except Error (PrivateKey × KeyAlgorithm) :=
  match c.fromPem pem .secp256k1 with
  | .ok privateKey => .ok (privateKey, .secp256k1)
  | .error _ => do
    let privateKey ← c.fromPem pem .ed25519
    return (privateKey, .ed25519)

/-- The signature of a digest by the key in a file, in hexadecimal digits. -/
def signDigest (digest pem : String) (pub : PublicKey) : Except Error String := do
  let (privateKey, algo) ← parseKey c pem
  if algo ≠ .secp256k1 then .error ⟨"x402 v2 on Casper currently requires a SECP256K1 key"⟩
  else
    let sigBytes ← signEip712Digest c digest privateKey pub.hex
    return hexOf sigBytes

/-! ### The payment -/

/-- The payload of a payment. -/
def paymentPayload (endpoint : String) (reqs : Value) (pub : PublicKey)
    (payToV2 signature validAfter validBefore nonceHex : String) : Value :=
  .obj [
    ("x402Version", .num (.finite 2)),
    ("resource", .obj [("url", .str endpoint)]),
    ("accepted", reqs),
    ("payload", .obj [
      ("signature", .str signature),
      ("publicKey", .str pub.hex),
      ("authorization", .obj [
        ("from", .str (agentAccountHashV2 pub)),
        ("to", .str payToV2),
        ("value", reqs.ownField "amount"),
        ("validAfter", .str validAfter),
        ("validBefore", .str validBefore),
        ("nonce", .str nonceHex)])])]

/-- A payment, with what the proof of it repeats. -/
structure Payment where
  payload : Value
  assetBytes32 : String
  now : ℕ

/-- Steps 3 to 6: the payment for some requirements. -/
def buildPayment (pkPath endpoint : String) (reqs : Value) : Client Payment := do
  let (pub, priv) ← ask .getAgentKeys id
  let sender ← result (buildCasperAddressFromPublicKey c pub priv)
  let t ← result (target c reqs)
  let ms ← ask .dateNow .ok
  let v ← result (validity (ms / 1000) reqs)
  let nonce ← ask .getRandomValues .ok
  let digest ← result (messageDigest c sender t v (hexOf nonce) reqs)
  let pem ← ask (.readFile pkPath) id
  let signature ← result (signDigest c digest pem pub)
  let validAfter ← result v.validAfter.toStr
  let validBefore ← result v.validBefore.toStr
  return ⟨paymentPayload endpoint reqs pub t.payToV2 signature validAfter validBefore (hexOf nonce),
    t.assetBytes32, ms / 1000⟩

/-- The hash of the settlement in a response; what cannot be read is empty. -/
def settleTxHash (paymentResponse : Option Value) : Value :=
  match paymentResponse with
  | none => .str ""
  | some r =>
    (((r.field? "transaction").orElse (r.field? "deployHash")).orElse (r.field? "txHash")).orElse
      (.str "")

/-- The error of a paid request that fails. -/
def requestFailed (final : HttpResponse) : Error :=
  match Json.stringify final.data with
  | some text => ⟨s!"x402 paid request failed: {final.status} {cut 200 (String.ofList text)}"⟩
  | none => ⟨"Cannot read properties of undefined (reading 'slice')"⟩

/-- `payAndFetchViaX402` -/
def payAndFetchViaX402 (cfg : ClientConfig) (endpoint : String) (options : FetchOptions) :
    Client Fetched := do
  let method := options.method.getD .get
  let pkPath := options.privateKeyPath.getD cfg.agentSecretKeyPath
  let initial ← ask (.request ⟨method, endpoint, options.body, none⟩) id
  if initial.status ≠ 402 then return ⟨initial.data, none, initial⟩
  else
    match initial.paymentRequired.filter Value.truthy with
    | none => throw ⟨"402 returned but no parseable PAYMENT-REQUIRED header"⟩
    | some header =>
      let reqs := match options.paymentAmountOverride with
        | some amount => if amount ≠ "" then header.withField "amount" (.str amount) else header
        | none => header
      let payment ← buildPayment c pkPath endpoint reqs
      let final ← ask (.request ⟨method, endpoint, options.body, some payment.payload⟩) id
      if 400 ≤ final.status then throw (requestFailed final)
      else
        return ⟨final.data,
          some
            { paymentHeader := payment.payload
              settleTxHash := settleTxHash final.paymentResponse
              facilitator := cfg.x402FacilitatorUrl
              amountMotes := reqs.ownField "amount"
              asset := "hash-" ++ payment.assetBytes32
              signedAt := payment.now },
          final⟩

end

end ArwaAgent.X402
