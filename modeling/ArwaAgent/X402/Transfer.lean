import ArwaAgent.X402.Client
import ArwaAgent.X402.Soundness

/-!
# What the client signs

`Built` says what the client puts into a payment: the message that it hashes, and the same
data once more as texts.  The server reads the texts and makes the message again, the
address of the signer from a public key in place of a private one, the times from what is
written of them, the signature from the digits of its bytes.  Each of its checks passes.
-/

namespace ArwaAgent.X402

open Js Effects Effects.Code

/-- The key of an agent on the curve secp256k1, as the SDK and the curve are documented: a key
reads back from its digits and hashes to 64 digits, the point of the private key is that of the
public one, and a signature recovers to it for a recovery bit. -/
structure AgentKey (c : ClientCrypto) (pub : PublicKey) (priv : PrivateKey) (compressed : String) :
    Prop where
  cryptoAlg : pub.cryptoAlg = .secp256k1
  hex : pub.hex = "02" ++ compressed
  fromHex : c.publicKeyHex (.str pub.hex) = .ok pub.hex
  accountHash : c.accountHashHex (.str pub.hex) = .ok pub.accountHashHex
  accountHash_isHex : IsHex 64 pub.accountHashHex
  point : ∀ point, c.getPublicKey priv = .ok point →
    c.xCoordinate (hexBytes compressed.toList) = .ok (hexOf ((point.drop 1).take 32))
  sign : ∀ digest r s, c.sign digest priv = .ok (r, s) → r < 256 ^ 32 ∧ s < 256 ^ 32 ∧
    ∃ v ∈ [0, 1], c.recoverPublicKey r s v digest = .ok compressed

/-- What the client puts into a payment at a time in seconds. -/
inductive Built (c : ClientCrypto) (pub : PublicKey) (priv : PrivateKey)
    (requirements : PaymentRequirements) (now : ℕ) : Value → Prop
  | intro {endpoint sender digest : String} {domain : Value} {value : ℤ} {nonce : List ℕ} {r s : ℕ}
      (hsender : buildCasperAddressFromPublicKey c pub priv = .ok sender)
      (hdomain : c.buildDomain requirements.extra.name requirements.extra.version
        (removeStart "casper:" requirements.network) (last64 requirements.asset) = .ok domain)
      (hvalue : Value.bigIntOfString requirements.amount = .ok value)
      (hdigest : c.hashTypedData domain ⟨sender, .str requirements.payTo, value, now - 5,
        now + requirements.maxTimeoutSeconds, hexOf nonce⟩ = .ok digest)
      (hsign : c.sign digest priv = .ok (r, s))
      (hlength : nonce.length = 32) (hbytes : ∀ b ∈ nonce, b < 256)
      (hnow : now ≤ maxTimeValue / 1000) :
      Built c pub priv requirements now
        (paymentPayload endpoint requirements.toJson pub requirements.payTo
          (hexOf (2 :: (toBytes 32 r ++ toBytes 32 s)))
          (Number.toStr (.finite ((now - 5 : ℤ) : ℚ)))
          (Number.toStr (.finite ((now + requirements.maxTimeoutSeconds : ℤ) : ℚ))) (hexOf nonce))

/-! ### What each check asks for -/

section

variable {crypto : Crypto} {payload : Value} {requirements : PaymentRequirements} {now : ℕ}
  {n hash key sigHex account : String} {validAfter validBefore value : ℤ}

lemma checkFields_eq_none (hauth : (authorization payload).truthy = true)
    (hsig : (signature payload).truthy = true) (hkey : (publicKey payload).truthy = true)
    (hnetwork : (payload.field? "accepted").field? "network" = .str requirements.network)
    (hto : (authorization payload).field "to" = .ok (.str requirements.payTo))
    (hvalue : (authorization payload).field "value" = .ok (.str requirements.amount))
    (hnonce : (authorization payload).field "nonce" = .ok (.str n)) (hlength : length16 n = 64) :
    checkFields payload requirements = .ok none := by
  have hfield : (Value.str n).field "length" = .ok (.num (.finite 64)) := by
    rw [← Nat.cast_ofNat, ← hlength]
    rfl
  simp only [checkFields, hauth, hsig, hkey, hnetwork, hto, hvalue, hnonce]
  simp [bind, Except.bind, pure, Except.pure, Value.is, hfield, Value.isNumber]

lemma checkTimes_eq_none {after before : Value} {x y : Number}
    (hafter : (authorization payload).field "validAfter" = .ok after)
    (hbefore : (authorization payload).field "validBefore" = .ok before)
    (hx : after.toNumber = .ok x) (hy : before.toNumber = .ok y) (hreadsx : x.Reads validAfter)
    (hready : y.Reads validBefore) (hnow : now + 6 ≤ validBefore) (hle : validAfter ≤ now)
    (hsmall : validBefore < 2 ^ 53) : checkTimes payload now = .ok none := by
  have hcast : Number.finite now = Number.finite ((now : ℤ) : ℚ) := by rw [Int.cast_natCast]
  have habs : |(now : ℤ)| < 2 ^ 53 := by
    rw [abs_lt]
    omega
  have hexpired : y.lt (.finite now) = false := by
    rw [hcast, hready.lt_finite habs]
    exact decide_eq_false (by omega)
  have hearly : (Number.finite now).lt x = false := by
    rw [hcast, hreadsx.finite_lt habs]
    exact decide_eq_false (by omega)
  have hshort : (y.sub (.finite now)).lt (.finite 6) = false := by
    rw [hcast, hready.sub_finite (by rw [abs_lt]; omega) (by rw [abs_lt]; omega)]
    refine decide_eq_false ?_
    have : (6 : ℤ) ≤ validBefore - now := by omega
    exact not_lt.2 (by exact_mod_cast this)
  simp only [checkTimes, hafter, hbefore, bind, Except.bind, hx, hy, hexpired, hearly, hshort]
  rfl

lemma message_eq_ok {sender : String} {amount after before payee : Value}
    (hsender : signerAddress crypto payload = .ok sender)
    (hamount : (authorization payload).field "value" = .ok amount)
    (hvalue : amount.toBigInt = .ok value)
    (hafter : (authorization payload).field "validAfter" = .ok after)
    (hvalidAfter : after.toBigInt = .ok validAfter)
    (hbefore : (authorization payload).field "validBefore" = .ok before)
    (hvalidBefore : before.toBigInt = .ok validBefore)
    (hnonce : (authorization payload).field "nonce" = .ok (.str n)) (hn : IsHex 64 n)
    (hpayee : (authorization payload).field "to" = .ok payee) :
    message crypto payload = .ok ⟨sender, payee, value, validAfter, validBefore, n⟩ := by
  simp only [message, hsender, hamount, hvalue, hafter, hvalidAfter, hbefore, hvalidBefore, hnonce,
    hpayee, bind, Except.bind, asText, pure, Except.pure, hn.last64]

lemma digest_eq_ok {domain : Value} {m : TransferMessage}
    (hdomain : crypto.buildDomain requirements.extra.name requirements.extra.version
      (removeStart "casper:" requirements.network) (last64 requirements.asset) = .ok domain)
    (hmessage : message crypto payload = .ok m) (hhash : crypto.hashTypedData domain m = .ok hash) :
    digest crypto payload requirements = .ok hash :=
  bind_eq_ok.2 ⟨domain, hdomain, bind_eq_ok.2 ⟨m, hmessage, hhash⟩⟩

end

/-! ### What the client has built passes -/

section

variable {c : ClientCrypto} {pub : PublicKey} {priv : PrivateKey} {compressed : String}
  {requirements : PaymentRequirements} {now serverNow : ℕ} {payment : Value}

lemma isHex_nonce {nonce : List ℕ} (hlength : nonce.length = 32) (hbytes : ∀ b ∈ nonce, b < 256) :
    IsHex 64 (hexOf nonce) := by
  have := isHex_hexOf hbytes
  rwa [hlength] at this

lemma toBigInt_toStr {z : ℤ} (h : |z| < 10 ^ 15) :
    (Value.str (Number.toStr (.finite z))).toBigInt = .ok z := by
  rw [Value.toBigInt, Value.bigIntOfString, stringToBigInt_toStr h]

lemma signature_spec (r s : ℕ) :
    IsHex 130 (hexOf (2 :: (toBytes 32 r ++ toBytes 32 s))) ∧
      hexBytes (hexOf (2 :: (toBytes 32 r ++ toBytes 32 s))).toList =
        2 :: (toBytes 32 r ++ toBytes 32 s) ∧
      (2 :: (toBytes 32 r ++ toBytes 32 s)).length = 65 := by
  have hbytes : ∀ b ∈ 2 :: (toBytes 32 r ++ toBytes 32 s), b < 256 :=
    List.forall_mem_cons.2 ⟨by decide, List.forall_mem_append.2
      ⟨lt_of_mem_toBytes 32 r, lt_of_mem_toBytes 32 s⟩⟩
  have hlength : (2 :: (toBytes 32 r ++ toBytes 32 s)).length = 65 := by
    rw [List.length_cons, List.length_append, length_toBytes, length_toBytes]
  have hhex := isHex_hexOf hbytes
  rw [hlength] at hhex
  exact ⟨hhex, hexBytes_hexOf hbytes, hlength⟩

lemma truthy_of_toList {s : String} (h : s.toList ≠ []) : (Value.str s).truthy = true :=
  decide_eq_true (mt String.toList_eq_nil_iff.2 h)

lemma AgentKey.signerAddress (hkey : AgentKey c pub priv compressed) {sender : String}
    (hsender : buildCasperAddressFromPublicKey c pub priv = .ok sender)
    (hpublic : publicKey payment = .str pub.hex) :
    signerAddress c.toCrypto payment = .ok sender := by
  rw [buildCasperAddressFromPublicKey, hkey.cryptoAlg] at hsender
  obtain ⟨point, hpoint, hsender⟩ := bind_eq_ok.1 hsender
  cases hsender
  have hdigits : pub.hex.toList = '0' :: '2' :: compressed.toList := by
    rw [hkey.hex, String.toList_append]
    rfl
  refine bind_eq_ok.2 ⟨pub.hex, hpublic ▸ hkey.fromHex, ?_⟩
  rw [hdigits]
  exact bind_eq_ok.2 ⟨_, hkey.point point hpoint, rfl⟩

namespace Built

lemma nonce_eq_str (h : Built c pub priv requirements now payment) :
    ∃ n, nonce payment = .str n := by
  obtain ⟨-, -, -, -, -, -, -, -⟩ := h
  exact ⟨_, rfl⟩

lemma publicKey_eq (h : Built c pub priv requirements now payment) :
    publicKey payment = .str pub.hex := by
  obtain ⟨-, -, -, -, -, -, -, -⟩ := h
  rfl

/-- The times of a payment are exact as numbers. -/
lemma now_lt (h : Built c pub priv requirements now payment)
    (hmax : requirements.maxTimeoutSeconds ≤ 600) :
    now + requirements.maxTimeoutSeconds < 10 ^ 15 := by
  obtain ⟨-, -, -, -, -, -, -, hnow⟩ := h
  refine Nat.lt_of_le_of_lt (Nat.add_le_add hnow hmax) ?_
  decide

lemma checkFields (h : Built c pub priv requirements now payment)
    (hkey : AgentKey c pub priv compressed) : checkFields payment requirements = .ok none := by
  have hpublic := h.publicKey_eq
  obtain ⟨-, -, -, -, -, hlength, hbytes, -⟩ := h
  refine checkFields_eq_none rfl ?_ ?_ rfl rfl rfl rfl (isHex_nonce hlength hbytes).length16
  · refine truthy_of_toList (s := hexOf _) ?_
    rw [toList_hexOf_cons]
    exact List.cons_ne_nil _ _
  · rw [hpublic, hkey.hex]
    refine truthy_of_toList ?_
    rw [String.toList_append]
    exact List.cons_ne_nil _ _

lemma checkTimes (h : Built c pub priv requirements now payment)
    (hmax : requirements.maxTimeoutSeconds ≤ 600) (hafter : now ≤ serverNow + 5)
    (hbefore : serverNow + 6 ≤ now + requirements.maxTimeoutSeconds) :
    checkTimes payment serverNow = .ok none := by
  have hnow := h.now_lt hmax
  obtain ⟨-, -, -, -, -, -, -, -⟩ := h
  have hread := fun z h => reads_of_stringToBigInt (stringToBigInt_toStr (z := z) h)
  exact checkTimes_eq_none rfl rfl rfl rfl (hread _ (by rw [abs_lt]; omega))
    (hread _ (by rw [abs_lt]; omega)) (by omega) (by omega) (by omega)

lemma checkSignature (h : Built c pub priv requirements now payment)
    (hkey : AgentKey c pub priv compressed) (hmax : requirements.maxTimeoutSeconds ≤ 600) :
    checkSignature c.toCrypto payment requirements =
      .ok (.ok (accountHashWithPrefix pub.accountHashHex)) := by
  have hnow := h.now_lt hmax
  have hpublic := h.publicKey_eq
  have hfrom : parseAccountHash (.str (agentAccountHashV2 pub)) =
      .ok (last64 pub.accountHashHex) := by
    rw [agentAccountHashV2, hkey.accountHash_isHex.last64]
    exact parseAccountHash_tagged hkey.accountHash_isHex
  have hcompressed : String.ofList (pub.hex.toList.drop 2) = compressed := by
    rw [hkey.hex, String.toList_append, show "02".toList = ['0', '2'] from rfl]
    exact String.ofList_toList
  obtain @⟨endpoint, sender, hash, domain, value, nonce, r, s, hsender, hdomain, hvalue, hdigest,
    hsign, hlength, hbytes, -⟩ := h
  obtain ⟨hr, hs, hrecover⟩ := hkey.sign _ _ _ hsign
  rw [← ofBytes_toBytes hr, ← ofBytes_toBytes hs] at hrecover
  obtain ⟨hhex, hread, hlen⟩ := signature_spec r s
  have hmessage := message_eq_ok (hkey.signerAddress hsender hpublic) rfl hvalue rfl
    (toBigInt_toStr (by rw [abs_lt]; omega)) rfl (toBigInt_toStr (by rw [abs_lt]; omega)) rfl
    (isHex_nonce hlength hbytes) rfl
  have hdigest := digest_eq_ok hdomain hmessage hdigest
  have hrecovers : recovers _ (2 :: (toBytes 32 r ++ toBytes 32 s)) _ compressed = true :=
    recovers_of_mem (length_toBytes 32 r) (length_toBytes 32 s) hrecover
  rw [← hread, ← hcompressed] at hrecovers
  rw [← hread] at hlen
  have hchecked := checkSignature_eq_ok hdigest (signatureHex_eq rfl hhex) hlen
    hkey.fromHex hrecovers hkey.accountHash rfl hfrom
  rwa [hkey.accountHash_isHex.last64] at hchecked

end Built

end

end ArwaAgent.X402
