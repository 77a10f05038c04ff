import ArwaAgent.Lib.Returns
import ArwaAgent.X402.Transfer

/-!
# The server accepts what the client sends

The payee and the asset come from the environment of the server, with or without a prefix,
and the client takes them from the header that the server has made of them.  What it builds
is `Built` for the requirements of the server, so that every payment of a run of the client
passes in every run of the verification, as long as the clocks agree and the nonce is unused.
-/

namespace ArwaAgent.X402

open Js Effects Effects.Code

/-- A hash in hexadecimal digits: all its 64 digits with anything before them, or some digits, zeros
in front being left out, with the tag or nothing before them. -/
def IsHash (tag s : String) : Prop :=
  ∃ before h, s = before ++ h ∧
    (IsHex 64 h ∨ (before = "" ∨ before = tag) ∧ ∃ n, IsHex n h)

/-! ### What the client builds from the header -/

section

variable {c : ClientCrypto} {pub : PublicKey} {priv : PrivateKey} {compressed : String}
  {requirements : PaymentRequirements} {now : ℕ}

/-- The header says what the server itself takes for the payee and the asset. -/
structure Normal (requirements : PaymentRequirements) : Prop where
  payTo : ∃ h, requirements.payTo = "00" ++ h ∧ IsHex 64 h
  asset : last64 (removeStart "hash-" requirements.asset) = last64 requirements.asset

lemma target_toJson (h : Normal requirements) {t : Target}
    (ht : target c requirements.toJson = .ok t) :
    t.payToV2 = requirements.payTo ∧
      c.buildDomain requirements.extra.name requirements.extra.version
        (removeStart "casper:" requirements.network) (last64 requirements.asset) =
          .ok t.domain := by
  obtain ⟨payee, hpayee, hhex⟩ := h.payTo
  obtain ⟨payTo, hpayTo, ht⟩ := bind_eq_ok.1 ht
  obtain ⟨asset, hasset, ht⟩ := bind_eq_ok.1 ht
  obtain ⟨network, hnetwork, ht⟩ := bind_eq_ok.1 ht
  obtain ⟨domain, hdomain, ht⟩ := bind_eq_ok.1 ht
  cases ht
  obtain rfl : requirements.payTo = payTo := Except.ok.inj hpayTo
  obtain rfl : requirements.asset = asset := Except.ok.inj hasset
  obtain rfl : requirements.network = network := Except.ok.inj hnetwork
  rw [h.asset] at hdomain
  refine ⟨?_, (c.buildDomainOf_str ..).symm.trans hdomain⟩
  have htagged := parseAccountHash_tagged hhex
  rw [← hpayee] at htagged
  show "00" ++ last64 _ = _
  rw [Except.ok.inj htagged, hpayee]

lemma validity_toJson (hnow : now + requirements.maxTimeoutSeconds < 10 ^ 15) :
    validity now requirements.toJson =
      .ok ⟨.num (.finite ((now - 5 : ℤ) : ℚ)),
        .num (.finite ((now + requirements.maxTimeoutSeconds : ℤ) : ℚ))⟩ := by
  have hsub : (Number.finite now).sub (.finite 5) = .finite ((now - 5 : ℤ) : ℚ) :=
    Number.finite_sub_finite (by push_cast; rfl) (by rw [abs_lt]; omega)
  have hadd : (Number.finite now).add (.finite requirements.maxTimeoutSeconds) =
      .finite ((now + requirements.maxTimeoutSeconds : ℤ) : ℚ) := by
    refine Number.finite_sub_finite ?_ (by rw [abs_lt]; omega)
    rw [sub_neg_eq_add]
    push_cast
    rfl
  rw [← hsub, ← hadd]
  rfl

lemma messageDigest_toJson {sender nonceHex digest : String} {t : Target} {after before : ℤ}
    (h : messageDigest c sender t ⟨.num (.finite after), .num (.finite before)⟩ nonceHex
      requirements.toJson = .ok digest) :
    ∃ value, Value.bigIntOfString requirements.amount = .ok value ∧
      c.hashTypedData t.domain ⟨sender, .str t.payToV2, value, after, before, nonceHex⟩ =
        .ok digest := by
  obtain ⟨value, hvalue, h⟩ := bind_eq_ok.1 h
  rw [Value.toBigInt_intCast, Value.toBigInt_intCast] at h
  exact ⟨value, hvalue, h⟩

lemma signDigest_eq_ok (hkey : AgentKey c pub priv compressed) {digest pem sig : String}
    (hpem : c.fromPem pem .secp256k1 = .ok priv) (h : signDigest c digest pem pub = .ok sig) :
    ∃ r s, c.sign digest priv = .ok (r, s) ∧
      sig = hexOf (2 :: (toBytes 32 r ++ toBytes 32 s)) := by
  have halgo : ofDigits 16 ((pub.hex.toList.take 2).takeWhile (isDigitOf 16)) = 2 := by
    have htake : pub.hex.toList.take 2 = ['0', '2'] := by
      rw [hkey.hex, String.toList_append]
      rfl
    rw [htake]
    decide
  have hparse : parseKey c pem = .ok (priv, .secp256k1) := by rw [parseKey, hpem]
  rw [signDigest, hparse] at h
  have h : signEip712Digest c digest priv pub.hex >>= _ = _ := h
  obtain ⟨sigBytes, hbytes, h⟩ := bind_eq_ok.1 h
  cases h
  rw [signEip712Digest] at hbytes
  split at hbytes
  next => cases hbytes
  next =>
    obtain ⟨⟨r, s⟩, hsign, hbytes⟩ := bind_eq_ok.1 hbytes
    cases hbytes
    exact ⟨r, s, hsign, by rw [halgo]⟩

end

/-! ### A payment and its verification -/

section

variable {c : ClientCrypto} {pub : PublicKey} {priv : PrivateKey} {compressed : String}
  {requirements : PaymentRequirements} {now serverNow : ℕ} {payment : Value}

/-- The payment that a call sends. -/
def ClientOp.sends : ClientOp → Option Value
  | .request r => r.paymentSignature
  | _ => none

/-- The answers in a second of the clock: the 402 response of the server, the key of the agent,
also from its file, and 32 random bytes, as far as a call succeeds. -/
def ClientAnswer (c : ClientCrypto) (pub : PublicKey) (priv : PrivateKey)
    (requirements : PaymentRequirements) (now : ℕ) : (op : ClientOp) → ClientAns op → Prop
  | .request _, r => ∀ response, r = .ok response → response.status = 402 →
    response.paymentRequired = some requirements.toJson
  | .getAgentKeys, r => ∀ keys, r = .ok keys → keys = (pub, priv)
  | .dateNow, ms => ms ≤ maxTimeValue ∧ ms / 1000 = now
  | .getRandomValues, bytes => bytes.length = 32 ∧ ∀ b ∈ bytes, b < 256
  | .readFile _, r => ∀ pem, r = .ok pem → c.fromPem pem .secp256k1 = .ok priv

/-- How the calls of a client are answered, and which payments it has sent. -/
def clientAnswers (c : ClientCrypto) (pub : PublicKey) (priv : PrivateKey)
    (requirements : PaymentRequirements) (now : ℕ) (sent : List Value) (op : ClientOp)
    (r : ClientAns op) (sent' : List Value) : Prop :=
  ClientAnswer c pub priv requirements now op r ∧ sent' = op.sends.toList ++ sent

/-- The client sends only what is built for the requirements. -/
def clientMonitor (c : ClientCrypto) (pub : PublicKey) (priv : PrivateKey)
    (requirements : PaymentRequirements) (now : ℕ) : Monitor ClientOp ClientAns Unit where
  allows := fun _ op => ∀ p ∈ op.sends, Built c pub priv requirements now p
  expects := fun _ => ClientAnswer c pub priv requirements now
  next := fun s _ _ => s

lemma buildPayment_meets (hkey : AgentKey c pub priv compressed) (hnormal : Normal requirements)
    (hmax : requirements.maxTimeoutSeconds ≤ 600) {pkPath endpoint : String} :
    Returns (clientMonitor c pub priv requirements now) () ()
      (buildPayment c pkPath endpoint requirements.toJson) fun _ _ payment =>
        Built c pub priv requirements now payment.payload := by
  refine Returns.ask_bind nofun fun r keys hkeys hr => ?_
  obtain rfl := hkeys keys hr
  refine Returns.result_bind fun sender hsender => ?_
  refine Returns.result_bind fun t ht => ?_
  refine Returns.ask_bind nofun fun ms ms' hms hread => ?_
  obtain rfl : ms = ms' := Except.ok.inj hread
  obtain ⟨hms, rfl⟩ := hms
  have hnow : ms / 1000 ≤ maxTimeValue / 1000 := Nat.div_le_div_right hms
  have hbound : ms / 1000 + requirements.maxTimeoutSeconds < 10 ^ 15 :=
    Nat.lt_of_le_of_lt (Nat.add_le_add hnow hmax) (by decide)
  refine Returns.result_bind fun v hv => ?_
  rw [validity_toJson hbound] at hv
  cases hv
  refine Returns.ask_bind nofun fun nonce nonce' hnonce hread => ?_
  obtain rfl : nonce = nonce' := Except.ok.inj hread
  refine Returns.result_bind fun digest hdigest => ?_
  refine Returns.ask_bind nofun fun r pem hpem hr => ?_
  refine Returns.result_bind fun sig hsig => ?_
  obtain ⟨hpayTo, hdomain⟩ := target_toJson hnormal ht
  obtain ⟨value, hvalue, hhash⟩ := messageDigest_toJson hdigest
  obtain ⟨r, s, hsign, rfl⟩ := signDigest_eq_ok hkey (hpem pem hr) hsig
  rintro payment ⟨⟩
  rw [hpayTo] at hhash ⊢
  exact .intro hsender hdomain hvalue hhash hsign hnonce.1 hnonce.2 hnow

lemma sent_next (s : Unit) (sent : List Value) (op : ClientOp) (r : ClientAns op)
    (sent' : List Value) (hsent : ∀ p ∈ sent, Built c pub priv requirements now p)
    (hallows : (clientMonitor c pub priv requirements now).allows s op)
    (h : clientAnswers c pub priv requirements now sent op r sent') :
    (clientMonitor c pub priv requirements now).expects s op r ∧
      ∀ p ∈ sent', Built c pub priv requirements now p := by
  obtain ⟨hans, rfl⟩ := h
  refine ⟨hans, fun p hp => ?_⟩
  rcases List.mem_append.1 hp with hp | hp
  · exact hallows p (Option.mem_toList.1 hp)
  · exact hsent p hp

/-- Every payment that the client sends is built for the requirements. -/
lemma payAndFetchViaX402_meets (hkey : AgentKey c pub priv compressed)
    (hnormal : Normal requirements) (hmax : requirements.maxTimeoutSeconds ≤ 600)
    {cfg : ClientConfig} {endpoint : String} {options : FetchOptions}
    (hoverride : options.paymentAmountOverride = none) :
    Returns (clientMonitor c pub priv requirements now) () ()
      (payAndFetchViaX402 c cfg endpoint options) fun _ _ _ => True := by
  refine Returns.ask_bind nofun fun r initial hresponse hr => ?_
  split
  next => exact Returns.pure trivial
  next h402 =>
    rw [hresponse initial hr (not_not.1 h402), hoverride]
    refine Returns.bind (buildPayment_meets hkey hnormal hmax) fun _ _ payment hbuilt => ?_
    refine Returns.ask_bind ?_ fun r final _ _ => ?_
    · rintro _ ⟨⟩
      exact hbuilt
    · split
      · exact fun _ _ => trivial
      · exact Returns.pure trivial

end

/-! ### The client pays -/

/-- The libraries compute: the key has 32 bytes and a point, and the typed data has a digest, which
the key signs. -/
structure Computes (c : ClientCrypto) (priv : PrivateKey) : Prop where
  length : priv.length = 32
  point : ∃ point, c.getPublicKey priv = .ok point
  domain : ∀ name version chainName package, ∃ domain,
    c.buildDomain name version chainName package = .ok domain
  digest : ∀ domain m, ∃ digest, c.hashTypedData domain m = .ok digest
  sign : ∀ domain m digest, c.hashTypedData domain m = .ok digest →
    ∃ r s, c.sign digest priv = .ok (r, s)

/-- The keys can be read, and a request without a payment is answered 402. -/
def ClientServed : (op : ClientOp) → ClientAns op → Prop
  | .request q, r =>
    q.paymentSignature = none → ∃ response, r = .ok response ∧ response.status = 402
  | .getAgentKeys, r => r.isOk = true
  | .readFile _, r => r.isOk = true
  | _, _ => True

/-- How the calls of a client are answered when it can pay. -/
def servedAnswers (c : ClientCrypto) (pub : PublicKey) (priv : PrivateKey)
    (requirements : PaymentRequirements) (now : ℕ) (sent : List Value) (op : ClientOp)
    (r : ClientAns op) (sent' : List Value) : Prop :=
  clientAnswers c pub priv requirements now sent op r sent' ∧ ClientServed op r

/-- The payments that a client has sent which can pay. -/
def servedMonitor (c : ClientCrypto) (pub : PublicKey) (priv : PrivateKey)
    (requirements : PaymentRequirements) (now : ℕ) : Monitor ClientOp ClientAns (List Value) where
  allows := fun _ _ => True
  expects := fun _ op r => ClientAnswer c pub priv requirements now op r ∧ ClientServed op r
  next := fun sent op _ => op.sends.toList ++ sent

section

variable {c : ClientCrypto} {pub : PublicKey} {priv : PrivateKey} {compressed : String}
  {requirements : PaymentRequirements} {now : ℕ} {sent : List Value}

lemma Computes.exists_sender (h : Computes c priv) (hkey : AgentKey c pub priv compressed) :
    ∃ sender, buildCasperAddressFromPublicKey c pub priv = .ok sender := by
  obtain ⟨point, hpoint⟩ := h.point
  rw [buildCasperAddressFromPublicKey, hkey.cryptoAlg]
  exact ⟨_, bind_eq_ok.2 ⟨point, hpoint, rfl⟩⟩

lemma Computes.exists_target (h : Computes c priv) :
    ∃ t, target c requirements.toJson = .ok t := by
  obtain ⟨domain, hdomain⟩ := h.domain requirements.extra.name requirements.extra.version
    (removeStart "casper:" requirements.network) (last64 (removeStart "hash-" requirements.asset))
  rw [← c.buildDomainOf_str] at hdomain
  exact ⟨_, bind_eq_ok.2 ⟨requirements.payTo, rfl, bind_eq_ok.2 ⟨requirements.asset, rfl,
    bind_eq_ok.2 ⟨requirements.network, rfl, bind_eq_ok.2 ⟨domain, hdomain, rfl⟩⟩⟩⟩⟩

lemma Computes.exists_messageDigest (h : Computes c priv) {amount after before : ℤ}
    (hamount : Value.bigIntOfString requirements.amount = .ok amount) (sender nonceHex : String)
    (t : Target) : ∃ m digest, messageDigest c sender t
      ⟨.num (.finite after), .num (.finite before)⟩ nonceHex requirements.toJson = .ok digest ∧
        c.hashTypedData t.domain m = .ok digest := by
  obtain ⟨digest, hdigest⟩ :=
    h.digest t.domain ⟨sender, .str t.payToV2, amount, after, before, nonceHex⟩
  refine ⟨_, digest, ?_, hdigest⟩
  have hfield : (requirements.toJson.ownField "amount").toBigInt = .ok amount := hamount
  rw [messageDigest, hfield, ok_bind, Value.toBigInt_intCast, ok_bind, Value.toBigInt_intCast,
    ok_bind, hdigest]

lemma Computes.exists_signDigest (h : Computes c priv) {domain : Value} {m : TransferMessage}
    {digest pem : String} (hdigest : c.hashTypedData domain m = .ok digest)
    (hpem : c.fromPem pem .secp256k1 = .ok priv) :
    ∃ sig, signDigest c digest pem pub = .ok sig := by
  obtain ⟨r, s, hsign⟩ := h.sign domain m digest hdigest
  have hparse : parseKey c pem = .ok (priv, .secp256k1) := by rw [parseKey, hpem]
  have hbytes : ∃ bytes, signEip712Digest c digest priv pub.hex = .ok bytes := by
    rw [signEip712Digest, if_neg (not_not_intro h.length), hsign]
    exact ⟨_, rfl⟩
  obtain ⟨bytes, hbytes⟩ := hbytes
  exact ⟨_, bind_eq_ok.2 ⟨(priv, .secp256k1), hparse, bind_eq_ok.2 ⟨bytes, hbytes, rfl⟩⟩⟩

lemma served_next (s sent : List Value) (op : ClientOp) (r : ClientAns op) (sent' : List Value)
    (hs : s = sent) (_ : (servedMonitor c pub priv requirements now).allows s op)
    (h : servedAnswers c pub priv requirements now sent op r sent') :
    (servedMonitor c pub priv requirements now).expects s op r ∧
      (servedMonitor c pub priv requirements now).next s op r = sent' := by
  obtain ⟨⟨hans, rfl⟩, hserved⟩ := h
  subst hs
  exact ⟨⟨hans, hserved⟩, rfl⟩

lemma buildPayment_served (hkey : AgentKey c pub priv compressed) (hcomputes : Computes c priv)
    (hprice : ∃ amount, Value.bigIntOfString requirements.amount = .ok amount)
    (hmax : requirements.maxTimeoutSeconds ≤ 600) {pkPath endpoint : String} :
    Meets (servedMonitor c pub priv requirements now) sent ()
      (buildPayment c pkPath endpoint requirements.toJson) fun sent' _ r =>
        sent' = sent ∧ ∃ payment, r = .ok payment := by
  obtain ⟨amount, hamount⟩ := hprice
  obtain ⟨sender, hsender⟩ := hcomputes.exists_sender hkey
  obtain ⟨t, ht⟩ : ∃ t, target c requirements.toJson = .ok t := hcomputes.exists_target
  refine meets_ask_bind.2 ⟨trivial, fun r hr => ?_⟩
  obtain ⟨keys, rfl⟩ := exists_of_isOk hr.2
  obtain rfl := hr.1 keys rfl
  refine meets_result_bind.2 ?_
  rw [hsender]
  refine meets_result_bind.2 ?_
  rw [ht]
  refine meets_ask_bind.2 ⟨trivial, fun ms hms => ?_⟩
  obtain ⟨⟨hms, rfl⟩, -⟩ := hms
  have hnow : ms / 1000 ≤ maxTimeValue / 1000 := Nat.div_le_div_right hms
  have hbound : ms / 1000 + requirements.maxTimeoutSeconds < 10 ^ 15 :=
    Nat.lt_of_le_of_lt (Nat.add_le_add hnow hmax) (by decide)
  refine meets_result_bind.2 ?_
  rw [validity_toJson hbound]
  refine meets_ask_bind.2 ⟨trivial, fun nonce _ => ?_⟩
  obtain ⟨m, digest, hmessage, hdigest⟩ :=
    hcomputes.exists_messageDigest hamount sender (hexOf nonce) t
  refine meets_result_bind.2 ?_
  rw [hmessage]
  refine meets_ask_bind.2 ⟨trivial, fun r hr => ?_⟩
  obtain ⟨pem, rfl⟩ := exists_of_isOk hr.2
  obtain ⟨sig, hsig⟩ : ∃ sig, signDigest c digest pem pub = .ok sig :=
    hcomputes.exists_signDigest hdigest (hr.1 pem rfl)
  refine meets_result_bind.2 ?_
  rw [hsig]
  exact ⟨rfl, _, rfl⟩

/-- Where the libraries compute, the client pays once. -/
lemma payAndFetchViaX402_served (hkey : AgentKey c pub priv compressed)
    (hcomputes : Computes c priv)
    (hprice : ∃ amount, Value.bigIntOfString requirements.amount = .ok amount)
    (hmax : requirements.maxTimeoutSeconds ≤ 600) {cfg : ClientConfig} {endpoint : String}
    {options : FetchOptions} (hoverride : options.paymentAmountOverride = none) :
    Meets (servedMonitor c pub priv requirements now) [] ()
      (payAndFetchViaX402 c cfg endpoint options) fun sent _ _ => ∃ payment, sent = [payment] := by
  refine meets_ask_bind.2 ⟨trivial, fun r hr => ?_⟩
  obtain ⟨initial, rfl, h402⟩ := hr.2 rfl
  have hfilter : (some requirements.toJson).filter Value.truthy = some requirements.toJson := rfl
  simp only [id, h402, hr.1 initial rfl h402, hfilter, hoverride, ne_eq, not_true_eq_false,
    if_false]
  refine Meets.bind (buildPayment_served hkey hcomputes hprice hmax) ?_ ?_
  · rintro sent _ payment ⟨rfl, -⟩
    -- the payment is sent, however the request that carries it is answered
    refine meets_ask_bind.2 ⟨trivial, fun r _ => ?_⟩
    cases r with
    | error e => exact ⟨_, rfl⟩
    | ok final =>
      show Meets _ _ _ (if 400 ≤ final.status then _ else _) _
      split
      · exact ⟨_, rfl⟩
      · exact ⟨_, rfl⟩
  · rintro sent _ e ⟨-, payment, he⟩
    cases he

end

/-! ### Hashes in the environment -/

section

variable {env : ServerEnv} {s : String}

lemma isHex_payeeHex (h : IsHash "account-hash-" (env.x402PayeeAddress.getD "")) :
    IsHex 64 env.config.payeeHex := by
  show IsHex 64 (last64 (removeStart "account-hash-" (env.x402PayeeAddress.getD "")))
  generalize env.x402PayeeAddress.getD "" = s at h
  obtain ⟨before, h, rfl, hh | ⟨rfl | rfl, n, hh⟩⟩ := h
  · obtain ⟨before', hbefore⟩ := hh.exists_removeStart_append (t := "account-hash-") (c := '-')
      (by decide) (show _ = "account-hash".toList ++ ['-'] from rfl) before
    rw [hbefore, hh.last64_append]
    exact hh
  · rw [String.empty_append, hh.removeStart (by decide)]
    exact hh.isHex_last64
  · rw [removeStart_append]
    exact hh.isHex_last64

/-- The client removes nothing from the asset that the server has not removed. -/
lemma last64_asset (h : IsHash "hash-" (env.x402Cep18PackageHash.getD "")) :
    last64 (removeStart "hash-" env.config.asset) = last64 env.config.asset := by
  have hdefault : removeStart "hash-" defaultWcsprTestnet = defaultWcsprTestnet := by
    rfl
  show last64 (removeStart "hash-" (if _ = "" then _ else _)) = last64 (if _ = "" then _ else _)
  split_ifs
  · rw [hdefault]
  · generalize env.x402Cep18PackageHash.getD "" = s at h
    obtain ⟨before, h, rfl, hh | ⟨rfl | rfl, n, hh⟩⟩ := h
    · obtain ⟨before', hbefore⟩ := hh.exists_removeText_append (t := "hash-") (c := '-')
        (by decide) (show _ = "hash".toList ++ ['-'] from rfl) before
      obtain ⟨before'', hbefore'⟩ := hh.exists_removeStart_append (t := "hash-") (c := '-')
        (by decide) (show _ = "hash".toList ++ ['-'] from rfl) before'
      rw [hbefore, hbefore', hh.last64_append, hh.last64_append]
    · rw [String.empty_append, hh.removeText (by decide), hh.removeStart (by decide)]
    · rw [removeText_append (by decide), hh.removeStart (by decide)]

lemma normal_requirementsOf {info : AssetMeta}
    (hpayee : IsHash "account-hash-" (env.x402PayeeAddress.getD ""))
    (hasset : IsHash "hash-" (env.x402Cep18PackageHash.getD "")) :
    Normal (requirementsOf env.config info) where
  payTo := by
    obtain ⟨n, hzeros⟩ := (isHex_payeeHex hpayee).exists_removeZeros
    exact ⟨_, rfl, hzeros.isHex_last64⟩
  asset := last64_asset hasset

end

/-! ### The verification of a payment -/

section

variable {c : ClientCrypto} {pub : PublicKey} {priv : PrivateKey} {compressed : String}
  {cfg : ServerConfig} {info : AssetMeta} {now serverNow : ℕ} {payment : Value}

/-- The answers in a second of the clock of the server, which knows the asset. -/
def ServerAnswer (now : ℕ) : (op : ServerOp) → ServerAns op → Prop
  | .dateNow, ms => ms / 1000 = now
  | .getAssetMeta, r => r.isOk = true
  | _, _ => True

/-- How the calls of a verification are answered in that second. -/
def serverAnswers (crypto : Crypto) (cfg : ServerConfig) (now : ℕ) (x : ServerState)
    (op : ServerOp) (r : ServerAns op) (y : ServerState) : Prop :=
  (server crypto cfg).alone x op r y ∧ ServerAnswer now op r

/-- Every call is allowed, and answered in that second. -/
def secondMonitor (now : ℕ) : Monitor ServerOp ServerAns VerifierView where
  allows := verifierMonitor.allows
  expects := fun s op r => verifierMonitor.expects s op r ∧ ServerAnswer now op r
  next := verifierMonitor.next

lemma agrees_serverAnswers {crypto : Crypto} {start x y : ServerState} {s : VerifierView}
    {op : ServerOp} {r : ServerAns op} (hs : s.Agrees start x)
    (h : serverAnswers crypto cfg now x op r y) :
    (secondMonitor now).expects s op r ∧ ((secondMonitor now).next s op r).Agrees start y :=
  ⟨⟨(agrees_next hs h.1).1, h.2⟩, (agrees_next hs h.1).2⟩

/-- What the client has built is accepted, if its nonce is unused. -/
lemma Built.verify_meets (h : Built c pub priv (requirementsOf cfg info) now payment)
    (hkey : AgentKey c pub priv compressed) (hafter : now ≤ serverNow + 5)
    (hbefore : serverNow ≤ now + 594) {used : List String}
    (hunused : ∀ n, nonce payment = .str n → n ∉ used) :
    Meets (secondMonitor serverNow) ⟨used, none⟩ ()
      (verifyX402V2Signature c.toCrypto payment (requirementsOf cfg info)) fun _ _ r =>
        r = .ok (.valid (.str pub.hex) (accountHashWithPrefix pub.accountHashHex)) := by
  obtain ⟨n, hn⟩ := h.nonce_eq_str
  have htimes : X402.checkTimes payment serverNow = .ok none :=
    h.checkTimes le_rfl hafter (show serverNow + 6 ≤ now + 600 by omega)
  refine meets_tryCatch.2 (meets_result_bind.2 ?_)
  rw [h.checkFields hkey]
  refine meets_ask_bind.2 ⟨trivial, fun found hfound => ?_⟩
  rw [hn] at hfound
  obtain rfl : found = false := hfound.1.trans (decide_eq_false (hunused n hn))
  refine meets_ask_bind.2 ⟨trivial, fun ms hms => meets_result_bind.2 ?_⟩
  rw [show ms / 1000 = serverNow from hms.2, htimes]
  refine meets_ask_bind.2 ⟨trivial, fun r hr => ?_⟩
  obtain ⟨_, rfl⟩ := exists_of_isOk hr.2
  refine meets_result_bind.2 ?_
  rw [h.checkSignature hkey le_rfl]
  refine meets_ask_bind.2 ⟨trivial, fun _ _ => ?_⟩
  rw [h.publicKey_eq]
  rfl

end

section

variable {c : ClientCrypto} {pub : PublicKey} {priv : PrivateKey} {compressed : String}
  {env : ServerEnv} {info : AssetMeta} {cfg : ClientConfig} {endpoint : String}
  {options : FetchOptions} {clientNow serverNow : ℕ} {sent : List Value}
  {fetched : Except Error Fetched} {payment : Value}

/-- Every payment of a run is built for the requirements of the server. -/
lemma built_of_mem_sent (hkey : AgentKey c pub priv compressed)
    (hpayee : IsHash "account-hash-" (env.x402PayeeAddress.getD ""))
    (hasset : IsHash "hash-" (env.x402Cep18PackageHash.getD ""))
    (hoverride : options.paymentAmountOverride = none)
    (hclient : Program.Runs
      (clientAnswers c pub priv (requirementsOf env.config info) clientNow) []
      ((payAndFetchViaX402 c cfg endpoint options).toProgram ()) sent (fetched, ()))
    (hpayment : payment ∈ sent) :
    Built c pub priv (requirementsOf env.config info) clientNow payment := by
  have hnormal : Normal (requirementsOf env.config info) := normal_requirementsOf hpayee hasset
  obtain ⟨-, hsent, -⟩ := Program.Meets.runs
    (I := fun _ sent => ∀ p ∈ sent, Built c pub priv (requirementsOf env.config info) clientNow p)
    sent_next (payAndFetchViaX402_meets hkey hnormal le_rfl hoverride) hclient nofun
  exact hsent payment hpayment

lemma sent_of_served (hkey : AgentKey c pub priv compressed) (hcomputes : Computes c priv)
    (hprice : ∃ amount, Value.bigIntOfString env.config.priceMotes = .ok amount)
    (hoverride : options.paymentAmountOverride = none)
    (hclient : Program.Runs
      (servedAnswers c pub priv (requirementsOf env.config info) clientNow) []
      ((payAndFetchViaX402 c cfg endpoint options).toProgram ()) sent (fetched, ())) :
    ∃ payment, sent = [payment] := by
  have hprice : ∃ amount,
      Value.bigIntOfString (requirementsOf env.config info).amount = .ok amount := hprice
  obtain ⟨_, rfl, hsent⟩ := Program.Meets.runs (I := Eq) served_next
    (payAndFetchViaX402_served hkey hcomputes hprice le_rfl hoverride) hclient rfl
  exact hsent

/-- Client and server agree, for every key on the curve, every environment of the server with
hashes, and whatever it knows about the asset.  Where the libraries compute and the price is a
decimal number, the client sends one payment if it is asked to pay and can read its keys; and the
server accepts every payment that a client sends, as long as its clock is at most five seconds
behind that of the client and 594 seconds ahead, and the nonce is unused. -/
theorem verifyX402V2Signature_of_payAndFetchViaX402 (hkey : AgentKey c pub priv compressed)
    (hpayee : IsHash "account-hash-" (env.x402PayeeAddress.getD ""))
    (hasset : IsHash "hash-" (env.x402Cep18PackageHash.getD ""))
    (hoverride : options.paymentAmountOverride = none) :
    (Computes c priv → (∃ amount, Value.bigIntOfString env.config.priceMotes = .ok amount) →
      ∀ sent fetched, Program.Runs
        (servedAnswers c pub priv (requirementsOf env.config info) clientNow) []
        ((payAndFetchViaX402 c cfg endpoint options).toProgram ()) sent (fetched, ()) →
          ∃ payment, sent = [payment]) ∧
    ∀ sent fetched payment, Program.Runs
      (clientAnswers c pub priv (requirementsOf env.config info) clientNow) []
      ((payAndFetchViaX402 c cfg endpoint options).toProgram ()) sent (fetched, ()) →
        payment ∈ sent → clientNow ≤ serverNow + 5 → serverNow ≤ clientNow + 594 →
          ∀ x y : ServerState, (∀ n, nonce payment = .str n → n ∉ x.usedNonces) →
            ∀ v, Program.Runs (serverAnswers c.toCrypto env.config serverNow) x
              ((verifyX402V2Signature c.toCrypto payment
                (requirementsOf env.config info)).toProgram ()) y (v, ()) →
              v = .ok (.valid (.str pub.hex) (accountHashWithPrefix pub.accountHashHex)) := by
  refine ⟨fun hcomputes hprice sent fetched hclient => ?_, ?_⟩
  · exact sent_of_served hkey hcomputes hprice hoverride hclient
  · intro sent fetched payment hclient hpayment hafter hbefore x y hunused v hserver
    have hbuilt := built_of_mem_sent hkey hpayee hasset hoverride hclient hpayment
    obtain ⟨-, -, hv⟩ := Program.Meets.runs (I := fun s y => s.Agrees x y)
      (fun _ _ _ _ _ hs _ h => agrees_serverAnswers hs h)
      (hbuilt.verify_meets hkey hafter hbefore hunused) hserver ⟨rfl, le_rfl, nofun⟩
    exact hv

end

/-! ### Payments that are sent and accepted -/

section

variable {c : ClientCrypto} {pub : PublicKey} {priv : PrivateKey} {compressed : String}
  {requirements : PaymentRequirements} {cfg : ServerConfig} {info : AssetMeta}
  {now serverNow : ℕ} {payment : Value}

lemma Built.runs_verify (h : Built c pub priv (requirementsOf cfg info) now payment)
    (hkey : AgentKey c pub priv compressed) {x : ServerState} (hx : x.now / 1000 = serverNow)
    (hafter : now ≤ serverNow + 5) (hbefore : serverNow ≤ now + 594) {n : String}
    (hn : nonce payment = .str n) (hunused : n ∉ x.usedNonces) :
    Program.Runs (serverAnswers c.toCrypto cfg serverNow) x
      ((verifyX402V2Signature c.toCrypto payment (requirementsOf cfg info)).toProgram ()) (x.use n)
      (.ok (.valid (publicKey payment) (accountHashWithPrefix pub.accountHashHex)), ()) := by
  have htimes : X402.checkTimes payment serverNow = .ok none :=
    h.checkTimes le_rfl hafter (show serverNow + 6 ≤ now + 600 by omega)
  have hmeta : ServerAnswer serverNow .getAssetMeta (.ok info) := rfl
  have hdrift : (server c.toCrypto cfg).drift x x := ⟨le_rfl, rfl⟩
  exact runs_of_checks (h.checkFields hkey) (hx.symm ▸ htimes) (h.checkSignature hkey le_rfl)
    ⟨⟨x, hdrift, decide_eq_false hunused ▸ answer_hasNonce hn x⟩, trivial⟩
    ⟨⟨x, hdrift, rfl, rfl⟩, hx⟩ ⟨⟨x, hdrift, rfl⟩, hmeta⟩
    ⟨⟨x, hdrift, answer_addNonce hn x⟩, trivial⟩

lemma runs_payAndFetchViaX402 {ccfg : ClientConfig} {endpoint : String} {options : FetchOptions}
    {initial final : HttpResponse} {ms : ℕ} {nonce : List ℕ}
    {sender digest pem sig after before : String} {t : Target} {v : Validity}
    (hoverride : options.paymentAmountOverride = none) (h402 : initial.status = 402)
    (hheader : initial.paymentRequired = some requirements.toJson) (hfinal : final.status < 400)
    (hms : ms ≤ maxTimeValue) (hnonce : nonce.length = 32 ∧ ∀ b ∈ nonce, b < 256)
    (hpem : c.fromPem pem .secp256k1 = .ok priv)
    (hsender : buildCasperAddressFromPublicKey c pub priv = .ok sender)
    (ht : target c requirements.toJson = .ok t)
    (hv : validity (ms / 1000) requirements.toJson = .ok v)
    (hdigest : messageDigest c sender t v (hexOf nonce) requirements.toJson = .ok digest)
    (hsig : signDigest c digest pem pub = .ok sig) (hafter : v.validAfter.toStr = .ok after)
    (hbefore : v.validBefore.toStr = .ok before) :
    Program.Runs (servedAnswers c pub priv requirements (ms / 1000)) []
      ((payAndFetchViaX402 c ccfg endpoint options).toProgram ())
      [paymentPayload endpoint requirements.toJson pub t.payToV2 sig after before (hexOf nonce)]
      (.ok ⟨final.data,
        some
          { paymentHeader := paymentPayload endpoint requirements.toJson pub t.payToV2 sig after
              before (hexOf nonce)
            settleTxHash := settleTxHash final.paymentResponse
            facilitator := ccfg.x402FacilitatorUrl
            amountMotes := .str requirements.amount
            asset := "hash-" ++ t.assetBytes32
            signedAt := ms / 1000 },
        final⟩, ()) := by
  simp only [payAndFetchViaX402, buildPayment, toProgram_bind, toProgram_ask, Program.done_bind,
    Program.call_bind]
  refine .call (r := .ok initial) ⟨⟨?_, rfl⟩, fun _ => ⟨initial, rfl, h402⟩⟩ ?_
  · rintro _ ⟨⟩ -
    exact hheader
  have hfilter : (some requirements.toJson).filter Value.truthy = some requirements.toJson := rfl
  simp only [id, h402, hheader, hfilter, hoverride, ne_eq, not_true_eq_false, if_false,
    toProgram_bind, toProgram_ask, Program.done_bind, Program.call_bind]
  refine .call (r := .ok (pub, priv)) ⟨⟨?_, rfl⟩, by exact rfl⟩ ?_
  · rintro _ ⟨⟩
    rfl
  simp only [hsender, ht, toProgram_result, Program.done_bind, Program.call_bind]
  refine .call ⟨⟨⟨hms, rfl⟩, rfl⟩, trivial⟩ ?_
  simp only [hv, Program.call_bind]
  refine .call ⟨⟨hnonce, rfl⟩, trivial⟩ ?_
  simp only [hdigest, Program.call_bind]
  refine .call (r := .ok pem) ⟨⟨?_, rfl⟩, by exact rfl⟩ ?_
  · rintro _ ⟨⟩
    exact hpem
  simp only [hsig, hafter, hbefore, toProgram_pure, Program.done_bind]
  refine .call (r := .ok final) ⟨⟨?_, rfl⟩, nofun⟩ ?_
  · rintro _ ⟨⟩ h402
    omega
  simp only [Nat.not_le.2 hfinal, if_false]
  exact .done _ _

end

/-! ### A payment of the first seconds -/

/-- A server with nothing in its environment. -/
def bareEnv : ServerEnv :=
  ⟨none, none, none, none, none⟩

/-- The point of the private key 1, without its sign. -/
def pointX : ℕ :=
  55066263022277343669578718895168534326250603453777594175500187360389116729240

@[inherit_doc pointX]
def pointY : ℕ :=
  32670510020758816978083085130507043184471273380659243275938904335757337482424

/-- The compressed key, without the algorithm. -/
def pointKey : String :=
  "0279be667ef9dcbbac55a06295ce870b07029bfcdb2dce28d959f2815b16f81798"

/-- The public key 1, as the SDK has it. -/
def pointPublicKey : PublicKey where
  cryptoAlg := .secp256k1
  hex := "02" ++ pointKey
  bytes := hexBytes pointKey.toList
  accountHashHex := "86937931937ee0281e50806b94f8d4993e8869b0689dfa0a21d2946ab677183c"

/-- The digest of the payment, and the two numbers of the signature. -/
def pointDigest : String :=
  "f06dad9e4931ad40935053e34cd4e0bd39a384ddc71f29888292348117547928"

@[inherit_doc pointDigest]
def pointR : ℕ :=
  43299918993990073904732700895699878195171273551092994109289598612044468496928

@[inherit_doc pointDigest]
def pointS : ℕ :=
  6959180094538581345927167412827665740604270302172424549831133294426176808421

/-- What the libraries compute on the payment. -/
def pointCrypto : ClientCrypto where
  publicKeyHex
    | .str key => .ok key
    | _ => .error ⟨"not a string"⟩
  accountHashHex := fun _ => .ok pointPublicKey.accountHashHex
  xCoordinate := fun _ => .ok (hexOf (toBytes 32 pointX))
  buildDomain := fun name version chainName package =>
    .ok (.obj [("name", .str name), ("version", .str version), ("chain_name", .str chainName),
      ("contract_package_hash", .str package)])
  hashTypedData := fun _ _ => .ok pointDigest
  recoverPublicKey := fun r s v hash =>
    if r = pointR ∧ s = pointS ∧ v = 1 ∧ hash = pointDigest then .ok pointKey
    else .error ⟨"invalid signature"⟩
  fromPem := fun _ algo =>
    if algo = .secp256k1 then .ok (toBytes 32 1) else .error ⟨"invalid key"⟩
  getPublicKey := fun _ => .ok (4 :: (toBytes 32 pointX ++ toBytes 32 pointY))
  sign := fun digest priv =>
    if digest = pointDigest ∧ priv = toBytes 32 1 then .ok (pointR, pointS)
    else .error ⟨"not signed"⟩
  buildDomainOf := fun name version chainName package =>
    .ok (.obj [("name", name), ("version", version), ("chain_name", .str chainName),
      ("contract_package_hash", .str package)])
  buildDomainOf_str := fun _ _ _ _ => rfl

lemma pointCrypto_sign (digest : String) (priv : PrivateKey) :
    pointCrypto.sign digest priv =
      if digest = pointDigest ∧ priv = toBytes 32 1 then .ok (pointR, pointS)
      else .error ⟨"not signed"⟩ := rfl

lemma pointKey_agentKey :
    AgentKey pointCrypto pointPublicKey (toBytes 32 1) pointKey where
  cryptoAlg := rfl
  hex := rfl
  fromHex := rfl
  accountHash := rfl
  accountHash_isHex := by decide
  point := by
    rintro _ ⟨⟩
    rfl
  sign := by
    intro digest r s h
    rw [pointCrypto_sign] at h
    split at h
    next hdigest =>
      cases h
      refine ⟨by decide, by decide, 1, by decide, ?_⟩
      exact if_pos ⟨rfl, rfl, rfl, hdigest.1⟩
    next => cases h

/-- A client next to the server, and what it asks for. -/
def localClient : ClientConfig :=
  ⟨"./keys/agent.pem", "https://x402-facilitator.cspr.cloud"⟩

@[inherit_doc localClient]
def signalUrl : String :=
  "http://localhost:4001/signal"

/-- The payment of a client whose clock shows five seconds. -/
def pointPayment : Value :=
  paymentPayload signalUrl (requirementsOf bareEnv.config wcspr).toJson
    pointPublicKey (requirementsOf bareEnv.config wcspr).payTo
    (hexOf (2 :: (toBytes 32 pointR ++ toBytes 32 pointS))) "0" "605" (hexOf (List.range 32))

lemma pointCrypto_computes : Computes pointCrypto (toBytes 32 1) where
  length := length_toBytes 32 1
  point := ⟨_, rfl⟩
  domain := fun _ _ _ _ => ⟨_, rfl⟩
  digest := fun _ _ => ⟨_, rfl⟩
  sign := by
    rintro domain m _ ⟨⟩
    exact ⟨pointR, pointS, by rw [pointCrypto_sign, if_pos ⟨rfl, rfl⟩]⟩

lemma served_pointPayment :
    ∃ fetched, Program.Runs
      (servedAnswers pointCrypto pointPublicKey (toBytes 32 1)
        (requirementsOf bareEnv.config wcspr) 5) []
      ((payAndFetchViaX402 pointCrypto localClient signalUrl
        ⟨none, .undefined, none, none⟩).toProgram ())
      [pointPayment] (fetched, ()) := by
  have hhash : ∀ tag, IsHash tag "" := fun tag => ⟨"", "", rfl, Or.inr ⟨Or.inl rfl, 0, by decide⟩⟩
  have hnormal : Normal (requirementsOf bareEnv.config wcspr) :=
    normal_requirementsOf (hhash _) (hhash _)
  obtain ⟨t, ht⟩ : ∃ t, target pointCrypto (requirementsOf bareEnv.config wcspr).toJson = .ok t :=
    ⟨_, rfl⟩
  have hv : validity 5 (requirementsOf bareEnv.config wcspr).toJson = _ :=
    validity_toJson (show 5 + 600 < 10 ^ 15 by decide)
  have hafter : (Number.finite (((5 : ℕ) - 5 : ℤ) : ℚ)).toStr = "0" := rfl
  have hbefore : (Number.finite (((5 : ℕ) + (600 : ℕ) : ℤ) : ℚ)).toStr = "605" := by decide +kernel
  have hsign : signDigest pointCrypto pointDigest "" pointPublicKey =
      .ok (hexOf (2 :: (toBytes 32 pointR ++ toBytes 32 pointS))) := by
    have hnumbers : pointCrypto.sign pointDigest (toBytes 32 1) = .ok (pointR, pointS) := by
      rw [pointCrypto_sign, if_pos ⟨rfl, rfl⟩]
    have hbytes : signEip712Digest pointCrypto pointDigest (toBytes 32 1) pointPublicKey.hex =
        .ok (2 :: (toBytes 32 pointR ++ toBytes 32 pointS)) := by
      rw [signEip712Digest, if_neg (not_not_intro (length_toBytes 32 1)), hnumbers]
      rfl
    exact bind_eq_ok.2 ⟨(toBytes 32 1, .secp256k1), rfl, bind_eq_ok.2 ⟨_, hbytes, rfl⟩⟩
  have hrun := @runs_payAndFetchViaX402 pointCrypto pointPublicKey (toBytes 32 1)
    (requirementsOf bareEnv.config wcspr) localClient signalUrl ⟨none, .undefined, none, none⟩
    ⟨402, .undefined, some (requirementsOf bareEnv.config wcspr).toJson, none⟩
    ⟨200, .undefined, none, none⟩ 5000 (List.range 32) _ _ "" _ _ _ _ _ rfl rfl rfl (by decide)
    (by decide) (by decide) rfl rfl ht hv rfl hsign (congrArg Except.ok hafter)
    (congrArg Except.ok hbefore)
  rw [(target_toJson hnormal ht).1] at hrun
  exact ⟨_, hrun⟩

lemma runs_pointPayment :
    ∃ fetched, Program.Runs
      (clientAnswers pointCrypto pointPublicKey (toBytes 32 1)
        (requirementsOf bareEnv.config wcspr) 5) []
      ((payAndFetchViaX402 pointCrypto localClient signalUrl
        ⟨none, .undefined, none, none⟩).toProgram ())
      [pointPayment] (fetched, ()) := by
  obtain ⟨fetched, hrun⟩ := served_pointPayment
  obtain ⟨_, hclient, rfl⟩ := Program.Runs.simulate (R := Eq)
    (fun sent _ op r sent' hsent h => ⟨sent', hsent ▸ h.1, rfl⟩) hrun rfl
  exact ⟨fetched, hclient⟩

/-- The client pays, every run in which it can sends one payment, and ten minutes less six seconds
later the payment is accepted. -/
theorem pointPayment_accepted :
    (∃ fetched, Program.Runs
      (servedAnswers pointCrypto pointPublicKey (toBytes 32 1)
        (requirementsOf bareEnv.config wcspr) 5) []
      ((payAndFetchViaX402 pointCrypto localClient signalUrl
        ⟨none, .undefined, none, none⟩).toProgram ())
      [pointPayment] (fetched, ())) ∧
    (∀ sent fetched, Program.Runs
      (servedAnswers pointCrypto pointPublicKey (toBytes 32 1)
        (requirementsOf bareEnv.config wcspr) 5) []
      ((payAndFetchViaX402 pointCrypto localClient signalUrl
        ⟨none, .undefined, none, none⟩).toProgram ())
      sent (fetched, ()) → ∃ payment, sent = [payment]) ∧
    ∃ v, Program.Runs (serverAnswers pointCrypto.toCrypto bareEnv.config 599) ⟨599000, []⟩
        ((verifyX402V2Signature pointCrypto.toCrypto pointPayment
          (requirementsOf bareEnv.config wcspr)).toProgram ())
        (ServerState.use ⟨599000, []⟩ (hexOf (List.range 32))) (v, ()) ∧
      v = .ok (.valid (.str pointPublicKey.hex)
        (accountHashWithPrefix pointPublicKey.accountHashHex)) := by
  have hhash : ∀ tag, IsHash tag "" := fun tag => ⟨"", "", rfl, Or.inr ⟨Or.inl rfl, 0, by decide⟩⟩
  obtain ⟨fetched, hclient⟩ := runs_pointPayment
  have hbuilt := built_of_mem_sent pointKey_agentKey (hhash _) (hhash _) rfl hclient
    (List.mem_singleton_self _)
  have hclock : (ServerState.mk 599000 []).now / 1000 = 599 := rfl
  have hrun := hbuilt.runs_verify pointKey_agentKey hclock (by decide) (by decide) rfl
    List.not_mem_nil
  obtain ⟨hpays, haccepts⟩ :=
    @verifyX402V2Signature_of_payAndFetchViaX402 _ _ _ _ bareEnv wcspr localClient signalUrl
      ⟨none, .undefined, none, none⟩ 5 599 pointKey_agentKey (hhash _) (hhash _) rfl
  refine ⟨served_pointPayment, hpays pointCrypto_computes ⟨_, rfl⟩, _, hrun, ?_⟩
  exact haccepts _ fetched _ hclient (List.mem_singleton_self _) (by decide) (by decide) _ _
    (fun n _ => List.not_mem_nil) _ hrun

end ArwaAgent.X402
