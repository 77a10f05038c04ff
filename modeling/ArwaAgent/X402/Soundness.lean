import ArwaAgent.Js.Integers
import ArwaAgent.X402.Purchase

/-!
# What a valid payment proves

A payload is any JSON value, and every field of it is read in several ways: the times as
numbers and as integers, the nonce as something with a length and as a text, the key by the
SDK and by the curve.  `Authentic` says what a payment must prove about the one message that
the server expects; the checks together leave no payload that passes without it.  Then
`verifyX402V2Signature_sound` follows a verification from its first call to its last, while
no other request is being handled.
-/

namespace ArwaAgent.X402

open Js Effects Effects.Code

/-- A payment for the server: the key belongs to the account that pays, and has signed the
transfer of the price to the payee, once and for a time in which the server now is. -/
structure Authentic (crypto : Crypto) (cfg : ServerConfig) (info : AssetMeta) (payload : Value)
    (n : String) (now : ℕ) : Prop where
  /-- the key hashes to the account that the payment names -/
  account : ∃ hash, crypto.accountHashHex (publicKey payload) = .ok hash ∧
    parseAccountHash ((authorization payload).ownField "from") = .ok (last64 hash)
  /-- the signature recovers to the key over the digest of exactly this message -/
  signed : ∃ domain hash key sigHex, ∃ m : TransferMessage,
    crypto.buildDomain "Casper x402" info.version (removeStart "casper:" cfg.network)
      (last64 cfg.asset) = .ok domain ∧
    signerAddress crypto payload = .ok m.sender ∧
    m.payee = .str (accountHashWithPrefix cfg.payeeHex) ∧
    Value.bigIntOfString cfg.priceMotes = .ok m.value ∧
    ((authorization payload).ownField "validAfter").toBigInt = .ok m.validAfter ∧
    ((authorization payload).ownField "validBefore").toBigInt = .ok m.validBefore ∧
    m.nonce = n ∧
    crypto.hashTypedData domain m = .ok hash ∧
    crypto.publicKeyHex (publicKey payload) = .ok key ∧
    signatureHex payload = .ok sigHex ∧ (hexBytes sigHex.toList).length = 65 ∧
    recovers crypto (hexBytes sigHex.toList) hash (String.ofList (key.toList.drop 2)) = true ∧
    m.validAfter ≤ now ∧ now + 6 ≤ m.validBefore

/-! ### What each check proves -/

section

variable {crypto : Crypto} {payload : Value} {requirements : PaymentRequirements} {n : String}
  {now : ℕ}

lemma eq_str_of_is {v : Value} {s : String} (h : v.is s = true) : v = .str s := by
  cases v with
  | str t => exact congrArg Value.str (of_decide_eq_true h)
  | _ => cases h

lemma of_ite_ok {α : Type} {c : Prop} [Decidable c] {rejected a : α} {x : Except Error α}
    (h : (if c then .ok rejected else x) = .ok a) (hne : rejected ≠ a) : ¬ c ∧ x = .ok a := by
  by_cases hc : c
  · rw [if_pos hc] at h
    exact absurd (Except.ok.inj h) hne
  · rw [if_neg hc] at h
    exact ⟨hc, h⟩

lemma of_field_bind {α : Type} {v : Value} {name : String} {f : Value → Except Error α} {a : α}
    (h : v.field name >>= f = .ok a) : f (v.ownField name) = .ok a := by
  obtain ⟨w, hw, h⟩ := bind_eq_ok.1 h
  rwa [← Value.field_eq_ok hw]

lemma of_checkFields (h : checkFields payload requirements = .ok none)
    (hn : nonce payload = .str n) :
    (authorization payload).ownField "to" = .str requirements.payTo ∧
      (authorization payload).ownField "value" = .str requirements.amount ∧ length16 n = 64 := by
  obtain ⟨-, h⟩ := of_ite_ok h (by nofun)
  obtain ⟨-, h⟩ := of_ite_ok h (by nofun)
  obtain ⟨hto, h⟩ := of_ite_ok (of_field_bind h) (by nofun)
  obtain ⟨hamount, h⟩ := of_ite_ok (of_field_bind h) (by nofun)
  obtain ⟨length, hlength, h⟩ := bind_eq_ok.1 (of_field_bind h)
  refine ⟨eq_str_of_is (by simpa using hto), eq_str_of_is (by simpa using hamount), ?_⟩
  rw [← nonce, hn] at hlength
  cases hlength
  split at h
  next hlen =>
    have : ((length16 n : ℕ) : ℚ) = 64 := of_decide_eq_true hlen
    exact_mod_cast this
  next => cases h

/-- Times that pass the comparisons as numbers satisfy them as integers. -/
lemma of_checkTimes (h : checkTimes payload now = .ok none) (hnow : now + 6 < 2 ^ 53)
    {validAfter validBefore : ℤ}
    (hafter : ((authorization payload).ownField "validAfter").toBigInt = .ok validAfter)
    (hbefore : ((authorization payload).ownField "validBefore").toBigInt = .ok validBefore) :
    validAfter ≤ now ∧ now + 6 ≤ validBefore := by
  have hsmall : ∀ k : ℤ, now ≤ k → k ≤ now + 6 → |k| < 2 ^ 53 := fun k _ _ => by
    rw [abs_lt]
    omega
  have hnow' : Number.finite ((now : ℤ) : ℚ) = Number.finite now := by rw [Int.cast_natCast]
  obtain ⟨after, hafter, hreadsAfter⟩ := Value.reads_of_toBigInt hafter
  obtain ⟨before, hbefore, hreads⟩ := Value.reads_of_toBigInt hbefore
  have h := of_field_bind h
  rw [hbefore] at h
  obtain ⟨hexpired, h⟩ := of_ite_ok h (by nofun)
  have h := of_field_bind h
  rw [hafter] at h
  obtain ⟨hearly, h⟩ := of_ite_ok h (by nofun)
  obtain ⟨hshort, -⟩ := of_ite_ok h (by nofun)
  have hle : ¬ validBefore < now := by
    have := hreads.lt_finite (hsmall now le_rfl (by omega))
    rw [hnow'] at this
    simpa [this] using hexpired
  refine ⟨?_, ?_⟩
  · have := hreadsAfter.finite_lt (hsmall now le_rfl (by omega))
    rw [hnow'] at this
    simpa [this] using hearly
  · -- a shorter time would be subtracted exactly
    by_contra hlt
    have hsub := hreads.sub_finite (m := now) (hsmall validBefore (by omega) (by omega))
      (by rw [abs_lt]; omega)
    rw [hnow'] at hsub
    refine hshort ?_
    rw [hsub, Number.finite_lt_finite]
    refine decide_eq_true ?_
    have : validBefore - now < 6 := by omega
    exact_mod_cast this

lemma of_message {m : TransferMessage} (h : message crypto payload = .ok m)
    (hn : nonce payload = .str n) :
    signerAddress crypto payload = .ok m.sender ∧
      m.payee = (authorization payload).ownField "to" ∧
      ((authorization payload).ownField "value").toBigInt = .ok m.value ∧
      ((authorization payload).ownField "validAfter").toBigInt = .ok m.validAfter ∧
      ((authorization payload).ownField "validBefore").toBigInt = .ok m.validBefore ∧
      m.nonce = last64 n := by
  obtain ⟨sender, hsender, h⟩ := bind_eq_ok.1 h
  obtain ⟨value, hvalue, h⟩ := bind_eq_ok.1 (of_field_bind h)
  obtain ⟨validAfter, hafter, h⟩ := bind_eq_ok.1 (of_field_bind h)
  obtain ⟨validBefore, hbefore, h⟩ := bind_eq_ok.1 (of_field_bind h)
  obtain ⟨text, htext, h⟩ := bind_eq_ok.1 (of_field_bind h)
  have h := of_field_bind h
  rw [← nonce, hn] at htext
  cases h
  cases htext
  exact ⟨hsender, rfl, hvalue, hafter, hbefore, rfl⟩

/-- The signature of a payment that is not rejected, and the account of its key. -/
lemma of_checkSignature {payer : String}
    (h : checkSignature crypto payload requirements = .ok (.ok payer)) :
    ∃ hash key sigHex account, digest crypto payload requirements = .ok hash ∧
      crypto.publicKeyHex (publicKey payload) = .ok key ∧
      signatureHex payload = .ok sigHex ∧ (hexBytes sigHex.toList).length = 65 ∧
      recovers crypto (hexBytes sigHex.toList) hash (String.ofList (key.toList.drop 2)) = true ∧
      crypto.accountHashHex (publicKey payload) = .ok account ∧
      parseAccountHash ((authorization payload).ownField "from") = .ok (last64 account) := by
  obtain ⟨hash, hhash, h⟩ := bind_eq_ok.1 h
  obtain ⟨sigHex, hsig, h⟩ := bind_eq_ok.1 h
  obtain ⟨hlen, h⟩ := of_ite_ok h (by nofun)
  cases hkey : crypto.publicKeyHex (publicKey payload) with
  | error e =>
    rw [hkey] at h
    cases h
  | ok key =>
    rw [hkey] at h
    obtain ⟨hrecovers, h⟩ := of_ite_ok h (by nofun)
    obtain ⟨account, haccount, h⟩ := bind_eq_ok.1 h
    obtain ⟨expected, hexpected, h⟩ := bind_eq_ok.1 (of_field_bind h)
    obtain ⟨heq, -⟩ := of_ite_ok h (by nofun)
    refine ⟨hash, key, sigHex, account, hhash, rfl, hsig, not_not.1 hlen,
      by simpa using hrecovers, haccount, ?_⟩
    rw [hexpected, ← not_not.1 heq]

/-- A payment that passes all the checks is authentic. -/
lemma authentic_of_checks {cfg : ServerConfig} {info : AssetMeta} {payer : String}
    (hn : nonce payload = .str n) (hnow : now + 6 < 2 ^ 53)
    (hfields : checkFields payload (requirementsOf cfg info) = .ok none)
    (htimes : checkTimes payload now = .ok none)
    (hsigned : checkSignature crypto payload (requirementsOf cfg info) = .ok (.ok payer)) :
    Authentic crypto cfg info payload n now := by
  obtain ⟨hto, hamount, hlength⟩ := of_checkFields hfields hn
  obtain ⟨hash, key, sigHex, account, hdigest, hkey, hsig, hlen, hrecovers, haccount, hfrom⟩ :=
    of_checkSignature hsigned
  obtain ⟨domain, hdomain, hdigest⟩ := bind_eq_ok.1 hdigest
  obtain ⟨m, hm, hhash⟩ := bind_eq_ok.1 hdigest
  obtain ⟨hsender, hpayee, hvalue, hafter, hbefore, hnonce⟩ := of_message hm hn
  rw [hamount] at hvalue
  exact
    { account := ⟨account, haccount, hfrom⟩
      signed := ⟨domain, hash, key, sigHex, m, hdomain, hsender, hpayee.trans hto, hvalue, hafter,
        hbefore, hnonce.trans (last64_eq_self hlength), hhash, hkey, hsig, hlen, hrecovers,
        of_checkTimes htimes hnow hafter hbefore⟩ }

end

/-! ### One verification at a time -/

/-- The largest time value of the language, in milliseconds. -/
def maxTimeValue : ℕ := 8640000000000000

/-- What a verification has learnt from outside: the used nonces, and the time, when it has
asked for it. -/
structure VerifierView where
  usedNonces : List String
  now : Option ℕ

/-- Every call is allowed, and a nonce is found exactly when it is used. -/
def verifierMonitor : Monitor ServerOp ServerAns VerifierView where
  allows := fun _ _ => True
  expects
    | s, .hasNonce (.str n), used => used = decide (n ∈ s.usedNonces)
    | _, _, _ => True
  next
    | s, .dateNow, ms => { s with now := some ms }
    | s, .addNonce (.str n), _ => { s with usedNonces := n :: s.usedNonces }
    | s, _, _ => s

section

variable {crypto : Crypto} {cfg : ServerConfig} {info : AssetMeta} {payload : Value}
  {x y : ServerState}

/-- The verification has accepted an authentic payment and marked its nonce as used, or it has
rejected the payment and marked nothing. -/
def Outcome (crypto : Crypto) (cfg : ServerConfig) (info : AssetMeta) (payload : Value)
    (used : List String) (s : VerifierView) : Verification → Prop
  | .valid key _ => key = publicKey payload ∧ ∃ n ms, nonce payload = .str n ∧ n ∉ used ∧
      s = ⟨n :: used, some ms⟩ ∧
      (ms ≤ maxTimeValue → Authentic crypto cfg info payload n (ms / 1000))
  | .invalid _ => s.usedNonces = used

lemma verifyUnused_outcome {used : List String}
    (hfields : checkFields payload (requirementsOf cfg info) = .ok none)
    (hunused : ∀ n, nonce payload = .str n → n ∉ used) :
    Meets verifierMonitor ⟨used, none⟩ ()
      (verifyUnused crypto payload (requirementsOf cfg info)) fun s _ r =>
        match r with
        | .ok v => Outcome crypto cfg info payload used s v
        | .error _ => s.usedNonces = used := by
  refine meets_ask_bind.2 ⟨trivial, fun ms _ => ?_⟩
  refine Meets.result_bind (fun reason htimes => ?_) fun _ => rfl
  cases reason with
  | some reason => exact rfl
  | none =>
    refine meets_ask_bind.2 ⟨trivial, fun r _ => ?_⟩
    cases r with
    | error e => exact rfl
    | ok _ =>
      refine Meets.result_bind (fun r hsigned => ?_) fun _ => rfl
      cases r with
      | error reason => exact rfl
      | ok payer =>
        refine meets_ask_bind.2 ⟨trivial, fun _ _ => ?_⟩
        obtain ⟨n, hn⟩ := nonce_of_checkSignature hsigned
        refine ⟨rfl, n, ms, hn, hunused n hn, ?_, fun hms => ?_⟩
        · rw [hn]
          rfl
        · refine authentic_of_checks hn ?_ hfields htimes hsigned
          have hle : ms / 1000 ≤ maxTimeValue / 1000 := Nat.div_le_div_right hms
          refine Nat.lt_of_le_of_lt (Nat.add_le_add_right hle 6) ?_
          decide

lemma verifyX402V2Signature_outcome (used : List String) :
    Meets verifierMonitor ⟨used, none⟩ ()
      (verifyX402V2Signature crypto payload (requirementsOf cfg info)) fun s _ r =>
        ∃ v, r = .ok v ∧ Outcome crypto cfg info payload used s v := by
  refine meets_tryCatch.2 ?_
  refine Meets.result_bind (fun reason hfields => ?_) fun _ => ⟨_, rfl, rfl⟩
  cases reason with
  | some reason => exact ⟨_, rfl, rfl⟩
  | none =>
    refine meets_ask_bind.2 ⟨trivial, fun found hfound => ?_⟩
    have hview : verifierMonitor.next ⟨used, none⟩ (.hasNonce (nonce payload)) found =
        ⟨used, none⟩ := rfl
    rw [hview]
    cases found with
    | true => exact ⟨_, rfl, rfl⟩
    | false =>
      have hunused : ∀ n, nonce payload = .str n → n ∉ used := by
        intro n hn
        rw [hn] at hfound
        exact of_decide_eq_false hfound.symm
      refine (verifyUnused_outcome hfields hunused).mono fun s _ r hr => ?_
      cases r with
      | ok v => exact ⟨v, rfl, hr⟩
      | error e => exact ⟨_, rfl, hr⟩

/-- The view of the verification is the state of the server. -/
structure VerifierView.Agrees (start : ServerState) (s : VerifierView) (x : ServerState) : Prop where
  used : s.usedNonces = x.usedNonces
  later : start.now ≤ x.now
  now : ∀ ms, s.now = some ms → start.now ≤ ms ∧ ms ≤ x.now

lemma agrees_next {start : ServerState} {s : VerifierView} {op : ServerOp} {r : ServerAns op}
    (hs : s.Agrees start x) (h : (server crypto cfg).alone x op r y) :
    verifierMonitor.expects s op r ∧ (verifierMonitor.next s op r).Agrees start y := by
  obtain ⟨z, ⟨hle, hused⟩, hans⟩ := h
  have hused : s.usedNonces = z.usedNonces := hs.used.trans hused.symm
  have hlater : start.now ≤ z.now := hs.later.trans hle
  have hnow : ∀ ms, s.now = some ms → start.now ≤ ms ∧ ms ≤ z.now :=
    fun ms hms => ⟨(hs.now ms hms).1, (hs.now ms hms).2.trans hle⟩
  cases op with
  | hasNonce v =>
    cases v with
    | str n =>
      obtain ⟨rfl, rfl⟩ := hans
      have hfound : decide (n ∈ y.usedNonces) = decide (n ∈ s.usedNonces) := by rw [hused]
      exact ⟨hfound, hused, hlater, hnow⟩
    | _ =>
      obtain ⟨-, rfl⟩ := hans
      exact ⟨trivial, hused, hlater, hnow⟩
  | dateNow =>
    obtain ⟨rfl, rfl⟩ := hans
    refine ⟨trivial, hused, hlater, fun ms hms => ?_⟩
    cases hms
    exact ⟨hlater, le_rfl⟩
  | addNonce v =>
    cases v with
    | str n =>
      obtain ⟨-, rfl⟩ := hans
      exact ⟨trivial, congrArg (n :: ·) hused, hlater, hnow⟩
    | _ =>
      obtain ⟨-, rfl⟩ := hans
      exact ⟨trivial, hused, hlater, hnow⟩
  | verdict v =>
    obtain ⟨-, rfl⟩ := hans
    exact ⟨trivial, hused, hlater, hnow⟩
  | _ =>
    obtain rfl : y = z := hans
    exact ⟨trivial, hused, hlater, hnow⟩

/-- What a verification that has led from `x` to `y` says is true: a payment that it accepts is
authentic at a time in between, and its nonce was unused and is not any more; one that it
rejects has changed nothing. -/
def Sound (crypto : Crypto) (cfg : ServerConfig) (info : AssetMeta) (payload : Value)
    (x y : ServerState) : Except Error Verification → Prop
  | .ok (.valid key _) => key = publicKey payload ∧ ∃ n ms, x.now ≤ ms ∧ ms ≤ y.now ∧
      Authentic crypto cfg info payload n (ms / 1000) ∧
      nonce payload = .str n ∧ n ∉ x.usedNonces ∧ y.usedNonces = n :: x.usedNonces
  | .ok (.invalid _) => y.usedNonces = x.usedNonces
  | .error _ => False

/-- The verification is sound for any JSON payload and any answers from outside. -/
theorem verifyX402V2Signature_sound {v : Except Error Verification}
    (hrun : Program.Runs (server crypto cfg).alone x
      ((verifyX402V2Signature crypto payload (requirementsOf cfg info)).toProgram ()) y (v, ()))
    (hclock : y.now ≤ maxTimeValue) : Sound crypto cfg info payload x y v := by
  obtain ⟨s, hs, v', hv, houtcome⟩ := Program.Meets.runs (fun s x op r y hs _ h => agrees_next hs h)
    (verifyX402V2Signature_outcome x.usedNonces) hrun ⟨rfl, le_rfl, nofun⟩
  obtain rfl : v = .ok v' := hv
  cases v' with
  | valid key payer =>
    obtain ⟨hkey, n, ms, hn, hunused, rfl, hauthentic⟩ := houtcome
    obtain ⟨hafter, hbefore⟩ := hs.now ms rfl
    exact ⟨hkey, n, ms, hafter, hbefore, hauthentic (hbefore.trans hclock), hn, hunused,
      hs.used.symm⟩
  | invalid reason => exact hs.used.symm.trans houtcome

/-- A verification whose checks all pass accepts, if the nonce is not found. -/
lemma runs_of_checks {answer : ServerState → (op : ServerOp) → ServerAns op → ServerState → Prop}
    {requirements : PaymentRequirements} {ms : ℕ} {payer : String}
    (hfields : checkFields payload requirements = .ok none)
    (htimes : checkTimes payload (ms / 1000) = .ok none)
    (hsigned : checkSignature crypto payload requirements = .ok (.ok payer))
    (hfound : answer x (.hasNonce (nonce payload)) false x) (hnow : answer x .dateNow ms x)
    (hmeta : answer x .getAssetMeta (.ok info) x) (hadd : answer x (.addNonce (nonce payload)) () y) :
    Program.Runs answer x ((verifyX402V2Signature crypto payload requirements).toProgram ()) y
      (.ok (.valid (publicKey payload) payer), ()) := by
  simp only [verifyX402V2Signature, verifyUnused, hfields, toProgram_bind, toProgram_tryCatch,
    toProgram_ask, toProgram_result, Program.done_bind, Program.call_bind]
  refine .call hfound ?_
  simp only [Bool.false_eq_true, if_false, toProgram_bind, toProgram_ask, toProgram_result,
    Program.done_bind, Program.call_bind]
  refine .call hnow ?_
  simp only [htimes, toProgram_bind, toProgram_ask, toProgram_result, Program.done_bind,
    Program.call_bind]
  refine .call hmeta ?_
  simp only [id, hsigned, toProgram_bind, toProgram_ask, Program.done_bind, Program.call_bind]
  exact .call hadd (.done _ _)

lemma runs_verifyX402V2Signature {now : ℕ} {n payer : String}
    (h : Acceptable crypto cfg info now payload n payer) (hnow : x.now = now)
    (hunused : n ∉ x.usedNonces) :
    Program.Runs (server crypto cfg).alone x
      ((verifyX402V2Signature crypto payload (requirementsOf cfg info)).toProgram ()) (x.use n)
      (.ok (.valid (publicKey payload) payer), ()) := by
  have hdrift : (server crypto cfg).drift x x := ⟨le_rfl, rfl⟩
  have hmeta : (server crypto cfg).answer x .getAssetMeta (.ok info) x := rfl
  exact runs_of_checks h.fields h.times h.signed
    ⟨x, hdrift, decide_eq_false hunused ▸ answer_hasNonce h.nonce x⟩ ⟨x, hdrift, hnow.symm, rfl⟩
    ⟨x, hdrift, hmeta⟩ ⟨x, hdrift, answer_addNonce h.nonce x⟩

/-- The payment of the purchases is accepted, and so it is authentic. -/
theorem payment_sound :
    Sound payerCrypto defaultServer wcspr payment ⟨0, []⟩ (ServerState.use ⟨0, []⟩ paymentNonce)
      (.ok (.valid (publicKey payment) (accountHashWithPrefix payerHash))) :=
  verifyX402V2Signature_sound
    (runs_verifyX402V2Signature payment_acceptable rfl List.not_mem_nil) (Nat.zero_le _)

end

end ArwaAgent.X402
