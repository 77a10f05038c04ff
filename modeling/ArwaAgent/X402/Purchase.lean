import ArwaAgent.X402.Requests

/-!
# A purchase

The calls of a handler that gets an acceptable payment, in the three parts between the
points at which it waits, and those of a handler that gets the same payment later.
-/

namespace ArwaAgent.X402

open Js Effects Effects.Code

/-- A payment that the verification accepts as long as its nonce is unused. -/
structure Acceptable (crypto : Crypto) (cfg : ServerConfig) (info : AssetMeta) (now : ℕ)
    (payload : Value) (n payer : String) : Prop where
  enabled : cfg.demoEnabled = true
  asset : cfg.asset ≠ ""
  nonce : nonce payload = .str n
  fields : checkFields payload (requirementsOf cfg info) = .ok none
  times : checkTimes payload (now / 1000) = .ok none
  signed : checkSignature crypto payload (requirementsOf cfg info) = .ok (.ok payer)

/-- A request for a lot with a payment. -/
def purchase (lot : String) (payload : Value) : Request :=
  ⟨.str lot, .payload payload⟩

/-- The state after a nonce has been added. -/
def ServerState.use (x : ServerState) (n : String) : ServerState :=
  { x with usedNonces := n :: x.usedNonces }

section

variable {crypto : Crypto} {cfg : ServerConfig} {info : AssetMeta} {now : ℕ} {payload v : Value}
  {n payer lot : String}

lemma answer_hasNonce (hv : v = .str n) (x : ServerState) :
    (server crypto cfg).answer x (.hasNonce v) (decide (n ∈ x.usedNonces)) x := by
  subst hv
  exact ⟨rfl, rfl⟩

lemma answer_addNonce (hv : v = .str n) (x : ServerState) :
    (server crypto cfg).answer x (.addNonce v) () (x.use n) := by
  subst hv
  exact ⟨rfl, rfl⟩

/-- The handler of an acceptable payment: it looks the nonce up, and then waits; it adds the
nonce, and then waits; it sells the forecast. -/
lemma executes_purchase (h : Acceptable crypto cfg info now payload n payer) (lot : String) :
    ∃ checked accepted,
      (∀ x : ServerState, x.now = now → n ∉ x.usedNonces →
        Pool.Executes (server crypto cfg) x ((server crypto cfg).code (purchase lot payload))
          [⟨.getAssetMeta, .ok info, x, x⟩, ⟨.hasNonce (X402.nonce payload), false, x, x⟩,
            ⟨.dateNow, now, x, x⟩]
          x (.call .getAssetMeta checked)) ∧
      (∀ x : ServerState,
        Pool.Executes (server crypto cfg) x (.call .getAssetMeta checked)
          [⟨.getAssetMeta, .ok info, x, x⟩, ⟨.addNonce (X402.nonce payload), (), x, x.use n⟩,
            ⟨.verdict (.valid (publicKey payload) payer), (), x.use n, x.use n⟩]
          (x.use n) (.call (.forwardToFacilitator payload (requirementsOf cfg info)) accepted)) ∧
      ∀ (x : ServerState) (reason : Option String) (forecast : Value),
        Pool.Executes (server crypto cfg) x
          (.call (.forwardToFacilitator payload (requirementsOf cfg info)) accepted)
          [⟨.forwardToFacilitator payload (requirementsOf cfg info),
              ⟨false, .localFallback, .undefined, reason⟩, x, x⟩,
            ⟨.computeForecast lot, .ok forecast, x, x⟩]
          x (.done ()) := by
  refine ⟨?_, ?_, fun x hnow hunused => ?_, fun x => ?_, fun x reason forecast => ?_⟩
  rotate_left 2
  · -- from the start to the `await` inside the verification
    show Pool.Executes _ _
      ((getSignal crypto cfg (purchase lot payload)).toProgram () >>= fun _ => .done ()) _ _ _
    simp only [purchase, getSignal, h.enabled, h.asset, Value.orElse, Value.toStr, Bool.not_true,
      Bool.false_eq_true, if_false, toProgram_bind, toProgram_ask, toProgram_result,
      Program.done_bind, Program.call_bind]
    refine .cons rfl ?_
    simp only [id, sellSignal, verifyX402V2Signature, verifyUnused, h.fields, toProgram_bind,
      toProgram_tryCatch, toProgram_ask, toProgram_result, Program.done_bind, Program.call_bind]
    refine .cons (decide_eq_false hunused ▸ answer_hasNonce h.nonce x) ?_
    simp only [Bool.false_eq_true, if_false, toProgram_bind, toProgram_ask, toProgram_result,
      Program.done_bind, Program.call_bind]
    refine .cons ⟨hnow.symm, rfl⟩ ?_
    simp only [h.times, toProgram_bind, toProgram_ask, toProgram_result, Program.done_bind,
      Program.call_bind]
    exact .nil _ _
  · -- from there to the settlement
    refine .cons rfl ?_
    simp only [id, h.signed, toProgram_bind, toProgram_ask, Program.done_bind, Program.call_bind]
    refine .cons (answer_addNonce h.nonce x) ?_
    refine .cons ⟨rfl, rfl⟩ ?_
    simp only [toProgram_bind, toProgram_ask, toProgram_result, Program.done_bind,
      Program.call_bind]
    exact .nil _ _
  · -- the rest is the same whatever the settlement says
    exact .cons rfl (.cons rfl (.nil _ _))

/-- The handler of a payment whose nonce has been added answers that it is required again. -/
lemma executes_replay (h : Acceptable crypto cfg info now payload n payer) (lot : String)
    {x : ServerState} (hused : n ∈ x.usedNonces) :
    Pool.Executes (server crypto cfg) x ((server crypto cfg).code (purchase lot payload))
      [⟨.getAssetMeta, .ok info, x, x⟩, ⟨.hasNonce (X402.nonce payload), true, x, x⟩,
        ⟨.verdict (.invalid "nonce already used (replay)"), (), x, x⟩,
        ⟨.getAssetMeta, .ok info, x, x⟩]
      x (.done ()) := by
  show Pool.Executes _ _
    ((getSignal crypto cfg (purchase lot payload)).toProgram () >>= fun _ => .done ()) _ _ _
  simp only [purchase, getSignal, h.enabled, h.asset, Value.orElse, Value.toStr, Bool.not_true,
    Bool.false_eq_true, if_false, toProgram_bind, toProgram_ask, toProgram_result,
    Program.done_bind, Program.call_bind]
  refine .cons rfl ?_
  simp only [id, sellSignal, verifyX402V2Signature, h.fields, toProgram_bind, toProgram_tryCatch,
    toProgram_ask, toProgram_result, Program.done_bind, Program.call_bind]
  refine .cons (decide_eq_true hused ▸ answer_hasNonce h.nonce x) ?_
  exact .cons ⟨rfl, rfl⟩ (.cons rfl (.nil _ _))

end

/-! ### Signatures and accounts in hexadecimal digits -/

section

variable {crypto : Crypto} {payload : Value} {s r t h : String}

lemma signatureHex_eq (hsig : signature payload = .str s) (hs : IsHex 130 s) :
    signatureHex payload = .ok s := by
  have hpad : padEnd 130 '0' s = s := padEnd_eq_self hs.length16.ge
  rw [signatureHex, hsig]
  show Except.ok (String.ofList (slice16 130 (padEnd 130 '0' (removeStart "0x" s)).toList)) = _
  rw [hs.removeStart (by decide), hpad, slice16_eq_take 130 hs.toNat_lt,
    List.take_of_length_le hs.length.le, String.ofList_toList]

lemma bytes_of_signature (hr : IsHex 64 r) :
    hexBytes ("02" ++ r ++ t).toList = 2 :: (hexBytes r.toList ++ hexBytes t.toList) := by
  have htag : IsHex 2 "02" := by decide
  have hbyte : hexBytes "02".toList = [2] := by decide
  rw [String.toList_append, String.toList_append, List.append_assoc,
    @hexBytes_append "02".toList _ 1 htag.length htag.digits,
    @hexBytes_append r.toList _ 32 hr.length hr.digits, hbyte]
  rfl

lemma parseAccountHash_tagged (hh : IsHex 64 h) : parseAccountHash (.str ("00" ++ h)) = .ok h := by
  have htag : IsHex (2 + 64) ("00" ++ h) := IsHex.append (by decide) hh
  show Except.ok (last64 (removeStart "00" (removeStart "account-hash-" ("00" ++ h)))) = _
  rw [htag.removeStart (by decide), removeStart_append, hh.last64]

/-- The algorithm does not matter for what a signature recovers to. -/
lemma recovers_of_mem {algo : ℕ} {rs ss : List ℕ} {hash compressed : String}
    (hr : rs.length = 32) (hs : ss.length = 32)
    (h : ∃ v ∈ [0, 1], crypto.recoverPublicKey (ofBytes rs) (ofBytes ss) v hash = .ok compressed) :
    recovers crypto (algo :: (rs ++ ss)) hash compressed = true := by
  obtain ⟨v, hv, hrecover⟩ := h
  have hfirst : ((algo :: (rs ++ ss)).drop 1).take 32 = rs := List.take_left' hr
  have hlast : ((algo :: (rs ++ ss)).drop 33).take 32 = ss := by
    rw [List.drop_succ_cons, List.drop_left' hr, List.take_of_length_le hs.le]
  rw [recovers, List.any_eq_true]
  refine ⟨v, hv, ?_⟩
  rw [hfirst, hlast, hrecover]
  exact decide_eq_true rfl

lemma checkSignature_eq_ok {requirements : PaymentRequirements} {hash key sigHex account : String}
    {sender : Value} (hdigest : digest crypto payload requirements = .ok hash)
    (hsig : signatureHex payload = .ok sigHex) (hlen : (hexBytes sigHex.toList).length = 65)
    (hkey : crypto.publicKeyHex (publicKey payload) = .ok key)
    (hrecovers : recovers crypto (hexBytes sigHex.toList) hash (String.ofList (key.toList.drop 2)) =
      true)
    (haccount : crypto.accountHashHex (publicKey payload) = .ok account)
    (hsender : (authorization payload).field "from" = .ok sender)
    (hfrom : parseAccountHash sender = .ok (last64 account)) :
    checkSignature crypto payload requirements =
      .ok (.ok (accountHashWithPrefix (last64 account))) := by
  refine bind_eq_ok.2 ⟨_, hdigest, bind_eq_ok.2 ⟨_, hsig, ?_⟩⟩
  simp only [hlen, hkey, hrecovers, ne_eq, not_true_eq_false, if_false, Bool.not_true,
    Bool.false_eq_true]
  refine bind_eq_ok.2 ⟨_, haccount, bind_eq_ok.2 ⟨_, hsender, bind_eq_ok.2 ⟨_, hfrom, ?_⟩⟩⟩
  rw [if_neg (not_not_intro rfl)]
  rfl

end

/-! ### A payment -/

/-- A server with the default settings. -/
def defaultServer : ServerConfig where
  demoEnabled := true
  asset := "3d80df21ba4ee4d66a2a1f60c32570dd5685e4b279f6538162a5fd1314847c1e"
  priceMotes := "1000000"
  payeeHex := payeeHex none
  network := "casper:casper-test"

/-- The asset, as the server knows it. -/
def wcspr : AssetMeta :=
  ⟨"Wrapped CSPR", "1", .finite 9, "WCSPR"⟩

/-- The compressed key of the payer, without the algorithm. -/
def payerKey : String :=
  "024904b501f405f97aa461506157dff57204e99a7c1c501ace96adb98c04f1f090"

/-- The account hash of the payer. -/
def payerHash : String :=
  "c5c3d9e27514350da940c79adee98bf35f3030380c1e61ded33bbe4aa0c332a9"

/-- The nonce of the payment. -/
def paymentNonce : String :=
  "78377b525757b494427f89014f97d79928f3938d14eb51e20fb5dec9834eb304"

/-- The two numbers of the signature of the payer. -/
def signatureR : String :=
  "723b39c302534617f3a47ac59c1431d4cdf9de19a200b559fea7e8b0e5c8d807"

@[inherit_doc signatureR]
def signatureS : String :=
  "4bf43a3bef45202641283e0a2715bc1febc28047f78e54a15c6c16a3ec7d44b1"

/-- A payment to the server in the first ten minutes of its clock. -/
def payment : Value :=
  .obj [
    ("accepted", .obj [("network", .str "casper:casper-test")]),
    ("payload", .obj [
      ("signature", .str ("02" ++ signatureR ++ signatureS)),
      ("publicKey", .str ("02" ++ payerKey)),
      ("authorization", .obj [
        ("from", .str ("00" ++ payerHash)),
        ("to", .str "000000000000000000000000000000000000000000000000000000000000000000"),
        ("value", .str "1000000"),
        ("validAfter", .str "0"),
        ("validBefore", .str "600"),
        ("nonce", .str paymentNonce)])])]

/-- The digest of the payment. -/
def paymentDigest : String :=
  "8cdad1a7709a17eb5e71ae8d33eba7a104c891971a66ec3e08c7a0a1e379a8bb"

/-- What the SDK, the typed-data library and the curve compute on the payment. -/
def payerCrypto : Crypto where
  publicKeyHex
    | .str key => .ok key
    | _ => .error ⟨"not a string"⟩
  accountHashHex := fun _ => .ok payerHash
  xCoordinate := fun _ => .ok "4904b501f405f97aa461506157dff57204e99a7c1c501ace96adb98c04f1f090"
  buildDomain := fun name version chainName package =>
    .ok (.obj [("name", .str name), ("version", .str version), ("chain_name", .str chainName),
      ("contract_package_hash", .str package)])
  hashTypedData := fun _ _ => .ok paymentDigest
  recoverPublicKey := fun r s v hash =>
    if r = 51668307372290541545427076673967218920208302841275985125133076638877975369735 ∧
        s = 34354976244673946443548946176196306594649259022466418325900770843589571593393 ∧
        v = 0 ∧ hash = paymentDigest then .ok payerKey
    else .error ⟨"invalid signature"⟩

lemma payerHash_isHex : IsHex 64 payerHash := by
  decide

lemma signatureR_spec : IsHex 64 signatureR ∧ ofBytes (hexBytes signatureR.toList) =
    51668307372290541545427076673967218920208302841275985125133076638877975369735 := by
  decide

lemma signatureS_spec : IsHex 64 signatureS ∧ ofBytes (hexBytes signatureS.toList) =
    34354976244673946443548946176196306594649259022466418325900770843589571593393 := by
  decide

lemma payment_fields : checkFields payment (requirementsOf defaultServer wcspr) = .ok none := by
  rfl

lemma payment_times : checkTimes payment (0 / 1000) = .ok none := by
  decide +kernel

lemma payment_digest :
    digest payerCrypto payment (requirementsOf defaultServer wcspr) = .ok paymentDigest := by
  rfl

lemma payment_recovers :
    (hexBytes ("02" ++ signatureR ++ signatureS).toList).length = 65 ∧
      recovers payerCrypto (hexBytes ("02" ++ signatureR ++ signatureS).toList) paymentDigest
        payerKey = true := by
  obtain ⟨hr, hrval⟩ := signatureR_spec
  obtain ⟨hs, hsval⟩ := signatureS_spec
  have hrlen : (hexBytes signatureR.toList).length = 32 := length_hexBytes hr.length hr.digits
  have hslen : (hexBytes signatureS.toList).length = 32 := length_hexBytes hs.length hs.digits
  rw [bytes_of_signature hr]
  refine ⟨?_, recovers_of_mem hrlen hslen ⟨0, by decide, ?_⟩⟩
  · rw [List.length_cons, List.length_append, hrlen, hslen]
  · rw [hrval, hsval]
    simp [payerCrypto]

lemma payment_signed :
    checkSignature payerCrypto payment (requirementsOf defaultServer wcspr) =
      .ok (.ok (accountHashWithPrefix payerHash)) := by
  obtain ⟨hbytes, hrecovers⟩ := payment_recovers
  have hsig : signatureHex payment = .ok ("02" ++ signatureR ++ signatureS) :=
    signatureHex_eq rfl (((by decide : IsHex 2 "02").append signatureR_spec.1).append
      signatureS_spec.1)
  have hkey : payerCrypto.publicKeyHex (publicKey payment) = .ok ("02" ++ payerKey) := rfl
  have hcompressed : String.ofList (("02" ++ payerKey).toList.drop 2) = payerKey := by simp
  have haccount : payerCrypto.accountHashHex (publicKey payment) = .ok payerHash := rfl
  have hauth : (authorization payment).field "from" = .ok (.str ("00" ++ payerHash)) := rfl
  have hfrom : parseAccountHash (.str ("00" ++ payerHash)) = .ok (last64 payerHash) := by
    rw [payerHash_isHex.last64, parseAccountHash_tagged payerHash_isHex]
  have hchecked := checkSignature_eq_ok payment_digest hsig hbytes hkey
    (hcompressed.symm ▸ hrecovers) haccount hauth hfrom
  rwa [payerHash_isHex.last64] at hchecked

lemma payment_acceptable :
    Acceptable payerCrypto defaultServer wcspr 0 payment paymentNonce
      (accountHashWithPrefix payerHash) where
  enabled := rfl
  asset := by decide
  nonce := rfl
  fields := payment_fields
  times := payment_times
  signed := payment_signed

end ArwaAgent.X402
