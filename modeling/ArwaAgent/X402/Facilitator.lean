import ArwaAgent.Lib.Record
import ArwaAgent.X402.Wire

/-!
# The facilitator

A payment whose signature is right is settled by a facilitator, in two requests: `/verify`, and
then `/settle`.  Whatever goes wrong, the server goes on without a settlement.  A settlement
is announced only if both requests have been answered well, and its hash is the one that the client
reads from the `PAYMENT-RESPONSE` header.
-/

namespace ArwaAgent.X402

open Js Effects Effects.Code

/-- The settings for the facilitator. -/
structure FacilitatorConfig where
  x402FacilitatorUrl : String
  csprCloudApiKey : String

/-- A request to the facilitator. -/
structure FacilitatorRequest where
  url : String
  authorization : String
  body : Value

/-- The calls of `forwardToFacilitator`: a request, and the reading of the last response. -/
inductive FacilitatorOp
  | fetch (req : FacilitatorRequest)
  | text
  | json

/-- What a call is answered with: a request with the status of the response. -/
@[reducible] def FacilitatorAns : FacilitatorOp → Type
  | .fetch _ => Except Error ℕ
  | .text => Except Error String
  | .json => Except Error Value

/-- The request for a step of the settlement. -/
def FacilitatorConfig.request (cfg : FacilitatorConfig) (step : String) (payload : Value)
    (requirements : PaymentRequirements) : FacilitatorRequest where
  url := cfg.x402FacilitatorUrl ++ step
  authorization := cfg.csprCloudApiKey
  body := .obj [("paymentPayload", payload), ("paymentRequirements", requirements.toJson)]

/-- `res.ok` -/
def isOk (status : ℕ) : Bool :=
  200 ≤ status && status ≤ 299

/-- No settlement. -/
def localFallback (reason : String) : Settlement :=
  ⟨false, .localFallback, .undefined, some reason⟩

/-- The settlement that an answer to `/settle` stands for. -/
def settlementOf (data : Value) : Except Error Settlement := do
  let ok := match ← data.field "success" with
    | .bool false => false
    | _ => true
  return ⟨ok, .facilitator, (data.ownField "deployHash").orElse (data.ownField "txHash"), none⟩

/-- The second request, for a payment that has been verified. -/
def settleVerified (cfg : FacilitatorConfig) (payload : Value)
    (requirements : PaymentRequirements) :
    Code FacilitatorOp FacilitatorAns Error Unit Settlement := do
  let status ← ask (.fetch (cfg.request "/settle" payload requirements)) id
  if isOk status then
    let settleData ← ask .json id
    result (settlementOf settleData)
  else
    let text ← ask .text id
    return localFallback s!"facilitator /settle {status}: {cut 200 text}"

/-- `forwardToFacilitator` -/
def forwardToFacilitator (cfg : FacilitatorConfig) (payload : Value)
    (requirements : PaymentRequirements) :
    Code FacilitatorOp FacilitatorAns Error Unit Settlement :=
  if cfg.x402FacilitatorUrl = "" then return localFallback "X402_FACILITATOR_URL not set"
  else
    tryCatch (do
        let status ← ask (.fetch (cfg.request "/verify" payload requirements)) id
        if isOk status then
          let verifyData ← ask .json id
          let isValid ← result (verifyData.field "isValid")
          if isValid.truthy then settleVerified cfg payload requirements
          else
            let reason ← result (verifyData.ownField "invalidReason").toStr
            let message ← result (verifyData.ownField "invalidMessage").toStr
            return localFallback s!"facilitator /verify rejected: {reason}: {message}"
        else
          let text ← ask .text id
          return localFallback s!"facilitator /verify {status}: {cut 200 text}")
      fun e => return localFallback s!"facilitator error: {cut 100 e.message}"

/-- The calls of one settlement, with their answers. -/
abbrev FacilitatorTrace : Type :=
  List (Reply FacilitatorOp FacilitatorAns)

/-- The facilitator has been asked about the payment, and calls it valid. -/
inductive Verifies (cfg : FacilitatorConfig) (payload : Value)
    (requirements : PaymentRequirements) : FacilitatorTrace → Prop
  | intro {status : ℕ} {verifyData : Value} (hstatus : isOk status = true)
      (hvalid : (verifyData.ownField "isValid").truthy = true) :
      Verifies cfg payload requirements
        [⟨.fetch (cfg.request "/verify" payload requirements), .ok status⟩, ⟨.json, .ok verifyData⟩]

/-- The facilitator has settled the payment, after it has called it valid. -/
inductive Settles (cfg : FacilitatorConfig) (payload : Value) (requirements : PaymentRequirements)
    (hash : Value) : FacilitatorTrace → Prop
  | intro {verified : FacilitatorTrace} {status : ℕ} {settleData success : Value}
      (hverified : Verifies cfg payload requirements verified) (hstatus : isOk status = true)
      (hsuccess : settleData.field "success" = .ok success) (htrue : success ≠ .bool false)
      (hhash : hash = (settleData.ownField "deployHash").orElse (settleData.ownField "txHash")) :
      Settles cfg payload requirements hash
        (verified ++ [⟨.fetch (cfg.request "/settle" payload requirements), .ok status⟩,
          ⟨.json, .ok settleData⟩])

section

variable {cfg : FacilitatorConfig} {payload : Value} {requirements : PaymentRequirements}
  {trace : FacilitatorTrace} {settle : Settlement}

/-- What a settlement and its calls have in common. -/
structure Settled (cfg : FacilitatorConfig) (payload : Value) (requirements : PaymentRequirements)
    (trace : FacilitatorTrace) (settle : Settlement) : Prop where
  /-- it is announced with a hash if and only if it has been confirmed with it -/
  settles_iff : ∀ hash, Settles cfg payload requirements hash trace ↔
    settle.ok = true ∧ settle.settleTxHash = hash
  /-- a payment goes to `/settle` right after it has been verified, and only then -/
  verified : ∀ before after r,
    trace = before ++ ⟨.fetch (cfg.request "/settle" payload requirements), r⟩ :: after →
      Verifies cfg payload requirements before

lemma request_ne : FacilitatorOp.fetch (cfg.request "/verify" payload requirements) ≠
    .fetch (cfg.request "/settle" payload requirements) := by
  intro h
  have hurl := congrArg FacilitatorRequest.url (FacilitatorOp.fetch.inj h)
  exact absurd ((String.append_right_inj _).1 hurl) (by decide)

/-- The payment has not gone to `/settle`. -/
def Unasked (cfg : FacilitatorConfig) (payload : Value) (requirements : PaymentRequirements)
    (trace : FacilitatorTrace) : Prop :=
  ∀ e ∈ trace, e.op ≠ .fetch (cfg.request "/settle" payload requirements)

lemma Unasked.snoc (h : Unasked cfg payload requirements trace) {op : FacilitatorOp}
    {r : FacilitatorAns op} (hop : op ≠ .fetch (cfg.request "/settle" payload requirements)) :
    Unasked cfg payload requirements (trace ++ [⟨op, r⟩]) := by
  intro e he
  rcases List.mem_append.1 he with he | he
  · exact h e he
  · obtain rfl := List.mem_singleton.1 he
    exact hop

lemma Unasked.single {op : FacilitatorOp} {r : FacilitatorAns op}
    (hop : op ≠ .fetch (cfg.request "/settle" payload requirements)) :
    Unasked cfg payload requirements [⟨op, r⟩] :=
  @Unasked.snoc cfg payload requirements [] nofun op r hop

/-- Without a request to `/settle`, there is no settlement. -/
lemma Settled.of_not_mem (hok : settle.ok = false)
    (h : Unasked cfg payload requirements trace) :
    Settled cfg payload requirements trace settle where
  settles_iff hash := by
    rw [hok]
    refine ⟨fun hsettles => ?_, fun hfalse => Bool.false_ne_true.elim hfalse.1⟩
    obtain ⟨-, -, -, -, -⟩ := hsettles
    exact absurd rfl (h _ (List.mem_append_right _ List.mem_cons_self))
  verified := by
    rintro before after r rfl
    exact absurd rfl (h _ (List.mem_append_right _ List.mem_cons_self))

lemma verified_of_eq {verified before after rest : FacilitatorTrace}
    {r r' : FacilitatorAns (.fetch (cfg.request "/settle" payload requirements))}
    (hverified : Verifies cfg payload requirements verified)
    (hrest : Unasked cfg payload requirements rest)
    (h : verified ++ ⟨.fetch (cfg.request "/settle" payload requirements), r⟩ :: rest =
      before ++ ⟨.fetch (cfg.request "/settle" payload requirements), r'⟩ :: after) :
    before = verified := by
  have hnot : Unasked cfg payload requirements verified := by
    obtain ⟨-, -⟩ := hverified
    exact (Unasked.single request_ne).snoc nofun
  rcases List.append_eq_append_iff.1 h with ⟨xs, hbefore, hxs⟩ | ⟨xs, hverified', hxs⟩
  · cases xs with
    | nil => rw [hbefore, List.append_nil]
    | cons e xs =>
      rw [List.cons_append, List.cons.injEq] at hxs
      exact absurd rfl (hrest _ (hxs.2 ▸ List.mem_append_right _ List.mem_cons_self))
  · cases xs with
    | nil => rw [hverified', List.append_nil]
    | cons e xs =>
      rw [List.cons_append, List.cons.injEq] at hxs
      refine absurd (congrArg Reply.op hxs.1).symm (hnot e ?_)
      rw [hverified']
      exact List.mem_append_right _ List.mem_cons_self

lemma settles_verified_iff {verified rest : FacilitatorTrace} {hash : Value}
    {r : FacilitatorAns (.fetch (cfg.request "/settle" payload requirements))}
    (hverified : Verifies cfg payload requirements verified)
    (hrest : Unasked cfg payload requirements rest) :
    Settles cfg payload requirements hash
        (verified ++ ⟨.fetch (cfg.request "/settle" payload requirements), r⟩ :: rest) ↔
      ∃ status settleData success, r = .ok status ∧ isOk status = true ∧
        rest = [⟨.json, .ok settleData⟩] ∧ settleData.field "success" = .ok success ∧
          success ≠ .bool false ∧
            hash = (settleData.ownField "deployHash").orElse (settleData.ownField "txHash") := by
  constructor
  · intro h
    generalize htrace :
      verified ++ ⟨.fetch (cfg.request "/settle" payload requirements), r⟩ :: rest = trace at h
    obtain ⟨hverified', hstatus, hsuccess, htrue, hhash⟩ := h
    obtain rfl := verified_of_eq hverified hrest htrace
    have hcalls := List.append_cancel_left htrace
    rw [List.cons.injEq, Reply.mk.injEq] at hcalls
    obtain ⟨⟨-, hr⟩, hrest'⟩ := hcalls
    exact ⟨_, _, _, eq_of_heq hr, hstatus, hrest', hsuccess, htrue, hhash⟩
  · rintro ⟨status, settleData, success, rfl, hstatus, rfl, hsuccess, htrue, hhash⟩
    exact .intro hverified hstatus hsuccess htrue hhash

lemma Settled.of_verified {verified rest : FacilitatorTrace}
    {r : FacilitatorAns (.fetch (cfg.request "/settle" payload requirements))}
    (hverified : Verifies cfg payload requirements verified)
    (hrest : Unasked cfg payload requirements rest)
    (hsettles : ∀ hash, (∃ status settleData success, r = .ok status ∧ isOk status = true ∧
      rest = [⟨.json, .ok settleData⟩] ∧ settleData.field "success" = .ok success ∧
        success ≠ .bool false ∧
          hash = (settleData.ownField "deployHash").orElse (settleData.ownField "txHash")) ↔
      settle.ok = true ∧ settle.settleTxHash = hash) :
    Settled cfg payload requirements
      (verified ++ ⟨.fetch (cfg.request "/settle" payload requirements), r⟩ :: rest) settle where
  settles_iff hash := (settles_verified_iff hverified hrest).trans (hsettles hash)
  verified _ _ _ heq := verified_of_eq hverified hrest heq ▸ hverified

/-- An answer to `/settle` with fields is a settlement, unless it says that there is none. -/
lemma settlementOf_eq {data success : Value} (h : data.field "success" = .ok success) :
    ∃ s, settlementOf data = .ok s ∧ (s.ok = true ↔ success ≠ .bool false) ∧
      s.settleTxHash = (data.ownField "deployHash").orElse (data.ownField "txHash") := by
  refine ⟨_, by rw [settlementOf, h, ok_bind]; rfl, ?_, rfl⟩
  dsimp only
  split
  · simp
  next hne => simpa using fun hfalse => hne hfalse

/-- A step of the protocol ends, or fails. -/
def Ends (cfg : FacilitatorConfig) (payload : Value) (requirements : PaymentRequirements)
    (trace : FacilitatorTrace) : Except Error Settlement → Prop
  | .ok s => Settled cfg payload requirements trace s
  | .error _ => ∀ s : Settlement, s.ok = false → Settled cfg payload requirements trace s

lemma Unasked.ends_ok (h : Unasked cfg payload requirements trace) {reason : String} :
    Ends cfg payload requirements trace (.ok (localFallback reason)) :=
  Settled.of_not_mem rfl h

lemma Unasked.ends_error (h : Unasked cfg payload requirements trace) (e : Error) :
    Ends cfg payload requirements trace (.error e) :=
  fun _ hs => .of_not_mem hs h

/-- The second request ends, or fails, as it has been answered. -/
lemma settleVerified_meets {verified : FacilitatorTrace}
    (hverified : Verifies cfg payload requirements verified) :
    Meets recorder verified () (settleVerified cfg payload requirements) fun trace _ r =>
      Ends cfg payload requirements trace r := by
  -- what has not been confirmed is no settlement
  have hnot : ∀ {r rest} {s : Settlement}, s.ok = false →
      Unasked cfg payload requirements rest →
      (∀ status data success, r = .ok status → isOk status = true → rest = [⟨.json, .ok data⟩] →
        data.field "success" ≠ .ok success) →
      Settled cfg payload requirements
        (verified ++ ⟨.fetch (cfg.request "/settle" payload requirements), r⟩ :: rest) s := by
    intro r rest s hs hrest h
    refine .of_verified hverified hrest fun hash => ?_
    rw [hs]
    refine ⟨?_, fun hfalse => Bool.false_ne_true.elim hfalse.1⟩
    rintro ⟨status, data, success, hr, hstatus, hdata, hsuccess, -, -⟩
    exact absurd hsuccess (h status data success hr hstatus hdata)
  refine meets_ask_bind.2 ⟨trivial, fun r _ => ?_⟩
  cases r with
  | error e => exact fun s hs => hnot hs nofun nofun
  | ok status =>
    simp only [id]
    split
    next hstatus =>
      refine meets_ask_bind.2 ⟨trivial, fun r _ => ?_⟩
      rw [show recorder.next _ .json r = verified ++
        ⟨.fetch (cfg.request "/settle" payload requirements), .ok status⟩ :: [⟨.json, r⟩] from
          List.append_assoc ..]
      cases r with
      | error e => exact fun s hs => hnot hs (.single nofun) nofun
      | ok settleData =>
        show Ends cfg payload requirements _ (settlementOf settleData)
        cases hsuccess : settleData.field "success" with
        | error e =>
          rw [settlementOf, hsuccess]
          refine fun s hs => hnot hs (.single nofun) ?_
          rintro _ data success ⟨⟩ - ⟨⟩ hsuccess'
          exact absurd (hsuccess.symm.trans hsuccess') (by simp)
        | ok success =>
          obtain ⟨s, hs, hok, hhash⟩ := settlementOf_eq hsuccess
          rw [hs]
          refine .of_verified hverified (.single nofun) fun hash => ?_
          rw [hok, hhash]
          constructor
          · rintro ⟨_, data, success', ⟨⟩, -, ⟨⟩, hsuccess', htrue, rfl⟩
            obtain rfl := Except.ok.inj (hsuccess.symm.trans hsuccess')
            exact ⟨htrue, rfl⟩
          · rintro ⟨htrue, rfl⟩
            exact ⟨status, settleData, success, rfl, hstatus, rfl, hsuccess, htrue, rfl⟩
    next hstatus =>
      refine meets_ask_bind.2 ⟨trivial, fun r _ => ?_⟩
      rw [show recorder.next _ .text r = verified ++
        ⟨.fetch (cfg.request "/settle" payload requirements), .ok status⟩ :: [⟨.text, r⟩] from
          List.append_assoc ..]
      have hread : Unasked cfg payload requirements [⟨.text, r⟩] := .single nofun
      have hfallback : ∀ s : Settlement, s.ok = false → Settled cfg payload requirements
          (verified ++ ⟨.fetch (cfg.request "/settle" payload requirements), .ok status⟩ ::
            [⟨.text, r⟩]) s := by
        refine fun s hs => hnot hs hread ?_
        rintro status' data success hok hstatus'
        exact absurd (Except.ok.inj hok ▸ hstatus') hstatus
      cases r with
      | error e => exact hfallback
      | ok text => exact meets_pure.2 (hfallback (localFallback _) rfl)

lemma unasked_read {r : FacilitatorAns (.fetch (cfg.request "/verify" payload requirements))}
    (op : FacilitatorOp) (r' : FacilitatorAns op)
    (hop : op ≠ .fetch (cfg.request "/settle" payload requirements)) :
    Unasked cfg payload requirements
      [⟨.fetch (cfg.request "/verify" payload requirements), r⟩, ⟨op, r'⟩] :=
  (Unasked.single request_ne).snoc hop

/-- Whatever the facilitator answers, a settlement is announced as it has been confirmed. -/
lemma forwardToFacilitator_meets (cfg : FacilitatorConfig) (payload : Value)
    (requirements : PaymentRequirements) :
    Meets recorder [] () (forwardToFacilitator cfg payload requirements) fun trace _ r =>
      ∃ s, r = .ok s ∧ Settled cfg payload requirements trace s := by
  rw [forwardToFacilitator]
  split
  · exact ⟨_, rfl, .of_not_mem rfl nofun⟩
  refine Meets.tryCatch (R := fun trace _ r => Ends cfg payload requirements trace r) ?_
    (fun trace _ s h => ⟨s, rfl, h⟩) fun trace _ e h => ⟨_, rfl, h _ rfl⟩
  refine meets_ask_bind.2 ⟨trivial, fun r _ => ?_⟩
  cases r with
  | error e => exact Unasked.ends_error (.single request_ne) e
  | ok status =>
    simp only [id]
    split
    next hstatus =>
      refine meets_ask_bind.2 ⟨trivial, fun r _ => ?_⟩
      cases r with
      | error e => exact (unasked_read .json (.error e) nofun).ends_error e
      | ok verifyData =>
        have hread : Unasked cfg payload requirements
            [⟨.fetch (cfg.request "/verify" payload requirements), .ok status⟩,
              ⟨.json, .ok verifyData⟩] := unasked_read .json (.ok verifyData) nofun
        refine Meets.result_bind (fun isValid hisValid => ?_) hread.ends_error
        split
        next hvalid =>
          rw [Value.field_eq_ok hisValid] at hvalid
          exact settleVerified_meets (.intro hstatus hvalid)
        next hvalid =>
          refine Meets.result_bind (fun reason _ => ?_) hread.ends_error
          refine Meets.result_bind (fun message _ => ?_) hread.ends_error
          exact meets_pure.2 hread.ends_ok
    next hstatus =>
      refine meets_ask_bind.2 ⟨trivial, fun r _ => ?_⟩
      cases r with
      | error e => exact (unasked_read .text (.error e) nofun).ends_error e
      | ok text => exact meets_pure.2 (unasked_read .text (.ok text) nofun).ends_ok

/-! ### What the client is told -/

lemma encodeHeader_skip (first : String × Value) (k : String) (after : List (String × Value)) :
    encodeHeader (.obj (first :: (k, .undefined) :: after)) =
      encodeHeader (.obj (first :: after)) := by
  obtain ⟨k', v⟩ := first
  simp only [encodeHeader, Json.stringify, Json.members]

/-- The client reads the hash that the server has announced. -/
lemma settleTxHashOf_ok {scfg : ServerConfig} (hok : settle.ok = true)
    (hhash : settle.settleTxHash = .undefined ∨ Json.Readable settle.settleTxHash) :
    settleTxHashOf (paymentResponseHeader scfg settle) =
      settle.settleTxHash.orElse (.str "") := by
  rw [paymentResponseHeader, paymentResponse, if_pos hok]
  rcases hhash with hhash | hhash
  · have hreadable : Json.Readable (.obj [("success", .bool true), ("network", .str scfg.network)]) :=
      ⟨by simp, trivial, trivial, trivial⟩
    rw [hhash, encodeHeader_skip, settleTxHashOf_encodeHeader hreadable]
    rfl
  · have hreadable : Json.Readable (.obj [("success", .bool true),
        ("transaction", settle.settleTxHash), ("network", .str scfg.network)]) :=
      ⟨by simp, trivial, hhash, trivial, trivial⟩
    rw [settleTxHashOf_encodeHeader hreadable]
    cases settle.settleTxHash <;> rfl

lemma settleTxHashOf_not_ok {scfg : ServerConfig} (hok : settle.ok = false) :
    settleTxHashOf (paymentResponseHeader scfg settle) = .str "" := by
  rw [paymentResponseHeader, paymentResponse, hok, if_neg Bool.false_ne_true]
  cases settle.reason with
  | none =>
    have hreadable :
        Json.Readable (.obj [("success", .bool false), ("network", .str scfg.network)]) :=
      ⟨by simp, trivial, trivial, trivial⟩
    rw [Option.map_none, Option.getD_none, encodeHeader_skip,
      settleTxHashOf_encodeHeader hreadable]
    rfl
  | some reason =>
    have hreadable : Json.Readable (.obj [("success", .bool false), ("error", .str reason),
        ("network", .str scfg.network)]) := ⟨by simp, trivial, trivial, trivial, trivial⟩
    rw [Option.map_some, Option.getD_some, settleTxHashOf_encodeHeader hreadable]
    rfl

/-- A facilitator, and what it says about a payment that it settles. -/
def testFacilitator : FacilitatorConfig :=
  ⟨"https://x402-facilitator.cspr.cloud", "key"⟩

@[inherit_doc testFacilitator]
def testStep (step : String) : Reply FacilitatorOp FacilitatorAns :=
  ⟨.fetch (testFacilitator.request step pointPayment (requirementsOf bareEnv.config wcspr)),
    .ok 200⟩

@[inherit_doc testFacilitator]
def testVerdict : Reply FacilitatorOp FacilitatorAns :=
  ⟨.json, .ok (.obj [("isValid", .bool true)])⟩

@[inherit_doc testFacilitator]
def testHash : Reply FacilitatorOp FacilitatorAns :=
  ⟨.json, .ok (.obj [("success", .bool true), ("deployHash", .str "5b1c")])⟩

end

end ArwaAgent.X402
