import ArwaAgent.Js.Tree
import ArwaAgent.Lib.Base64
import ArwaAgent.Lib.Utf8
import ArwaAgent.X402.Spending

/-!
# The headers of a payment

The three headers of x402 carry JSON in UTF-8 in base64.  The client and the server of this
development pass on what the headers stand for; here they are written and read as
texts.  Each side reads what the other one has written: the requirements of the server, whatever it
knows about the asset, the payment of the client, whatever requirements it is for, and the
settlement, whatever the facilitator has answered.
-/

namespace ArwaAgent.X402

open Js Effects Effects.Code

/-! ### Writing and reading -/

/-- `Buffer.from(JSON.stringify(v), 'utf-8').toString('base64')`, for a value that JSON has a text
for. -/
def encodeHeader (v : Value) : Option String :=
  (Json.stringify v).map fun t => String.ofList (Base64.encode (Utf8.encode t))

/-- `JSON.parse(Buffer.from(b64, 'base64').toString('utf-8'))`; `none` where it throws. -/
def decodeHeader (b64 : String) : Option Value :=
  Json.parse (String.ofList (Utf8.decode (Base64.decode b64.toList)))

/-- `parsePaymentRequiredHeader`, on the header of a 402 answer -/
def parsePaymentRequiredHeader (b64 : String) : Option Value :=
  decodeHeader b64

/-- `encodePaymentPayload` -/
def encodePaymentPayload (payload : Value) : Option String :=
  encodeHeader payload

/-- The `PAYMENT-REQUIRED` header of a 402 answer. -/
def paymentRequiredHeader (requirements : PaymentRequirements) : Option String :=
  encodeHeader requirements.toJson

/-- The `PAYMENT-SIGNATURE` header as the handler decodes it; what the parser says about a text
that is no JSON is left open. -/
def decodeSignature (message : String) (header : Option String) : PaymentSignature :=
  match header.filter (· ≠ "") with
  | none => .missing
  | some b64 =>
    match decodeHeader b64 with
    | none => .malformed message
    | some payload => .payload payload

/-- The JSON of the `PAYMENT-RESPONSE` header. -/
def paymentResponse (cfg : ServerConfig) (settle : Settlement) : Value :=
  if settle.ok then
    .obj [("success", .bool true), ("transaction", settle.settleTxHash),
      ("network", .str cfg.network)]
  else
    .obj [("success", .bool false), ("error", (settle.reason.map .str).getD .undefined),
      ("network", .str cfg.network)]

/-- The `PAYMENT-RESPONSE` header. -/
def paymentResponseHeader (cfg : ServerConfig) (settle : Settlement) : Option String :=
  encodeHeader (paymentResponse cfg settle)

/-- The hash of the settlement as the client reads it from the header, if there is one. -/
def settleTxHashOf (header : Option String) : Value :=
  settleTxHash ((header.filter (· ≠ "")).bind decodeHeader)

section

variable {v : Value} {header : String} {requirements : PaymentRequirements}

lemma decodeHeader_empty : decodeHeader "" = none := rfl

theorem decodeHeader_encodeHeader (h : Json.Readable v) :
    ∃ header, encodeHeader v = some header ∧ header ≠ "" ∧ decodeHeader header = some v := by
  obtain ⟨t, ht, hparse⟩ := Json.parse_stringify h
  have hdecode : decodeHeader (String.ofList (Base64.encode (Utf8.encode t))) = some v := by
    rw [decodeHeader, String.toList_ofList,
      Base64.decode_encode fun b hb => Utf8.lt_of_mem_encode hb, Utf8.decode_encode, hparse]
  refine ⟨_, by rw [encodeHeader, ht]; rfl, ?_, hdecode⟩
  intro hempty
  rw [hempty, decodeHeader_empty] at hdecode
  cases hdecode

/-- What the client reads for the hash of a settlement is what has been written for it. -/
lemma settleTxHashOf_encodeHeader (h : Json.Readable v) :
    settleTxHashOf (encodeHeader v) = settleTxHash (some v) := by
  obtain ⟨header, hencode, hne, hdecode⟩ := decodeHeader_encodeHeader h
  rw [hencode, settleTxHashOf, Option.filter_some, if_pos (decide_eq_true hne), Option.bind_some,
    hdecode]

/-! ### The requirements -/

lemma readable_toJson (h : requirements.maxTimeoutSeconds < 10 ^ 15) :
    Json.Readable requirements.toJson := by
  simp only [PaymentRequirements.toJson, Json.Readable, Json.ReadableMembers, List.map_cons,
    List.map_nil, true_and, and_true]
  refine ⟨by decide, ⟨requirements.maxTimeoutSeconds, ?_, by simp⟩, by decide⟩
  rw [abs_of_nonneg (Int.natCast_nonneg _)]
  exact_mod_cast h

lemma readable_requirementsOf (cfg : ServerConfig) (info : AssetMeta) :
    Json.Readable (requirementsOf cfg info).toJson :=
  @readable_toJson (requirementsOf cfg info) (show 600 < 10 ^ 15 by decide)

/-! ### The payment -/

lemma readable_lookup {fields : List (String × Value)} (h : Json.ReadableMembers fields)
    (name : String) :
    (fields.lookup name).getD .undefined = .undefined ∨
      Json.Readable ((fields.lookup name).getD .undefined) := by
  induction fields with
  | nil => exact Or.inl rfl
  | cons f fields ih =>
    obtain ⟨k, w⟩ := f
    rw [List.lookup_cons]
    split
    · exact Or.inr h.1
    · exact ih h.2

lemma readable_ownField (h : Json.Readable v) {name : String} (hname : name ≠ "length") :
    v.ownField name = .undefined ∨ Json.Readable (v.ownField name) := by
  cases v with
  | obj fields => exact readable_lookup h.2 name
  | str s => exact Or.inl (if_neg hname)
  | arr vs => exact Or.inl (if_neg hname)
  | _ => exact Or.inl rfl

lemma readableMembers_filter {fields : List (String × Value)} (h : Json.ReadableMembers fields)
    (p : String × Value → Bool) : Json.ReadableMembers (fields.filter p) := by
  induction fields with
  | nil => exact trivial
  | cons f fields ih =>
    rw [List.filter_cons]
    split
    · exact ⟨h.1, ih h.2⟩
    · exact ih h.2

lemma readableMembers_iff {fields : List (String × Value)} :
    Json.ReadableMembers fields ↔ ∀ f ∈ fields, Json.Readable f.2 := by
  induction fields with
  | nil => exact ⟨fun _ => nofun, fun _ => trivial⟩
  | cons f fields ih =>
    rw [List.forall_mem_cons, ← ih]
    rfl

lemma readableElements_iff {elems : List Value} :
    Json.ReadableElements elems ↔ ∀ e ∈ elems, Json.Readable e := by
  induction elems with
  | nil => exact ⟨fun _ => nofun, fun _ => trivial⟩
  | cons e elems ih =>
    rw [List.forall_mem_cons, ← ih]
    rfl

lemma nodup_mapIdx {α : Type} (xs : List α) (f : α → Value) :
    ((xs.mapIdx fun i x => (toString i, f x)).map Prod.fst).Nodup := by
  rw [List.nodup_iff_injective_getElem]
  intro i j hij
  simp only [List.getElem_map, List.getElem_mapIdx] at hij
  exact Fin.ext (toString_injective hij)

/-- A readable value with a text for one of its fields. -/
lemma readable_withField (h : Json.Readable v) (name text : String) :
    Json.Readable (v.withField name (.str text)) := by
  have hreadable : ∀ fields : List (String × Value), (fields.map Prod.fst).Nodup →
      Json.ReadableMembers fields →
      Json.Readable (.obj ((name, .str text) :: fields.filter (·.1 ≠ name))) := by
    intro fields hnodup hmembers
    refine ⟨?_, trivial, readableMembers_filter hmembers _⟩
    rw [List.map_cons, List.nodup_cons]
    refine ⟨fun hmem => ?_, hnodup.sublist (List.filter_sublist.map _)⟩
    obtain ⟨f, hf, rfl⟩ := List.mem_map.1 hmem
    exact absurd rfl (of_decide_eq_true (List.mem_filter.1 hf).2)
  cases v with
  | obj fields => exact hreadable fields h.1 h.2
  | arr elems =>
    refine hreadable _ (nodup_mapIdx elems id) (readableMembers_iff.2 fun f hf => ?_)
    obtain ⟨i, hi, rfl⟩ := List.mem_mapIdx.1 hf
    exact readableElements_iff.1 h _ (List.getElem_mem hi)
  | str s =>
    refine hreadable _ (nodup_mapIdx s.toList fun c => .str (String.ofList [c]))
      (readableMembers_iff.2 fun f hf => ?_)
    obtain ⟨i, hi, rfl⟩ := List.mem_mapIdx.1 hf
    exact trivial
  | _ => exact hreadable [] List.nodup_nil trivial

/-- What is asked for with the amount of the caller is readable like what the header asks for. -/
lemma readable_offer {options : FetchOptions} (h : Json.Readable v) :
    Json.Readable (options.offer v) := by
  rw [FetchOptions.offer]
  split
  · split
    · exact readable_withField h _ _
    · exact h
  · exact h

/-- A payment is readable like the requirements that it is for. -/
lemma Signed.readable {c : ClientCrypto} {endpoint : String} {reqs p : Value}
    (h : Signed c endpoint reqs p) (hreqs : Json.Readable reqs) : Json.Readable p := by
  obtain ⟨ht, hvalue, -, -, -, -, -, -, -⟩ := h
  have hamount : Json.Readable (reqs.ownField "amount") := by
    refine (readable_ownField hreqs (by decide)).resolve_left fun hamount => ?_
    rw [hamount] at hvalue
    cases hvalue
  simp only [paymentPayload, Json.Readable, Json.ReadableMembers, List.map_cons, List.map_nil,
    true_and, and_true]
  exact ⟨by decide, ⟨2, by decide, rfl⟩, by decide, hreqs, by decide, by decide, hamount⟩

/-- A header that has been written for a payment is decoded to it. -/
lemma decodeSignature_encodePaymentPayload (h : Json.Readable v) :
    ∃ header, encodePaymentPayload v = some header ∧
      ∀ message, decodeSignature message (some header) = .payload v := by
  obtain ⟨header, hencode, hne, hdecode⟩ := decodeHeader_encodeHeader h
  refine ⟨header, hencode, fun message => ?_⟩
  rw [decodeSignature, Option.filter_some, if_pos (decide_eq_true hne)]
  simp only [hdecode]

/-- Whatever a fetch pays for, the server gets the payment as it has been signed, if the
requirements in the headers of the 402 answers can be written themselves. -/
theorem payment_reads_back {c : ClientCrypto} {ccfg : ClientConfig} {endpoint : String}
    {options : FetchOptions} {xs : List Exchange} {result : Except Error Fetched}
    (hrun : Program.Runs exchanged [] ((payAndFetchViaX402 c ccfg endpoint options).toProgram ()) xs
      (result, ()))
    (hheader : ∀ x ∈ xs, ∀ resp, x.2 = .ok resp → resp.status = 402 → ∀ required,
      resp.paymentRequired = some required → Json.Readable required)
    {x : Exchange} (hx : x ∈ xs) {payment : Value}
    (hpayment : x.1.paymentSignature = some payment) :
    ∃ header, encodePaymentPayload payment = some header ∧
      ∀ message, decodeSignature message (some header) = .payload payment := by
  obtain ⟨required, ⟨y, hy, resp, hresp, hstatus, hrequired⟩, hsigned⟩ :=
    (spent_of_runs hrun).signed hx hpayment
  have hreadable := hheader y hy resp hresp hstatus required hrequired
  exact decodeSignature_encodePaymentPayload (hsigned.readable (readable_offer hreadable))

lemma parsePaymentRequiredHeader_requirementsOf (cfg : ServerConfig) (info : AssetMeta) :
    ∃ header, paymentRequiredHeader (requirementsOf cfg info) = some header ∧
      parsePaymentRequiredHeader header = some (requirementsOf cfg info).toJson := by
  obtain ⟨header, hencode, -, hdecode⟩ :=
    decodeHeader_encodeHeader (readable_requirementsOf cfg info)
  exact ⟨header, hencode, hdecode⟩

/-- The first payment of the key 1, for requirements that were in a header. -/
theorem payment_reads_back_point : ∃ required header,
    (paymentRequiredHeader (requirementsOf bareEnv.config wcspr)).bind parsePaymentRequiredHeader =
      some required ∧ encodePaymentPayload pointPayment = some header ∧
        ∀ message, decodeSignature message (some header) = .payload pointPayment := by
  obtain ⟨fetched, hclient⟩ := runs_pointPayment
  obtain ⟨xs, hrun, hsent, hanswers⟩ := runs_exchanged hclient
  obtain ⟨text, htext, hparse⟩ := parsePaymentRequiredHeader_requirementsOf bareEnv.config wcspr
  obtain ⟨x, hx, hpayment⟩ := List.mem_filterMap.1
    (hsent.symm ▸ List.mem_singleton_self pointPayment :
      pointPayment ∈ xs.filterMap (·.1.paymentSignature))
  have hheader : ∀ x ∈ xs, ∀ resp, x.2 = .ok resp → resp.status = 402 → ∀ required,
      resp.paymentRequired = some required → Json.Readable required := by
    intro x hx resp hresp hstatus required hrequired
    rw [hanswers x hx resp hresp hstatus] at hrequired
    cases hrequired
    exact readable_requirementsOf _ _
  obtain ⟨header, hencode, hdecode⟩ := payment_reads_back hrun hheader hx hpayment
  exact ⟨_, header, by rw [htext, Option.bind_some, hparse], hencode, hdecode⟩

end

end ArwaAgent.X402
