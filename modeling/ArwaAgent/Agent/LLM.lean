import ArwaAgent.Agent.Scenario
import ArwaAgent.Lib.Handler
import ArwaAgent.Js.Tree

/-!
# Asking the LLM

How the LLM is asked for a strategy and how its reply is read.  The request is one post to the
provider, which is the call here.  A reply delivers a value when its texts spell it in JSON, bare
or in a fence: which of these replies decide is proved here, and that the heuristic does in place of
the others.
-/

namespace ArwaAgent

open Js Js.Json Effects Effects.Code

/-- What the environment says about the LLM, beside its key. -/
structure LLMEnv where
  llmProvider : Option String
  llmModel : Option String

/-- `provider === 'openai'` -/
def LLMEnv.openai (env : LLMEnv) : Bool :=
  (env.llmProvider.getD "anthropic").toList.map Char.toLower = "openai".toList

/-- The calls of an analyst that asks the LLM itself. -/
inductive LLMOp
  | agent (op : Op)
  | post (url : String) (body : Value) (headers : List (String × String))

/-- What a call is answered with: a post may throw, or answer the body of the response. -/
@[reducible] def LLMAns : LLMOp → Type
  | .agent op => Ans op
  | .post _ _ _ => Except Error Value

/-- `SYSTEM_PROMPT` -/
def systemPrompt : String :=
  "\n".intercalate [
    "You are an autonomous DeFi strategist for the ARWA",
    "Agent on Casper. Given a revenue event, an x402-paid utilization signal, an",
    "on-chain DEX quote, and the current portfolio, output a single JSON",
    "strategy decision. Output ONLY valid JSON matching the schema below. No",
    "prose. Prefer add_liquidity when the signal is bullish AND price impact is",
    "under 1%. Prefer swap with 0.5% slippage otherwise. Use \"hold\" only if you",
    "lack confidence (< 50).",
    "",
    "Schema:",
    "\x7b",
    "  \"action\": \"swap\" | \"add_liquidity\" | \"remove_liquidity\" | \"compound\" | \"hold\",",
    "  \"pair\": \"CSPR/sCSPR\",",
    "  \"token_in\": \"CSPR\",",
    "  \"token_out\": \"sCSPR\",",
    "  \"amount_in\": \"<decimal motes>\",",
    "  \"min_amount_out\": \"<decimal motes>\",",
    "  \"rationale\": \"<= 280 chars\",",
    "  \"confidence\": <0-100>",
    "\x7d"]

/-! ### Reading a reply -/

/-- `v?.[0]` -/
def firstOf (v : Value) : Value :=
  match v with
  | .obj fields => (fields.lookup "0").getD .undefined
  | v => v.index? 0

/-- `data?.choices?.[0]?.message?.content` -/
def choiceText (data : Value) : Value :=
  ((firstOf (data.field? "choices")).field? "message").field? "content"

/-- The texts of the blocks of type `text`. -/
def textBlocks : List Value → Except Error (List Value)
  | [] => .ok []
  | b :: bs => do
    let type ← b.field "type"
    let texts ← textBlocks bs
    return if type.is "text" then b.ownField "text" :: texts else texts

/-- The text of a response of the Messages API: that of its blocks, put together. -/
def messageText (data : Value) : Except Error String :=
  match (data.field? "content").orElse (.arr []) with
  | .arr blocks => do return String.join (← Value.elemStrs (← textBlocks blocks))
  | _ => .error ⟨"filter is not a function"⟩

/-- `text.replace(/^```json\s*/i, '')` -/
def stripOpening (text : List Char) : List Char :=
  if (text.take 7).map Char.toLower = "```json".toList then (text.drop 7).dropWhile isSpace
  else text

/-- ``text.replace(/```$/, '')`` -/
def stripClosing (text : List Char) : List Char :=
  if "```".toList.isSuffixOf text then text.take (text.length - 3) else text

section

-- what `JSON.parse` throws is the engine's
variable (syntaxError : String → Error)

/-- `JSON.parse(text)` -/
def parseReply (text : String) : Except Error Value :=
  match parse text with
  | some v => .ok v
  | none => .error (syntaxError text)

/-- The reply of the Chat Completions API. -/
def readChoice (data : Value) : Except Error Value := do
  let text := choiceText data
  if !text.truthy then return .null
  parseReply syntaxError (← text.toStr)

/-- The reply of the Messages API. -/
def readMessage (data : Value) : Except Error Value := do
  let text ← messageText data
  if text = "" then return .null
  parseReply syntaxError
    (String.ofList (trim (stripClosing (stripOpening text.toList))))

/-! ### The request -/

variable (cfg : Config) (env : LLMEnv)

/-- `{ role, content }` -/
def promptMessage (role content : String) : Value :=
  .obj [("role", .str role), ("content", .str content)]

/-- Ask the configured provider; without a key there is no answer. -/
def callLLM (userPrompt : String) : Code LLMOp LLMAns Error Unit Value := do
  let apiKey := cfg.llmApiKey.getD ""
  if env.openai then
    if apiKey = "" then return .null
    let data ← ask (.post "https://api.openai.com/v1/chat/completions"
      (.obj [("model", .str (env.llmModel.getD "gpt-4o-mini")),
        ("response_format", .obj [("type", .str "json_object")]),
        ("messages", .arr [promptMessage "system" systemPrompt, promptMessage "user" userPrompt])])
      [("Authorization", "Bearer " ++ apiKey)]) id
    result (readChoice syntaxError data)
  else
    if apiKey = "" then return .null
    let data ← ask (.post "https://api.anthropic.com/v1/messages"
      (.obj [("model", .str (env.llmModel.getD "claude-haiku-4-5")),
        ("max_tokens", .num (.finite 1024)), ("system", .str systemPrompt),
        ("messages", .arr [promptMessage "user" userPrompt])])
      [("x-api-key", apiKey), ("anthropic-version", "2023-06-01")]) id
    result (readMessage syntaxError data)

variable (userPrompt : LLMContext → String)

/-- What implements a call of the analyst. -/
def asking : (op : Op) → Program LLMOp LLMAns (Ans op)
  | .callLLM ctx =>
    (callLLM syntaxError cfg env (userPrompt ctx)).toProgram () >>= fun r => .done r.1
  | op => .call (.agent op) .done

/-- The decision on a strategy, with the request to the LLM. -/
def decideByLLM (ctx : LLMContext) : Program LLMOp LLMAns (Except Error Decision × Unit) :=
  ((decideStrategyWithLLM ctx).toProgram ()).handle (asking syntaxError cfg env userPrompt)

end

/-! ### Replies -/

/-- The blocks hold the text, in those of type `text`. -/
inductive Says : List Value → List Char → Prop
  | nil : Says [] []
  | text {fields : List (String × Value)} {blocks : List Value} {s : String} {rest : List Char}
      (htype : fields.lookup "type" = some (.str "text"))
      (htext : fields.lookup "text" = some (.str s)) (hrest : Says blocks rest) :
      Says (.obj fields :: blocks) (s.toList ++ rest)
  | other {fields : List (String × Value)} {blocks : List Value} {rest : List Char}
      (htype : fields.lookup "type" ≠ some (.str "text")) (hrest : Says blocks rest) :
      Says (.obj fields :: blocks) rest

/-- The response of the provider has the text. -/
def Carries (env : LLMEnv) (data : Value) (text : List Char) : Prop :=
  if env.openai then choiceText data = .str (String.ofList text)
  else ∃ blocks, data.field? "content" = .arr blocks ∧ Says blocks text

/-- How a value stands in a reply: with nothing but white space around it, or in a fence. -/
inductive Form
  | bare
  | fenced (tail : List Char)

/-- The text spells the value, in a form; after its closing fence comes the tail. -/
def Delivers (v : Value) : Form → List Char → Prop
  | .bare, text => ∃ w t w', White w ∧ Spells v t ∧ White w' ∧ text = w ++ (t ++ w')
  | .fenced tail, text => ∃ opening w t w', opening.map Char.toLower = "```json".toList ∧
      Blank w ∧ Spells v t ∧ Blank w' ∧
      text = opening ++ (w ++ (t ++ (w' ++ ("```".toList ++ tail))))

/-- The forms that are read: fences are those of one provider only, and close the reply. -/
def LLMEnv.reads (env : LLMEnv) : Form → Prop
  | .bare => True
  | .fenced tail => env.openai = false ∧ tail = []

instance (env : LLMEnv) (form : Form) : Decidable (env.reads form) :=
  match form with
  | .bare => isTrue trivial
  | .fenced _ => inferInstanceAs (Decidable (_ ∧ _))

/-- The endpoint of the configured provider. -/
def LLMEnv.url (env : LLMEnv) : String :=
  if env.openai then "https://api.openai.com/v1/chat/completions"
  else "https://api.anthropic.com/v1/messages"

/-- How the key goes to the configured provider. -/
def LLMEnv.headers (env : LLMEnv) (apiKey : String) : List (String × String) :=
  if env.openai then [("Authorization", "Bearer " ++ apiKey)]
  else [("x-api-key", apiKey), ("anthropic-version", "2023-06-01")]

/-- The model that is asked. -/
def LLMEnv.model (env : LLMEnv) : String :=
  env.llmModel.getD (if env.openai then "gpt-4o-mini" else "claude-haiku-4-5")

/-- What the configured provider is asked. -/
def LLMEnv.body (env : LLMEnv) (prompt : String) : Value :=
  if env.openai then
    .obj [("model", .str env.model), ("response_format", .obj [("type", .str "json_object")]),
      ("messages", .arr [promptMessage "system" systemPrompt, promptMessage "user" prompt])]
  else
    .obj [("model", .str env.model), ("max_tokens", .num (.finite 1024)),
      ("system", .str systemPrompt), ("messages", .arr [promptMessage "user" prompt])]

/-- The request to the configured provider. -/
def LLMEnv.request (env : LLMEnv) (cfg : Config) (prompt : String) : LLMOp :=
  .post env.url (env.body prompt) (env.headers (cfg.llmApiKey.getD ""))

/-- The decision that an output of the LLM makes. -/
def swapHold (d : Decision) : Decision :=
  { d with action := if d.action.is "hold" then .str "swap" else d.action }

section

variable {v data : Value} {t w w' s r text tail opening : List Char} {blocks : List Value} {c : Char}
  {env : LLMEnv} {form : Form}

/-! ### The fences -/

lemma toLower_ne_fence (hc : c ≠ '`') : c.toLower ≠ '`' := by
  change dite (c.val ≥ 'A'.val ∧ c.val ≤ 'Z'.val) _ _ ≠ '`'
  split
  · next h =>
    intro heq
    have hval : (c.val + 32).toNat = 96 := congrArg (fun d : Char => d.val.toNat) heq
    have hle := UInt32.le_iff_toNat_le.1 h.1
    have hge := UInt32.le_iff_toNat_le.1 h.2
    rw [UInt32.toNat_add] at hval
    simp at hval hle hge
    omega
  · exact hc

lemma stripOpening_of_ne (hc : c ≠ '`') : stripOpening (c :: s) = c :: s := by
  rw [stripOpening, if_neg]
  intro h
  exact toLower_ne_fence hc (List.cons.inj h).1

lemma stripOpening_append (ho : opening.map Char.toLower = "```json".toList) :
    stripOpening (opening ++ s) = s.dropWhile isSpace := by
  have hlen : opening.length = 7 := by
    rw [← List.length_map Char.toLower, ho]
    rfl
  rw [stripOpening, ← hlen, List.take_left, List.drop_left, if_pos ho]

lemma stripClosing_of_ne (hc : c ≠ '`') : stripClosing (s ++ [c]) = s ++ [c] := by
  rw [stripClosing, if_neg]
  intro h
  obtain ⟨s', hs⟩ := List.isSuffixOf_iff_suffix.1 h
  have hfence : "```".toList = ['`', '`'] ++ ['`'] := rfl
  rw [hfence, ← List.append_assoc] at hs
  exact hc (List.singleton_inj.1 (List.append_inj' hs rfl).2).symm

lemma stripClosing_fence : stripClosing (s ++ "```".toList) = s := by
  rw [stripClosing, if_pos (List.isSuffixOf_iff_suffix.2 (List.suffix_append _ _)),
    List.length_append]
  exact List.take_left' rfl

lemma exists_stripClosing (hr : 3 ≤ r.length) :
    ∃ r', stripClosing (s ++ '`' :: r) = s ++ '`' :: r' := by
  rw [stripClosing]
  split
  · refine ⟨r.take (r.length - 3), ?_⟩
    have hlen : (s ++ '`' :: r).length - 3 = s.length + (r.length - 3 + 1) := by
      rw [List.length_append, List.length_cons]
      omega
    rw [hlen, List.take_length_add_append, List.take_succ_cons]
  · exact ⟨r, rfl⟩

/-- No JSON begins with a fence. -/
lemma parse_fence : parse (String.ofList ('`' :: s)) = none := by
  have hread : ∀ fuel, readValue (fuel + 1) ('`' :: s) =
      (readNumber ('`' :: s)).map fun r => (.num r.1, r.2) := fun _ => rfl
  have hnumber : readNumber ('`' :: s) = none := rfl
  rw [parse, String.toList_ofList, hread, hnumber]
  rfl

/-! ### What is read of a reply -/

lemma ne_fence_of_isSpace (hc : isSpace c = true) : c ≠ '`' := by
  rintro rfl
  exact absurd hc (by decide)

/-- A reply that is JSON is read whole. -/
lemma trim_bare (hw : White w) (ht : SolidEnds t) (hw' : White w') :
    trim (stripClosing (stripOpening (w ++ (t ++ w')))) = t := by
  obtain ⟨⟨c, tl, hfirst, hc⟩, tl', d, hlast, hd⟩ := ht
  have hopening : stripOpening (w ++ (t ++ w')) = w ++ (t ++ w') := by
    cases w with
    | nil =>
      rw [hfirst]
      exact stripOpening_of_ne hc.2
    | cons e w => exact stripOpening_of_ne (ne_fence_of_isSpace (hw.blank e List.mem_cons_self))
  have hclosing : stripClosing (w ++ (t ++ w')) = w ++ (t ++ w') := by
    rcases w'.eq_nil_or_concat' with rfl | ⟨w', e, rfl⟩
    · rw [hlast, List.append_nil, ← List.append_assoc]
      exact stripClosing_of_ne hd.2
    · rw [← List.append_assoc, ← List.append_assoc]
      exact stripClosing_of_ne (ne_fence_of_isSpace (hw'.blank e (by simp)))
  rw [hopening, hclosing,
    trim_append hw.blank ⟨⟨c, tl, hfirst, hc⟩, tl', d, hlast, hd⟩ hw'.blank]

/-- A fence is opened where the JSON begins. -/
lemma stripOpening_fenced (ho : opening.map Char.toLower = "```json".toList) (hw : Blank w)
    (ht : SolidEnds t) : stripOpening (opening ++ (w ++ (t ++ s))) = t ++ s := by
  obtain ⟨⟨c, tl, rfl, hc, -⟩, -⟩ := ht
  rw [stripOpening_append ho, List.dropWhile_append_of_pos hw, List.cons_append,
    List.dropWhile_cons_of_neg (by simp [hc])]

/-- What stands in a fence is read, if the fence ends the reply. -/
lemma trim_fenced (ho : opening.map Char.toLower = "```json".toList) (hw : Blank w)
    (ht : SolidEnds t) (hw' : Blank w') :
    trim (stripClosing (stripOpening (opening ++ (w ++ (t ++ (w' ++ "```".toList)))))) = t := by
  have hclosing : stripClosing (t ++ (w' ++ "```".toList)) = t ++ w' := by
    rw [← List.append_assoc]
    exact stripClosing_fence
  rw [stripOpening_fenced ho hw ht, hclosing]
  exact trim_append (w := []) nofun ht hw'

/-- With something after it, the closing fence stays in what is read. -/
lemma exists_trim_fenced (w' : List Char) (ho : opening.map Char.toLower = "```json".toList)
    (hw : Blank w) (ht : SolidEnds t) (htail : tail ≠ []) :
    ∃ r, trim (stripClosing (stripOpening
      (opening ++ (w ++ (t ++ (w' ++ ("```".toList ++ tail))))))) = t ++ (w' ++ '`' :: r) := by
  have hlen : 3 ≤ ('`' :: '`' :: tail).length := by
    have := List.length_pos_iff.2 htail
    rw [List.length_cons, List.length_cons]
    omega
  obtain ⟨r, hr⟩ := exists_stripClosing (s := t ++ w') hlen
  have hfence : t ++ (w' ++ ("```".toList ++ tail)) = t ++ w' ++ '`' :: '`' :: '`' :: tail := by
    rw [List.append_assoc]
    rfl
  obtain ⟨r', hr'⟩ := exists_trim_append (w := []) (s := w') (r := r) nofun ht
    (by decide : isSpace '`' = false)
  refine ⟨r', ?_⟩
  rw [stripOpening_fenced ho hw ht, hfence, hr, List.append_assoc]
  exact hr'

lemma parse_delivers (env : LLMEnv) (hspells : Delivers v form text) :
    text ≠ [] ∧ parse (String.ofList (if env.openai then text
      else trim (stripClosing (stripOpening text)))) = if env.reads form then some v else none := by
  cases form with
  | bare =>
    obtain ⟨w, t, w', hw, ht, hw', rfl⟩ := hspells
    have hends := ht.solidEnds
    refine ⟨?_, ?_⟩
    · obtain ⟨⟨c, s, rfl, -⟩, -⟩ := hends
      simp
    · rw [if_pos (show env.reads .bare from trivial), trim_bare hw hends hw']
      split
      · exact parse_spells ht hw hw'
      · have hread := parse_spells ht white_nil white_nil
        rwa [List.nil_append, List.append_nil] at hread
  | fenced tail =>
    obtain ⟨opening, w, t, w', ho, hw, ht, hw', rfl⟩ := hspells
    have hends := ht.solidEnds
    obtain ⟨c, o, rfl⟩ : ∃ c o, opening = c :: o := by
      cases opening with
      | nil => cases ho
      | cons c o => exact ⟨c, o, rfl⟩
    refine ⟨by simp, ?_⟩
    rcases ho' : env.openai with _ | _
    · simp only [LLMEnv.reads, ho', Bool.false_eq_true, if_false, true_and]
      split
      · next htail =>
        subst htail
        have hread := parse_spells ht white_nil white_nil
        rw [List.nil_append, List.append_nil] at hread
        rw [List.append_nil, trim_fenced ho hw hends hw', hread]
      · next htail =>
        obtain ⟨r, hr⟩ := exists_trim_fenced w' ho hw hends htail
        rw [hr]
        refine parse_append_of_not_white ht (hw'.stops (by decide)) fun hwhite => ?_
        exact absurd (hwhite '`' (by simp)) (by decide)
    · have hc : c = '`' := by
        by_contra hne
        exact toLower_ne_fence hne (List.cons.inj ho).1
      simp only [LLMEnv.reads, ho', Bool.true_eq_false, false_and, if_false, if_true]
      rw [hc]
      exact parse_fence

/-- The text blocks are read in their order, whatever stands between them. -/
lemma Says.read (h : Says blocks text) :
    ∃ texts strs, textBlocks blocks = .ok texts ∧ Value.elemStrs texts = .ok strs ∧
      String.join strs = String.ofList text := by
  induction h with
  | nil => exact ⟨[], [], rfl, rfl, rfl⟩
  | @text fields blocks s rest htype htext _ ih =>
    obtain ⟨texts, strs, hblocks, helems, hjoin⟩ := ih
    have hfield : (Value.obj fields).field "type" = .ok ((Value.obj fields).ownField "type") := rfl
    have htype' : (Value.obj fields).ownField "type" = .str "text" := by
      rw [Value.ownField, htype]
      rfl
    have htext' : (Value.obj fields).ownField "text" = .str s := by
      rw [Value.ownField, htext]
      rfl
    refine ⟨.str s :: texts, s :: strs, ?_, ?_, ?_⟩
    · rw [textBlocks, hfield, htype', hblocks]
      simp [Value.is, htext', pure, Except.pure]
    · rw [Value.elemStrs, helems]
      · rfl
      · exact nofun
      · exact nofun
    · rw [String.join_cons, hjoin, String.ofList_append, String.ofList_toList]
  | @other fields blocks rest htype _ ih =>
    obtain ⟨texts, strs, hblocks, helems, hjoin⟩ := ih
    refine ⟨texts, strs, ?_, helems, hjoin⟩
    have hother : ((Value.obj fields).ownField "type").is "text" = false := by
      cases hlookup : fields.lookup "type" with
      | none => simp [Value.ownField, hlookup, Value.is]
      | some u =>
        cases u with
        | str u =>
          have hu : u ≠ "text" := by
            rintro rfl
            exact htype hlookup
          simp [Value.ownField, hlookup, Value.is, hu]
        | _ => simp [Value.ownField, hlookup, Value.is]
    rw [textBlocks, hblocks]
    simp [Value.field, hother, pure, Except.pure]

/-! ### What is decided -/

/-- The reply of the configured provider. -/
def readReply (syntaxError : String → Error) (env : LLMEnv) (data : Value) : Except Error Value :=
  if env.openai then readChoice syntaxError data else readMessage syntaxError data

/-- The decision that an output of the LLM leads to. -/
def decidedBy (ctx : LLMContext) (out : Value) : Except Error Decision :=
  (if out.truthy then .ok (ofLLMOutput out) else heuristicDecision ctx).map swapHold

/-- The decision that an answer of the LLM leads to. -/
def decided (ctx : LLMContext) (r : Except Error Value) : Except Error Decision :=
  decidedBy ctx (r.toOption.getD .null)

variable (syntaxError : String → Error)

/-- A reply that delivers a value in a form that is read is read as the value, and no other form is
read as anything. -/
lemma readReply_delivers (hdata : Carries env data text) (htext : Delivers v form text) :
    ∃ e, readReply syntaxError env data = if env.reads form then .ok v else .error e := by
  obtain ⟨hne, hparse⟩ := parse_delivers env htext
  have hstr : String.ofList text ≠ "" := fun h => hne (by simpa using congrArg String.toList h)
  have hreply : readReply syntaxError env data = parseReply syntaxError (String.ofList
      (if env.openai then text else trim (stripClosing (stripOpening text)))) := by
    rw [Carries] at hdata
    rw [readReply]
    split at hdata
    · rw [readChoice, hdata]
      simp [Value.truthy, Value.toStr, *]
    · obtain ⟨blocks, hcontent, hsays⟩ := hdata
      obtain ⟨texts, strs, hblocks, helems, hjoin⟩ := hsays.read
      have hmessage : messageText data = .ok (String.ofList text) := by
        rw [messageText, hcontent]
        simp [Value.orElse, hblocks, helems, hjoin, pure, Except.pure]
      rw [readMessage, hmessage]
      simp [*]
  refine ⟨syntaxError (String.ofList
    (if env.openai then text else trim (stripClosing (stripOpening text)))), ?_⟩
  rw [hreply, parseReply, hparse]
  by_cases hreads : env.reads form
  · rw [if_pos hreads, if_pos hreads]
  · rw [if_neg hreads, if_neg hreads]

variable (cfg : Config) (env : LLMEnv) (userPrompt : LLMContext → String) (ctx : LLMContext)

lemma decideByLLM_eq : decideByLLM syntaxError cfg env userPrompt ctx =
    (callLLM syntaxError cfg env (userPrompt ctx)).toProgram () >>= fun r =>
      .done (decided ctx r.1, ()) := by
  -- the output, or `null` for an exception, goes on in one way
  have hgo : ∀ out : Value, Program.handle (asking syntaxError cfg env userPrompt)
      ((do
        let d ← result (if out.truthy then .ok (ofLLMOutput out) else heuristicDecision ctx)
        return swapHold d : Agent Unit Decision).toProgram ()) =
      .done (decidedBy ctx out, ()) := by
    intro out
    rw [toProgram_bind, toProgram_result, decidedBy]
    cases (if out.truthy then Except.ok (ofLLMOutput out) else heuristicDecision ctx) <;> rfl
  rw [decideByLLM, decideStrategyWithLLM, toProgram_bind, toProgram_tryCatch, toProgram_ask]
  simp only [Program.call_bind, Program.done_bind, Program.handle_call, asking, Program.bind_assoc]
  refine congrArg _ (funext fun r => ?_)
  obtain ⟨r, -⟩ := r
  cases r with
  | ok out => exact hgo out
  | error e => exact hgo .null

lemma callLLM_of_no_key {prompt : String} (hkey : cfg.llmApiKey.getD "" = "") :
    (callLLM syntaxError cfg env prompt).toProgram () = .done (.ok .null, ()) := by
  rw [callLLM]
  split <;> rfl

/-- With a key, the provider is asked once. -/
lemma callLLM_of_key (prompt : String) (hkey : cfg.llmApiKey.getD "" ≠ "") :
    (callLLM syntaxError cfg env prompt).toProgram () =
      .call (env.request cfg prompt) fun r => .done (r >>= readReply syntaxError env, ()) := by
  have hreply : ∀ data, readReply syntaxError env data =
      if env.openai then readChoice syntaxError data else readMessage syntaxError data :=
    fun _ => rfl
  have hasked : ∀ url body headers, env.url = url → env.body prompt = body →
      env.headers (cfg.llmApiKey.getD "") = headers → ∀ read : Value → Except Error Value,
      readReply syntaxError env = read →
      (Code.toProgram (ask (.post url body headers) id >>= fun data => result (read data)) () :
        Program LLMOp LLMAns _) =
      .call (env.request cfg prompt) fun r => .done (r >>= readReply syntaxError env, ()) := by
    rintro _ _ _ rfl rfl rfl _ rfl
    rw [toProgram_bind, toProgram_ask, Program.call_bind]
    refine congrArg (Program.call _) (funext fun r => ?_)
    cases r with
    | error e => rfl
    | ok data => rfl
  rw [callLLM]
  split
  next ho =>
    refine hasked _ _ _ ?_ ?_ ?_ _ ?_
    · rw [LLMEnv.url, if_pos ho]
    · rw [LLMEnv.body, if_pos ho, LLMEnv.model, if_pos ho]
    · rw [LLMEnv.headers, if_pos ho]
    · funext data
      rw [hreply, if_pos ho]
  next ho =>
    refine hasked _ _ _ ?_ ?_ ?_ _ ?_
    · rw [LLMEnv.url, if_neg ho]
    · rw [LLMEnv.body, if_neg ho, LLMEnv.model, if_neg ho]
    · rw [LLMEnv.headers, if_neg ho]
    · funext data
      rw [hreply, if_neg ho]

/-- A reply decides if it delivers a value in a form that is read; otherwise the heuristic does. -/
lemma decided_delivers (hdata : Carries env data text) (htext : Delivers v form text)
    (hv : v.truthy = true) : decided ctx (readReply syntaxError env data) =
      if env.reads form then .ok (swapHold (ofLLMOutput v)) else decidedBy ctx .null := by
  obtain ⟨e, he⟩ := readReply_delivers syntaxError hdata htext
  rw [he]
  by_cases hreads : env.reads form
  · rw [if_pos hreads, if_pos hreads]
    show Except.map swapHold (if v.truthy then .ok (ofLLMOutput v) else heuristicDecision ctx) = _
    rw [if_pos hv]
    rfl
  · rw [if_neg hreads, if_neg hreads]
    rfl

end

/-! ### Two replies -/

/-- An answer in a fence, in two blocks after one of another type. -/
def fencedReply (tail : String) : Value :=
  .obj [("content", .arr [.obj [("type", .str "thinking")],
    .obj [("type", .str "text"), ("text", .str "```JSON\n[")],
    .obj [("type", .str "text"), ("text", .str ("]\n```" ++ tail))]])]

/-- The provider answers the data. -/
def replying (data : Value) (x : Unit) : (op : LLMOp) → LLMAns op × Unit
  | .agent op => (openMarket op, x)
  | .post _ _ _ => (.ok data, x)

/-- A market in which nothing is known. -/
def quietContext : LLMContext :=
  ⟨.null, ⟨.str "0", .str "0%", "CSPR/sCSPR", 0⟩, .obj [], .null,
    ⟨.finite 0, "1000000000", "0", "parking-lot-demo", "0", "demo-ref-001"⟩⟩

/-- The decision on a reply. -/
def decideOn (data : Value) : Except Error Decision :=
  ((decideByLLM (fun text => ⟨text⟩) { plainConfig with llmApiKey := some "key" } ⟨none, none⟩
    (fun _ => "") quietContext).play (replying data) ()).2.2.1

end ArwaAgent
