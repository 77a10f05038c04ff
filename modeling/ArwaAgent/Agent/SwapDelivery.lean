import ArwaAgent.Agent.CycleSpending
import ArwaAgent.Agent.Offer
import ArwaAgent.Agent.PositionRecord
import ArwaAgent.Agent.Submission

/-!
# From the tool of the exchange to the node

An executor with both of its clients: it has a transaction built by a tool of the exchange, has the
SDK sign it, and posts it to a node.  Whatever it is answered, what it posts is the transaction that
the exchange has offered, with one approval, which is a signature of that transaction; or a
delegation, as the SDK has signed it.  It posts this at most once.

The transactions that record the strategy, `record_strategy_execution` and `emit_revenue`, are
posted besides; they stay calls of the agent here, and are not counted.
-/

namespace ArwaAgent

open Js Effects Effects.Code

/-- The calls of an executor with both of its clients: the tools of the exchange, and the signing
functions and the node. -/
inductive SwapOp
  | tool (op : ToolOp)
  | chain (op : ChainOp)

/-- What a call is answered with. -/
@[reducible] def SwapAns : SwapOp → Type
  | .tool op => ToolAns op
  | .chain op => ChainAns op

/-- A call of the submission, among the others. -/
def chainCall (op : ChainOp) : Program SwapOp SwapAns (ChainAns op) :=
  .call (.chain op) .done

/-- What implements a call of the client of the exchange. -/
def swapCall (cfg : Config) : (op : ToolOp) → Program SwapOp SwapAns (ToolAns op)
  | .agent op => (submission cfg op).handle chainCall
  | op => .call (.tool op) .done

/-- The executor, with its client of the exchange and the submission of its transactions. -/
def executeSwap (cfg : Config) (p : StrategyProposal) :
    Program SwapOp SwapAns (Except Error ExecutorResult × Unit) :=
  ((runExecutor cfg p).toProgram ()).handle fun op => (exchange op).handle (swapCall cfg)

/-- A call with its answer. -/
abbrev SwapReply : Type := Reply SwapOp SwapAns

/-! ### What is handed on -/

/-- The calls that hand a transaction on. -/
def SwapOp.delivers : SwapOp → Bool
  | .tool (.callTool _ _) | .chain (.signDelegate _ _) | .chain (.signTransactionV1 _ _)
  | .chain (.accountPutTransaction _) => true
  | _ => false

/-- A transaction with one approval. -/
def approved (tx : Value) (approval : Approval) : Value :=
  withApprovals tx (.arr [.obj
    [("signer", .str approval.signer), ("signature", .str approval.signature)]])

/-- A transaction that can be signed has been read from an answer. -/
structure Signable (res tx hash payload : Value) : Prop where
  read : parseResult res = .ok tx
  error : (tx.field? "error").truthy = false
  hash : tx.field "hash" = .ok hash
  payload : tx.field "payload" = .ok payload

/-- What the tool has been asked for a proposal, with its answer. -/
inductive Asked (p : StrategyProposal) : Except Error Value → SwapReply → Prop
  | mk {keys : AgentKeys} {amount : ℤ} {name : String} (hhold : p.isHold = false)
      (haction : p.action.is "stake" = false)
      (hamount : Value.bigIntOfString p.amountIn = .ok amount)
      (hname : buildTool (buildParams p keys amount).action = .ok name) (r : Except Error Value) :
      Asked p r ⟨.tool (.callTool name (buildArguments (buildParams p keys amount))), r⟩

/-- What an executor has handed on for a proposal. -/
inductive HandsOn (p : StrategyProposal) : List SwapReply → Prop
  | nothing : HandsOn p []
  | delegating (haction : p.action.is "stake" = true) (r : Except Error Value) :
      HandsOn p [⟨.chain (.signDelegate p.amountIn (stakeValidator p)), r⟩]
  /-- a delegation, as it has been signed -/
  | delegated (haction : p.action.is "stake" = true) (json : Value) (r : Except Error Value) :
      HandsOn p [⟨.chain (.signDelegate p.amountIn (stakeValidator p)), .ok json⟩,
        ⟨.chain (.accountPutTransaction json), r⟩]
  | building {r : Except Error Value} {x : SwapReply} (hx : Asked p r x) : HandsOn p [x]
  | signing {res tx hash payload : Value} {x : SwapReply} (hx : Asked p (.ok res) x)
      (hbuilt : Signable res tx hash payload) (r : Except Error Approval) :
      HandsOn p [x, ⟨.chain (.signTransactionV1 hash payload), r⟩]
  /-- a swap, as it has been built, with the signature of what has been built -/
  | swapped {res tx hash payload : Value} {x : SwapReply} (hx : Asked p (.ok res) x)
      (hbuilt : Signable res tx hash payload) (approval : Approval) (r : Except Error Value) :
      HandsOn p [x, ⟨.chain (.signTransactionV1 hash payload), .ok approval⟩,
        ⟨.chain (.accountPutTransaction (approved tx approval)), r⟩]

/-- An executor makes only those calls that may be handed on. -/
abbrev delivering (p : StrategyProposal) : Monitor SwapOp SwapAns (List SwapReply) :=
  keeper SwapOp.delivers (HandsOn p)

/-! ### The two clients -/

section

variable {cfg : Config} {p : StrategyProposal} {α S : Type} {M : Monitor SwapOp SwapAns S} {s : S}

/-- A monitor on the calls of the submission. -/
def chainMonitor (M : Monitor SwapOp SwapAns S) : Monitor ChainOp ChainAns S where
  allows := fun s op => M.allows s (.chain op)
  expects := fun s op r => M.expects s (.chain op) r
  next := fun s op r => M.next s (.chain op) r

/-- A monitor on the calls of the client of the exchange, which makes no others. -/
def toolMonitor (M : Monitor SwapOp SwapAns S) : Monitor ToolOp ToolAns S where
  allows := fun s op => match op with
    | .agent _ => False
    | op => M.allows s (.tool op)
  expects := fun s op r => M.expects s (.tool op) r
  next := fun s op r => M.next s (.tool op) r

lemma meets_chainCall {q : Program ChainOp ChainAns α} {Q : S → α → Prop}
    (h : Program.Meets (chainMonitor M) s q Q) : Program.Meets M s (q.handle chainCall) Q := by
  induction q generalizing s with
  | done a => exact h
  | call op next ih => exact ⟨h.1, fun r hr => ih r (h.2 r hr)⟩

lemma meets_swapCall {q : Program ToolOp ToolAns α} {Q : S → α → Prop}
    (h : Program.Meets (toolMonitor M) s q Q) : Program.Meets M s (q.handle (swapCall cfg)) Q := by
  induction q generalizing s with
  | done a => exact h
  | call op next ih =>
    cases op with
    | agent op => exact h.1.elim
    | getCsprTradeMcp => exact ⟨h.1, fun r hr => ih r (h.2 r hr)⟩
    | callTool name arguments => exact ⟨h.1, fun r hr => ih r (h.2 r hr)⟩

/-- A delegation is posted as it has been signed. -/
lemma delegateToValidator_delivers (haction : p.action.is "stake" = true) :
    Meets (chainMonitor (delivering p)) [] ()
      (delegateToValidator cfg p.amountIn (some (stakeValidator p))) fun replies _ _ =>
        HandsOn p replies := by
  refine meets_ask_bind.2 ⟨fun r => .delegating haction r, fun r _ => ?_⟩
  cases r with
  | error e => exact HandsOn.delegating haction _
  | ok json =>
    refine meets_ask_bind.2 ⟨fun r => .delegated haction json r, fun r _ => ?_⟩
    cases r with
    | error e => exact HandsOn.delegated haction json _
    | ok data =>
      have hdone : HandsOn p _ := HandsOn.delegated haction json (.ok data)
      refine Meets.result_bind (fun _ _ => ?_) fun e => hdone
      exact Meets.result_bind (fun _ _ => hdone) fun e => hdone

/-- A swap is signed as it has been built, and posted with the signature. -/
lemma signAndSubmitSwap_delivers {res tx : Value} {x : SwapReply} (hx : Asked p (.ok res) x)
    (hread : parseResult res = .ok tx) (herror : (tx.field? "error").truthy = false) :
    Meets (chainMonitor (delivering p)) [x] () (signAndSubmitSwap tx) fun replies _ _ =>
      HandsOn p replies := by
  refine meets_ask_bind.2 ⟨fun r => .building hx, fun r _ => ?_⟩
  cases r with
  | error e => exact HandsOn.building hx
  | ok keys =>
    refine Meets.result_bind (fun hash hhash => ?_) fun e => HandsOn.building hx
    refine Meets.result_bind (fun payload hpayload => ?_) fun e => HandsOn.building hx
    have hbuilt : Signable res tx hash payload := ⟨hread, herror, hhash, hpayload⟩
    refine meets_ask_bind.2 ⟨fun r => .signing hx hbuilt r, fun r _ => ?_⟩
    cases r with
    | error e => exact HandsOn.signing hx hbuilt _
    | ok approval =>
      refine meets_ask_bind.2 ⟨fun r => .swapped hx hbuilt approval r, fun r _ => ?_⟩
      have hdone : HandsOn p _ := HandsOn.swapped hx hbuilt approval r
      cases r with
      | error e => exact hdone
      | ok data =>
        refine Meets.result_bind (fun _ _ => ?_) fun e => hdone
        refine Meets.result_bind (fun _ _ => ?_) fun e => hdone
        refine meets_tryCatch.2 (meets_ask_bind.2 ⟨fun _ => hdone, fun r _ => ?_⟩)
        cases r with
        | error e => exact hdone
        | ok r => exact hdone

/-- What has been built, if anything, has been read from the one answer of the tool. -/
def BuiltFrom (p : StrategyProposal) (replies : List SwapReply) (r : Except Error Value) : Prop :=
  ∀ tx, r = .ok tx → ∃ x res, replies = [x] ∧ Asked p (.ok res) x ∧ parseResult res = .ok tx ∧
    (tx.field? "error").truthy = false

lemma builtFrom_error {replies : List SwapReply} {e : Error} : BuiltFrom p replies (.error e) := by
  intro tx h
  cases h

/-- What is built is read from the answer of the tool that has been asked. -/
lemma buildUnsignedDeploy_delivers {keys : AgentKeys} {amount : ℤ} (hhold : p.isHold = false)
    (haction : p.action.is "stake" = false)
    (hamount : Value.bigIntOfString p.amountIn = .ok amount) :
    Meets (toolMonitor (delivering p)) [] () (buildUnsignedDeploy (buildParams p keys amount))
      fun replies _ r => HandsOn p replies ∧ BuiltFrom p replies r := by
  refine meets_ask_bind.2 ⟨fun r => .nothing, fun r _ => ?_⟩
  cases r with
  | error e => exact ⟨.nothing, builtFrom_error⟩
  | ok _ =>
    refine Meets.result_bind (fun name hname => ?_) fun e => ⟨.nothing, builtFrom_error⟩
    have hasked := Asked.mk hhold haction hamount hname
    refine meets_ask_bind.2 ⟨fun r => .building (hasked r), fun r _ => ?_⟩
    have hbuilding : HandsOn p _ := .building (hasked r)
    cases r with
    | error e => exact ⟨hbuilding, builtFrom_error⟩
    | ok res =>
      refine Meets.result_bind (fun parsed hread => ?_) fun e => ⟨hbuilding, builtFrom_error⟩
      split
      · exact ⟨hbuilding, builtFrom_error⟩
      · show Meets (toolMonitor (delivering p)) _ ()
          (if (parsed.field? "error").truthy then _ else _) _
        split
        · exact Meets.result_bind (fun _ _ => ⟨hbuilding, builtFrom_error⟩)
            fun e => ⟨hbuilding, builtFrom_error⟩
        next herror =>
          refine ⟨hbuilding, fun tx htx => ?_⟩
          obtain rfl := Except.ok.inj htx
          exact ⟨_, res, rfl, hasked (.ok res), hread, by simpa using herror⟩

/-! ### The executor -/

/-- What an executor has submitted, and what its clients have handed on for it. -/
structure HandsOnFor (p : StrategyProposal) (spent : List AgentReply) (replies : List SwapReply) :
    Prop where
  delivers : HandsOn p replies
  nothing : spent = [] → replies = []
  built : ∀ params r, spent = [⟨.buildUnsignedDeploy params, r⟩] → BuiltFrom p replies r

variable {spent : List AgentReply} {replies : List SwapReply} {op : Op} {r : Ans op}

lemma Submits.last (h : Submits cfg p (spent ++ [⟨op, r⟩])) :
    (spent = [] ∧ p.action.is "stake" = true ∧
        op = .delegateToValidator p.amountIn (stakeValidator p)) ∨
      (spent = [] ∧ p.isHold = false ∧ p.action.is "stake" = false ∧ ∃ keys amount,
        Value.bigIntOfString p.amountIn = .ok amount ∧
          op = .buildUnsignedDeploy (buildParams p keys amount)) ∨
      ∃ params tx, spent = [⟨.buildUnsignedDeploy params, .ok tx⟩] ∧
        op = .signAndSubmitSwap tx := by
  generalize hall : spent ++ [⟨op, r⟩] = all at h
  have hsnoc : ∀ {init : List AgentReply} {x : AgentReply}, spent ++ [⟨op, r⟩] = init ++ [x] →
      spent = init ∧ op = x.op := by
    intro init x heq
    obtain ⟨hinit, hlast⟩ := List.append_inj' heq rfl
    obtain rfl := List.singleton_inj.1 hlast
    exact ⟨hinit, rfl⟩
  cases h with
  | nothing => simp at hall
  | staked hhold haction hamount hmin r' =>
    obtain ⟨hinit, hop⟩ := @hsnoc [] _ hall
    exact Or.inl ⟨hinit, haction, hop⟩
  | building hhold haction hamount r' =>
    obtain ⟨hinit, hop⟩ := @hsnoc [] _ hall
    exact Or.inr (Or.inl ⟨hinit, hhold, haction, _, _, hamount, hop⟩)
  | swapped hhold haction hamount unsigned r' =>
    obtain ⟨hinit, hop⟩ := @hsnoc [_] _ hall
    exact Or.inr (Or.inr ⟨_, unsigned, hinit, hop⟩)

lemma handsOnFor_of_handsOn (h : HandsOn p replies) (hne : spent ≠ [])
    (hbuild : ∀ params r, spent ≠ [⟨.buildUnsignedDeploy params, r⟩]) :
    HandsOnFor p spent replies :=
  ⟨h, fun hnil => absurd hnil hne, fun params r heq => absurd heq (hbuild params r)⟩

lemma handle_free (hop : op.free = true) :
    (exchange op).handle (swapCall cfg) = .call (.chain (.agent op)) .done := by
  cases op <;> first | rfl | cases hop

lemma nonempty_ans (hop : op.free = false) : Nonempty (Ans op) := by
  cases op with
  | runExecutor p' => exact ⟨()⟩
  | payAndFetchViaX402 endpoint amount => exact ⟨.error ⟨""⟩⟩
  | delegateToValidator amount validator => exact ⟨.error ⟨""⟩⟩
  | buildUnsignedDeploy params => exact ⟨.error ⟨""⟩⟩
  | signAndSubmitSwap txJson => exact ⟨.error ⟨""⟩⟩
  | _ => cases hop

lemma delegation_handsOn (haction : p.action.is "stake" = true) :
    Program.Meets (delivering p) []
      ((exchange (.delegateToValidator p.amountIn (stakeValidator p))).handle (swapCall cfg))
      fun replies' r => HandsOnFor p
        [⟨.delegateToValidator p.amountIn (stakeValidator p), r⟩] replies' := by
  have hchain : Program.Meets (chainMonitor (delivering p)) []
      (submission cfg (.delegateToValidator p.amountIn (stakeValidator p)))
      fun replies' _ => HandsOn p replies' :=
    Program.meets_bind.2 (delegateToValidator_delivers haction)
  refine Program.meets_bind.2 ((meets_chainCall hchain).mono fun replies' r hr => ?_)
  exact handsOnFor_of_handsOn hr (by simp) fun _ _ h => by cases h

lemma building_handsOn {keys : AgentKeys} {amount : ℤ} (hhold : p.isHold = false)
    (haction : p.action.is "stake" = false)
    (hamount : Value.bigIntOfString p.amountIn = .ok amount) :
    Program.Meets (delivering p) []
      ((exchange (.buildUnsignedDeploy (buildParams p keys amount))).handle (swapCall cfg))
      fun replies' r => HandsOnFor p
        [⟨.buildUnsignedDeploy (buildParams p keys amount), r⟩] replies' := by
  have htool : Program.Meets (toolMonitor (delivering p)) []
      (exchange (.buildUnsignedDeploy (buildParams p keys amount)))
      fun replies' r => HandsOn p replies' ∧ BuiltFrom p replies' r :=
    Program.meets_bind.2 (buildUnsignedDeploy_delivers hhold haction hamount)
  refine (meets_swapCall htool).mono fun replies' r hr => ⟨hr.1, ?_, ?_⟩
  · intro h
    cases h
  · intro _ _ h
    cases h
    exact hr.2

lemma submission_handsOn {params : BuildParams} {tx : Value}
    (hbuilt : BuiltFrom p replies (.ok tx)) :
    Program.Meets (delivering p) replies
      ((exchange (.signAndSubmitSwap tx)).handle (swapCall cfg)) fun replies' r => HandsOnFor p
        [⟨.buildUnsignedDeploy params, .ok tx⟩, ⟨.signAndSubmitSwap tx, r⟩] replies' := by
  obtain ⟨x, res, rfl, hx, hread, herror⟩ := hbuilt _ rfl
  have hchain : Program.Meets (chainMonitor (delivering p)) [x]
      (submission cfg (.signAndSubmitSwap tx)) fun replies' _ => HandsOn p replies' :=
    Program.meets_bind.2 (signAndSubmitSwap_delivers hx hread herror)
  refine Program.meets_bind.2 ((meets_chainCall hchain).mono fun replies' r hr => ?_)
  exact handsOnFor_of_handsOn hr (by simp) fun _ _ h => by cases h

/-- What implements a call of the executor hands on what follows from it. -/
lemma exchange_delivers (hfollows : HandsOnFor p spent replies)
    (hallows : (submitting cfg p).allows spent op) :
    Program.Meets (delivering p) replies ((exchange op).handle (swapCall cfg)) fun replies' r =>
      HandsOnFor p (keep (fun op => !op.free) spent op r) replies' := by
  cases hfree : op.free with
  | true =>
    have hkeep : ∀ r : Ans op, keep (fun op => !op.free) spent op r = spent :=
      fun r => keep_of_not_kept (by rw [hfree]; rfl) r
    rw [handle_free hfree]
    refine ⟨fun r => hfollows.delivers, fun r _ => ?_⟩
    show HandsOnFor p (keep (fun op => !op.free) spent op r) replies
    rw [hkeep]
    exact hfollows
  | false =>
    have hkeep : ∀ r : Ans op, keep (fun op => !op.free) spent op r = spent ++ [⟨op, r⟩] :=
      fun r => keep_of_kept (by rw [hfree]; rfl) r
    obtain ⟨r₀⟩ := nonempty_ans hfree
    have hsubmits : Submits cfg p (spent ++ [⟨op, r₀⟩]) := hkeep r₀ ▸ hallows r₀
    simp only [hkeep]
    rcases hsubmits.last with ⟨rfl, haction, rfl⟩ | ⟨rfl, hhold, haction, keys, n, hamount, rfl⟩ |
      ⟨params, tx, rfl, rfl⟩
    · obtain rfl := hfollows.nothing rfl
      exact delegation_handsOn haction
    · obtain rfl := hfollows.nothing rfl
      exact building_handsOn hhold haction hamount
    · exact submission_handsOn (hfollows.built _ _ rfl)

/-- Whatever an executor is answered, it hands on one transaction at most, as it has been built or
signed for its proposal. -/
lemma executeSwap_delivers (cfg : Config) (p : StrategyProposal) :
    Program.Meets (delivering p) [] (executeSwap cfg p) fun replies _ => HandsOn p replies := by
  have hnothing : HandsOnFor p [] [] := ⟨.nothing, fun _ => rfl, fun _ _ h => by cases h⟩
  refine (Program.meets_handle ?_ (runExecutor_submits cfg p ()) hnothing).mono ?_
  · intro spent replies op hfollows hallows
    exact (exchange_delivers hfollows hallows).mono fun _ _ h => ⟨trivial, h⟩
  · rintro replies result ⟨spent, hfollows, -⟩
    exact hfollows.delivers

/-! ### What is posted -/

lemma lookup_filter_of_ne {fields : List (String × Value)} {removed name : String}
    (h : name ≠ removed) : (fields.filter (·.1 ≠ removed)).lookup name = fields.lookup name := by
  induction fields with
  | nil => rfl
  | cons f fields ih =>
    by_cases hf : f.1 = removed
    · have hname : (name == f.1) = false := beq_false_of_ne (hf ▸ h)
      rw [List.filter_cons_of_neg (by simpa using hf), ih, List.lookup_cons, hname]
    · rw [List.filter_cons_of_pos (by simpa using hf), List.lookup_cons, List.lookup_cons, ih]

lemma ownField_approved {fields : List (String × Value)} {approval : Approval} {name : String}
    (h : name ≠ "approvals") :
    (approved (.obj fields) approval).ownField name = (Value.obj fields).ownField name := by
  have hname : (name == "approvals") = false := beq_false_of_ne h
  simp only [approved, withApprovals, Value.ownField, List.lookup_cons, hname,
    lookup_filter_of_ne h]

/-- A posted transaction is the one that has been offered, with one approval. -/
lemma HandsOn.approved_of_offers {name : String} {arguments res tx t : Value}
    {r : Except Error Value} (h : HandsOn p replies)
    (hcall : (⟨.tool (.callTool name arguments), .ok res⟩ : SwapReply) ∈ replies)
    (htx : Offers tx res)
    (hput : (⟨.chain (.accountPutTransaction t), r⟩ : SwapReply) ∈ replies) :
    ∃ approval, t = approved tx approval ∧
      (⟨.chain (.signTransactionV1 (tx.ownField "hash") (tx.ownField "payload")),
        .ok approval⟩ : SwapReply) ∈ replies := by
  cases h with
  | nothing => simp at hcall
  | delegating haction r' => simp at hput
  | delegated haction json r' => simp at hcall
  | building hx =>
    cases hx
    simp at hput
  | signing hx hbuilt r' =>
    cases hx
    simp at hput
  | swapped hx hbuilt approval r' =>
    cases hx
    rcases List.mem_cons.1 hcall with hcall | hcall
    · cases hcall
      obtain rfl := Except.ok.inj (htx.read.symm.trans hbuilt.read)
      obtain rfl := Value.field_eq_ok hbuilt.hash
      obtain rfl := Value.field_eq_ok hbuilt.payload
      refine ⟨approval, ?_, by simp⟩
      rcases List.mem_cons.1 hput with hput | hput
      · cases hput
      rcases List.mem_cons.1 hput with hput | hput
      · cases hput
      cases List.mem_singleton.1 hput
      rfl
    · simp at hcall

/-- An exchange that puts a heading before the transaction, an SDK that signs it and a node that
accepts it. -/
def swapAnswers : (op : SwapOp) → SwapAns op
  | .tool (.agent op) => openMarket op
  | .tool .getCsprTradeMcp => .ok ()
  | .tool (.callTool _ _) => .ok headedAnswer
  | .chain (.agent op) => openMarket op
  | .chain (.signDelegate _ _) => .ok .null
  | .chain (.signTransactionV1 _ _) => .ok ⟨"02ab", "02cd"⟩
  | .chain (.accountPutTransaction _) => .ok (.obj [("result", .obj [])])
  | .chain (.waitForTransaction _) => .ok .null

/-- The executor on a swap of 2 CSPR. -/
def headedSwap : List SwapReply :=
  (transcript swapAnswers [] (executeSwap plainConfig (csprSwap "2000000000"))).1

/-- A call of a tool. -/
def SwapOp.tools : SwapOp → Bool
  | .tool (.callTool _ _) => true
  | _ => false

/-- A transaction is posted. -/
def SwapOp.posts : SwapOp → Bool
  | .chain (.accountPutTransaction _) => true
  | _ => false

lemma exists_callTool_headedSwap : ∃ (name : String) (arguments : Value),
    (⟨.tool (.callTool name arguments), .ok headedAnswer⟩ : SwapReply) ∈ headedSwap := by
  have hany : headedSwap.any (fun x => x.op.tools) = true := by decide +kernel
  obtain ⟨⟨op, r⟩, hmem, hop⟩ := List.any_eq_true.1 hany
  have hans := ans_of_mem_transcript (f := swapAnswers) (by simp) _ hmem
  cases op with
  | tool op =>
    cases op with
    | callTool name arguments =>
      obtain rfl : r = .ok headedAnswer := hans
      exact ⟨name, arguments, hmem⟩
    | _ => cases hop
  | chain op => cases hop

lemma exists_posted_headedSwap : ∃ (t : Value) (r : Except Error Value),
    (⟨.chain (.accountPutTransaction t), r⟩ : SwapReply) ∈ headedSwap := by
  have hany : headedSwap.any (fun x => x.op.posts) = true := by decide +kernel
  obtain ⟨⟨op, r⟩, hmem, hop⟩ := List.any_eq_true.1 hany
  cases op with
  | tool op => cases hop
  | chain op =>
    cases op with
    | accountPutTransaction t => exact ⟨t, r, hmem⟩
    | _ => cases hop

end

end ArwaAgent
