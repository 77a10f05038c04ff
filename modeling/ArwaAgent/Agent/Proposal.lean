import ArwaAgent.Agent.Cycle
import ArwaAgent.Lib.Calls
import ArwaAgent.Lib.Returns

/-!
# What a proposal is made of

Of all that the analyst is told, five things go into its proposal: the state of the
breaker, the token it asked a quote for, the quote, the paid signal and the answer of the
LLM.  `Proposes` says how: a proposal is that of a cycle which the breaker holds, or a
decision of the heuristic, of the LLM or of the fallback of the LLM, after the forced
action.  Every proposal that the analyst returns, whatever it has been told, is one of
these.
-/

namespace ArwaAgent

open Js Effects Effects.Code

/-- The proposal that a call hands to the executor. -/
def Op.executes? : Op → Option StrategyProposal
  | .runExecutor p => some p
  | _ => none

/-- What the analyst has been told so far. -/
structure Seen where
  breaker : Option CircuitBreakerState
  quotedToken : Value
  quote : Option Quote
  paid : Option X402Response
  answer : Option (Except Error Value)

namespace Seen

/-- Nothing has been said. -/
def nothing : Seen := ⟨none, .undefined, none, none, none⟩

/-- One more answer. -/
def next (s : Seen) : (op : Op) → Ans op → Seen
  | .checkCircuitBreaker, cb => { s with breaker := some cb }
  | .getQuote _ tokenOut _, r => { s with quotedToken := tokenOut, quote := r.toOption }
  | .payAndFetchViaX402 _ _, r => { s with paid := r.toOption }
  | .callLLM _, r => { s with answer := some r }
  | _, _ => s

/-- What the calls of a run have said. -/
def of {X : Type} (events : List (Event Op Ans X)) : Seen :=
  events.foldl (fun s e => s.next e.op e.ans) nothing

/-- The amount of the quote; without one it is the amount of the event. -/
def amountOut (s : Seen) (event : RevenueEvent) : Value :=
  (s.quote.map (·.amountOut)).getD (.str event.amount)

/-- The price impact of the quote. -/
def priceImpact (s : Seen) : Value :=
  (s.quote.map (·.priceImpact)).getD (.str "0%")

/-- The body of the paid response. -/
def signal (s : Seen) : Value :=
  (s.paid.map (·.data)).getD .undefined

/-- The answer of the LLM, if it decides: one that is not truthy does not. -/
def deciding (s : Seen) : Option Value :=
  s.answer.bind fun r => r.toOption.filter (·.truthy)

/-- The texts of a signal that the log line of the analyst reads. -/
def readSignal (signal : Value) : Except Error (String × String) := do
  let forecast ← (← signal.field "utilization_forecast").toStr
  let confidence ← ((← signal.field "confidence").orElse (.str "?")).toStr
  return (forecast, confidence)

lemma readSignal_isOk {signal : Value} (h : (readSignal signal).isOk = true) :
    ∃ forecast text confidence text', signal.field "utilization_forecast" = .ok forecast ∧
      forecast.toStr = .ok text ∧ signal.field "confidence" = .ok confidence ∧
        (confidence.orElse (.str "?")).toStr = .ok text' := by
  obtain ⟨texts, htexts⟩ := exists_of_isOk h
  obtain ⟨forecast, hforecast, htexts⟩ := bind_eq_ok.1 htexts
  obtain ⟨text, htext, htexts⟩ := bind_eq_ok.1 htexts
  obtain ⟨confidence, hconf, htexts⟩ := bind_eq_ok.1 htexts
  obtain ⟨text', htext', -⟩ := bind_eq_ok.1 htexts
  exact ⟨forecast, text, confidence, text', hforecast, htext, hconf, htext'⟩

/-- The market is the one that has been shown, with a signal that can be read. -/
structure Shows (s : Seen) (event : RevenueEvent) (m : Market) : Prop where
  token : m.selectedTokenOut = s.quotedToken
  amountOut : m.quote.amountOut = s.amountOut event
  priceImpact : m.quote.priceImpact = s.priceImpact
  paid : ∃ paid, s.paid = some paid ∧ m.signal = paid.data
  readable : (readSignal m.signal).isOk = true

end Seen

/-- The action of an answer: `hold` is read as a swap. -/
def readAction (v : Value) : Value :=
  if v.is "hold" then .str "swap" else v

/-- Whether the analyst asks the LLM. -/
def asksLLM (cfg : Config) (input : AnalystInput) : Bool :=
  !(input.forceHeuristic || cfg.llmApiKey.getD "" = "")

section

variable (cfg : Config) (input : AnalystInput) (s : Seen)

/-- How a decision comes about. -/
inductive Decides (m : Market) : Decision → Prop
  | heuristic {h : Choice} {confidence : Value} {c : Number} (hasks : asksLLM cfg input = false)
      (hh : decideHeuristic m.quote m.signal m.selectedTokenOut = .ok h)
      (hconf : m.signal.field "confidence" = .ok confidence)
      (hc : clamp (confidence.orElse (.num (.finite 0))) (.finite 0) (.finite 100) = .ok c) :
      Decides m { h with confidence := .num c }
  | llm {out : Value} {rationale : String} (hasks : asksLLM cfg input = true)
      (hout : s.deciding = some out) (hr : (out.ownField "rationale").toStr = .ok rationale) :
      Decides m
        { ofLLMOutput out with
          action := readAction (out.ownField "action")
          rationale := .str ("[LLM] " ++ rationale) }
  | fallback {ctx : LLMContext} {d : Decision} {rationale : String}
      (hasks : asksLLM cfg input = true) (hanswer : s.answer.isSome = true)
      (hout : s.deciding = none) (hquote : ctx.quote = m.quote) (hsignal : ctx.signal = m.signal)
      (hd : heuristicDecision ctx = .ok d) (hr : d.rationale.toStr = .ok rationale) :
      Decides m
        { d with
          action := readAction d.action
          rationale := .str ("[LLM] " ++ rationale) }

/-- How a proposal comes about. -/
inductive Proposes : StrategyProposal → Prop
  | held {cb : CircuitBreakerState} (hcb : s.breaker = some cb) (ht : cb.tripped = true) :
      Proposes (buildHoldProposal input.revenueEvent cb.reason)
  | decided {cb : CircuitBreakerState} {m : Market} {d d' : Decision} {amountIn pair : String}
      (hcb : s.breaker = some cb) (ht : cb.tripped = false) (hm : s.Shows input.revenueEvent m)
      (hd : Decides cfg input s m d)
      (hforce : applyForceAction cfg input m d = .ok (d', amountIn, pair)) :
      Proposes (toProposal cfg input m d' amountIn pair)

end

/-- What the forced action makes of a decision. -/
inductive Forces (input : AnalystInput) (m : Market) (d : Decision) : Decision → String → Prop
  | free (hfree : input.forceAction.truthy = false) : Forces input m d d input.revenueEvent.amount
  | hold {d' : Decision} (hforce : input.forceAction.is "hold" = true)
      (hconf : forcedConfidence d = .ok d'.confidence) : Forces input m d d' "0"
  | stake {d' : Decision} (hforce : input.forceAction.is "stake" = true)
      (haction : d'.action = .str "stake") (hconf : forcedConfidence d = .ok d'.confidence) :
      Forces input m d d' input.revenueEvent.amount
  | quoted {d' : Decision} {minAmountOut : String} (hforce : input.forceAction.truthy = true)
      (hhold : input.forceAction.is "hold" = false) (htoken : d'.tokenOut = m.selectedTokenOut)
      (hmin : applySlippage m.quote.amountOut (1 / 2) = .ok minAmountOut)
      (hout : d'.minAmountOut = .str minAmountOut)
      (hconf : forcedConfidence d = .ok d'.confidence) :
      Forces input m d d' input.revenueEvent.amount

/-- The monitor that listens; nothing is executed before there is a proposal. -/
def seeing : Monitor Op Ans Seen where
  allows := fun _ op => op.executes? = none
  next := Seen.next

/-! ### The analyst makes its proposals in these ways -/

section

variable {cfg : Config} {input : AnalystInput} {s : Seen} {L α : Type}

lemma forces_of_applyForceAction {m : Market} {d d' : Decision} {amountIn pair : String}
    (h : applyForceAction cfg input m d = .ok (d', amountIn, pair)) :
    Forces input m d d' amountIn := by
  cases ht : input.forceAction.truthy with
  | false =>
    rw [applyForceAction, ht] at h
    cases h
    exact .free ht
  | true =>
    rw [applyForceAction, ht] at h
    change (if input.forceAction.is "hold" then _ else _) = _ at h
    cases hhold : input.forceAction.is "hold" with
    | true =>
      rw [hhold, if_pos rfl] at h
      obtain ⟨confidence, hconf, h⟩ := bind_eq_ok.1 h
      cases h
      exact .hold hhold hconf
    | false =>
      rw [hhold, if_neg Bool.false_ne_true] at h
      split at h
      · next hstake =>
        obtain ⟨amountBig, -, h⟩ := bind_eq_ok.1 h
        split at h
        · -- too little for a delegation
          obtain ⟨minAmountOut, hmin, h⟩ := bind_eq_ok.1 h
          obtain ⟨confidence, hconf, h⟩ := bind_eq_ok.1 h
          cases h
          exact .quoted ht hhold rfl hmin rfl hconf
        · obtain ⟨confidence, hconf, h⟩ := bind_eq_ok.1 h
          cases h
          exact .stake hstake rfl hconf
      · obtain ⟨minAmountOut, hmin, h⟩ := bind_eq_ok.1 h
        obtain ⟨forced, -, h⟩ := bind_eq_ok.1 h
        obtain ⟨confidence, hconf, h⟩ := bind_eq_ok.1 h
        cases h
        exact .quoted ht hhold rfl hmin rfl hconf

lemma seeing_ask {op : Op} {read : Ans op → Except Error α} (hallows : op.executes? = none)
    (hnext : ∀ r, s.next op r = s) : Stays seeing s (ask op read : Agent L α) :=
  Stays.ask hallows hnext

lemma seeing_ask_or {op : Op} {read : Ans op → Except Error α} {a : α}
    (hallows : op.executes? = none) (hnext : ∀ r, s.next op r = s) :
    Stays seeing s (tryCatch (ask op read) fun _ => pure a : Agent L α) :=
  Stays.tryCatch (seeing_ask hallows hnext) fun _ => Stays.pure _

lemma readVault_seeing : Stays seeing s (readVault cfg : Agent L Unit) := by
  rw [readVault]
  split
  · exact seeing_ask_or rfl fun _ => rfl
  · exact Stays.pure _

lemma readRecentEvents_seeing : Stays seeing s (readRecentEvents cfg : Agent L Value) := by
  rw [readRecentEvents]
  split
  · exact seeing_ask_or rfl fun _ => rfl
  · exact Stays.pure _

lemma readChain_seeing : Stays seeing s (readChain cfg : Agent L Value) := by
  refine (seeing_ask rfl fun _ => rfl).bind fun keys => ?_
  refine (seeing_ask_or rfl fun _ => rfl).bind fun account => ?_
  refine readVault_seeing.bind fun _ => ?_
  refine readRecentEvents_seeing.bind fun recent => ?_
  exact (Stays.result _).bind fun _ => Stays.pure _

lemma readMarket_seeing {l : L} :
    Returns seeing s l (readMarket input : Agent L Market) fun s' _ m =>
      s'.breaker = s.breaker ∧ s'.Shows input.revenueEvent m := by
  refine Returns.stays_bind (seeing_ask_or rfl fun _ => rfl) fun l sel => ?_
  refine Returns.stays_bind (seeing_ask rfl fun _ => rfl) fun l now => ?_
  refine Returns.ask_or_bind rfl fun quote _ => ?_
  refine Returns.stays_bind (seeing_ask_or rfl fun _ => rfl) fun l portfolio => ?_
  refine Returns.ask_bind rfl fun r paid _ hpaid => ?_
  refine Returns.result_bind fun forecast hforecast => ?_
  refine Returns.result_bind fun _ hfirst => ?_
  refine Returns.result_bind fun confidence hconf => ?_
  refine Returns.result_bind fun _ hsecond => ?_
  obtain rfl : r = .ok paid := hpaid
  refine Returns.pure ⟨rfl, rfl, ?_, ?_, ⟨paid, rfl, rfl⟩, ?_⟩
  · cases quote <;> rfl
  · cases quote <;> rfl
  · simp only [Seen.readSignal, hforecast, hfirst, hconf, hsecond, ok_bind]
    rfl

lemma decideStrategyWithLLM_seeing {ctx : LLMContext} {l : L} :
    Returns seeing s l (decideStrategyWithLLM ctx : Agent L Decision) fun s' _ d =>
      (∃ r, s' = { s with answer := some r }) ∧
        ((∃ out, s'.deciding = some out ∧
            d = { ofLLMOutput out with action := readAction (out.ownField "action") }) ∨
          (s'.deciding = none ∧ ∃ d', heuristicDecision ctx = .ok d' ∧
            d = { d' with action := readAction d'.action })) := by
  refine Returns.ask_or_bind rfl fun r _ => ?_
  refine Returns.result_bind fun d hd => ?_
  refine Returns.pure ⟨⟨r, rfl⟩, ?_⟩
  cases r with
  | error e => exact Or.inr ⟨rfl, d, hd, rfl⟩
  | ok out =>
    change (if out.truthy then Except.ok (ofLLMOutput out) else heuristicDecision ctx) = .ok d at hd
    by_cases ht : out.truthy = true
    · rw [if_pos ht] at hd
      cases hd
      refine Or.inl ⟨out, ?_, rfl⟩
      show Option.filter (·.truthy) (some out) = some out
      rw [Option.filter_some, if_pos ht]
    · rw [if_neg ht] at hd
      refine Or.inr ⟨?_, d, hd, rfl⟩
      show Option.filter (·.truthy) (some out) = none
      rw [Option.filter_some, if_neg ht]

/-- Every decision comes about in one of the ways. -/
lemma decideStrategy_seeing {account : Value} {m : Market} {l : L} :
    Returns seeing s l (decideStrategy cfg input account m : Agent L Decision) fun s' _ d =>
      (s' = s ∨ ∃ r, s' = { s with answer := some r }) ∧ Decides cfg input s' m d := by
  rw [decideStrategy]
  by_cases hllm : (input.forceHeuristic || decide (cfg.llmApiKey.getD "" = "")) = true
  · have hasks : asksLLM cfg input = false := by simp [asksLLM, hllm]
    rw [if_pos hllm]
    refine Returns.result_bind fun h hh => ?_
    refine Returns.result_bind fun confidence hconf => ?_
    refine Returns.result_bind fun c hc => ?_
    exact Returns.pure ⟨Or.inl rfl, .heuristic hasks hh hconf hc⟩
  · have hasks : asksLLM cfg input = true := by simp [asksLLM, hllm]
    rw [if_neg hllm]
    refine Returns.bind decideStrategyWithLLM_seeing ?_
    rintro _ l d ⟨⟨r, rfl⟩, hd⟩
    refine Returns.result_bind fun rationale hr => ?_
    refine Returns.pure ⟨Or.inr ⟨r, rfl⟩, ?_⟩
    rcases hd with ⟨out, hout, rfl⟩ | ⟨hout, d', hd', rfl⟩
    · exact .llm hasks hout hr
    · exact .fallback hasks rfl hout rfl rfl hd' hr

/-- Every proposal comes about in one of the ways. -/
lemma runAnalyst_seeing {l : L} :
    Returns seeing s l (runAnalyst cfg input : Agent L StrategyProposal) fun s' _ p =>
      Proposes cfg input s' p := by
  refine Returns.stays_bind readChain_seeing fun l account => ?_
  refine Returns.ask_bind rfl fun r cb _ hcb => ?_
  obtain rfl : r = cb := Except.ok.inj hcb
  cases ht : r.tripped with
  | true => exact Returns.pure (.held rfl ht)
  | false =>
    refine Returns.bind readMarket_seeing ?_
    rintro s' l m ⟨hbreaker, hshows⟩
    refine Returns.bind decideStrategy_seeing ?_
    rintro s'' l d ⟨hs, hd⟩
    refine Returns.result_bind fun forced hforce => ?_
    obtain ⟨d', amountIn, pair⟩ := forced
    refine Returns.pure ?_
    rcases hs with rfl | ⟨answer, rfl⟩
    · exact .decided hbreaker ht hshows hd hforce
    · exact .decided hbreaker ht ⟨hshows.token, hshows.amountOut, hshows.priceImpact, hshows.paid,
        hshows.readable⟩ hd hforce

/-- The calls of the analyst, the outside state it ends in and its result, when `f` answers from
the outside state. -/
def playAnalyst {X : Type} (cfg : Config) (input : AnalystInput) (f : X → (op : Op) → Ans op × X)
    (x : X) : List (Event Op Ans X) × X × (Except Error StrategyProposal × Unit) :=
  Program.play f x ((runAnalyst cfg input).toProgram ())

/-- In every environment, a proposal that is returned is made of what has been said. -/
theorem proposes_of_playAnalyst {X : Type} {f : X → (op : Op) → Ans op × X} {x : X}
    {p : StrategyProposal} (h : (playAnalyst cfg input f x).2.2.1 = .ok p) :
    Proposes cfg input (Seen.of (playAnalyst cfg input f x).1) p :=
  Returns.play (fun _ _ _ _ => trivial) runAnalyst_seeing h

end

/-! ### What the analyst calls -/

/-- The calls of an analyst; a quote is asked for the amount of the event. -/
def AnalystCalls (input : AnalystInput) : Op → Prop
  | .getQuote _ _ amount => amount = input.revenueEvent.amount
  | .dateNow | .getAgentKeys | .getAccountInfo _ | .getVaultOverview | .getRecentRevenueEvents _ _
  | .checkCircuitBreaker | .selectBestPair _ | .getPortfolioValue _ | .payAndFetchViaX402 _ _
  | .callLLM _ => True
  | _ => False

section

variable {cfg : Config} {input : AnalystInput} {L : Type}

lemma readChain_only :
    Only (AnalystCalls input) (readChain cfg : Agent L Value) := by
  have hvault : Only (AnalystCalls input) (readVault cfg : Agent L Unit) := by
    rw [readVault]
    split
    · exact Only.ask_or trivial
    · exact Stays.pure _
  have hrecent : Only (AnalystCalls input) (readRecentEvents cfg : Agent L Value) := by
    rw [readRecentEvents]
    split
    · exact Only.ask_or trivial
    · exact Stays.pure _
  refine Stays.bind (Only.ask trivial) fun keys => Stays.bind (Only.ask_or trivial) fun account => ?_
  refine Stays.bind hvault fun _ => Stays.bind hrecent fun recent => ?_
  exact Stays.bind (Stays.result _) fun _ => Stays.pure _

lemma readMarket_only :
    Only (AnalystCalls input) (readMarket input : Agent L Market) := by
  refine Stays.bind (Only.ask_or trivial) fun sel => Stays.bind (Only.ask trivial) fun now => ?_
  refine Stays.bind (Only.ask_or rfl) fun quote => Stays.bind (Only.ask_or trivial) fun folio => ?_
  refine Stays.bind (Only.ask trivial) fun paid => Stays.bind (Stays.result _) fun forecast => ?_
  refine Stays.bind (Stays.result _) fun _ => Stays.bind (Stays.result _) fun confidence => ?_
  exact Stays.bind (Stays.result _) fun _ => Stays.pure _

lemma decideStrategy_only {account : Value} {m : Market} :
    Only (AnalystCalls input) (decideStrategy cfg input account m : Agent L Decision) := by
  rw [decideStrategy]
  split
  · refine Stays.bind (Stays.result _) fun h => Stays.bind (Stays.result _) fun confidence => ?_
    exact Stays.bind (Stays.result _) fun c => Stays.pure _
  · refine Stays.bind (Stays.bind (Only.ask_or trivial) fun out => ?_) fun d => ?_
    · exact Stays.bind (Stays.result _) fun d => Stays.pure _
    · exact Stays.bind (Stays.result _) fun rationale => Stays.pure _

/-- Whatever the answers, the analyst asks for no quote but one for the amount of the event. -/
lemma runAnalyst_only :
    Only (AnalystCalls input) (runAnalyst cfg input : Agent L StrategyProposal) := by
  refine Stays.bind readChain_only fun account => Stays.bind (Only.ask trivial) fun cb => ?_
  split
  · exact Stays.pure _
  · refine Stays.bind readMarket_only fun m => ?_
    refine Stays.bind decideStrategy_only fun d => ?_
    exact Stays.bind (Stays.result _) fun forced => Stays.pure _

end

end ArwaAgent
