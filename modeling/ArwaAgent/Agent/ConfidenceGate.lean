import ArwaAgent.Agent.AuditTrace
import ArwaAgent.Agent.Heuristics
import ArwaAgent.Agent.Influence
import ArwaAgent.Lib.Outcome

/-!
# What comes past the confidence gate

The gate stops a proposal whose confidence compares as less than 50.  A number that is at
least 50 passes, as it should; so does what compares as nothing at all, and what only
reads as a number: a missing confidence in the answer of the LLM, a text, or the NaN that
a signal without a readable number leaves behind in the heuristic and in the fallback.
`SlipsThrough` says which signals and answers these are.
-/

namespace ArwaAgent

open Js Effects Effects.Code

/-- A number that is at least 50. -/
def highConfidence : Value → Bool
  | .num .nan => false
  | .num c => !c.lt (.finite 50)
  | _ => false

/-- The answer of the LLM that decides: one that is truthy, if the LLM is asked. -/
def decidingAnswer (cfg : Config) (answer : Except Error Value) : Option Value :=
  if cfg.llmApiKey.getD "" = "" then none else answer.toOption.filter (·.truthy)

/-- A signal and an answer with which something passes the gate that is no number of at least
50.  Where the answer decides, its confidence does not compare as less; otherwise the
confidence of the signal reads as NaN. -/
def SlipsThrough (cfg : Config) (signal : Value) (answer : Except Error Value) : Prop :=
  (Seen.readSignal signal).isOk = true ∧
    match decidingAnswer cfg answer with
    | some out => (out.ownField "rationale").toStr.isOk = true ∧
        (∃ c, (out.ownField "confidence").toNumber = .ok c ∧ c.lt (.finite 50) = false) ∧
        highConfidence (out.ownField "confidence") = false
    | none => ((signal.ownField "confidence").orElse (.num (.finite 0))).toNumber = .ok .nan

/-! ### Past the gate -/

lemma highConfidence_num {c : Number} (hnan : c ≠ .nan) (hgate : c.lt (.finite 50) = false) :
    highConfidence (.num c) = true := by
  cases c with
  | nan => exact absurd rfl hnan
  | infinity negative => simp [highConfidence, hgate]
  | finite q => simp [highConfidence, hgate]

lemma toNumber_orElse_nan_iff {v : Value} (p q : ℚ) :
    (v.orElse (.num (.finite p))).toNumber = .ok .nan ↔
      (v.orElse (.num (.finite q))).toNumber = .ok .nan := by
  cases v with
  | undefined | null => simp [Value.orElse, Value.toNumber]
  | _ => exact Iff.rfl

lemma toNumber_of_clamp_nan {v : Value} {lo hi : ℚ}
    (h : clamp v (.finite lo) (.finite hi) = .ok .nan) : v.toNumber = .ok .nan := by
  obtain ⟨n, hn, h⟩ := bind_eq_ok.1 h
  have hnan : (Number.finite lo).max ((Number.finite hi).min n) = .nan := Except.ok.inj h
  rw [Number.max_eq_nan, Number.min_eq_nan] at hnan
  obtain rfl : n = .nan := by simpa using hnan
  exact hn

section

variable {cfg : Config} {ai : AnalystInput} {s : Seen} {signal : Value}
  {answer : Except Error Value}

/-- What has been said agrees with a signal and an answer of the LLM. -/
structure Seen.Told (s : Seen) (signal : Value) (answer : Except Error Value) : Prop where
  signal : ∀ paid, s.paid = some paid → paid.data = signal
  answer : ∀ r, s.answer = some r → r = answer

lemma Seen.Told.deciding (h : s.Told signal answer) (hasks : asksLLM cfg ai = true)
    (hsome : s.answer.isSome = true) : decidingAnswer cfg answer = s.deciding := by
  have hkey : ¬ cfg.llmApiKey.getD "" = "" := by
    intro hkey
    simp [asksLLM, hkey] at hasks
  obtain ⟨r, hr⟩ := Option.isSome_iff_exists.1 hsome
  obtain rfl := h.answer r hr
  rw [decidingAnswer, if_neg hkey, Seen.deciding, hr]
  rfl

lemma isSome_answer_of_deciding {out : Value} (h : s.deciding = some out) :
    s.answer.isSome = true := by
  rw [Seen.deciding] at h
  cases hans : s.answer with
  | none =>
    rw [hans] at h
    cases h
  | some r => rfl

/-- A confidence of the fallback that is no number reads as NaN in the signal. -/
lemma nan_of_heuristicDecision {ctx : LLMContext} {d : Decision}
    (hd : heuristicDecision ctx = .ok d) (hlow : highConfidence d.confidence = false) :
    ((ctx.signal.ownField "confidence").orElse (.num (.finite 0))).toNumber = .ok .nan := by
  have hgate : ∃ c, d.confidence = .num c ∧ c = .nan := by
    obtain ⟨c, -, hc, -, hgate⟩ := heuristicDecision_fields hd
    refine ⟨c, hc, ?_⟩
    by_contra hnan
    rw [hc, highConfidence_num hnan hgate] at hlow
    cases hlow
  obtain ⟨c, hc, rfl⟩ := hgate
  rcases heuristicDecision_eq_ok hd with ⟨-, rationale, c, hnum, rfl⟩ |
    ⟨-, n, rationale, c, -, hnum, rfl⟩
  · have hnan : (Number.finite 60).max c = .nan := Value.num.inj hc
    obtain rfl : c = .nan := by simpa using hnan
    exact (toNumber_orElse_nan_iff 70 0).1 hnum
  · have hnan : (Number.finite 50).max (c.sub (.finite 10)) = .nan := Value.num.inj hc
    obtain rfl : c = .nan := by simpa using hnan
    exact (toNumber_orElse_nan_iff 60 0).1 hnum

/-- What passes the gate has a high confidence, unless the signal and the answer let something
else through. -/
lemma Proposes.highConfidence {p : StrategyProposal} {c : Number} (h : Proposes cfg ai s p)
    (htold : s.Told signal answer) (hfree : ai.forceAction.truthy = false)
    (hheuristic : ai.forceHeuristic = false) (hslips : ¬ SlipsThrough cfg signal answer)
    (hc : p.confidence.toNumber = .ok c) (hgate : c.lt (.finite 50) = false) :
    highConfidence p.confidence = true := by
  cases h with
  | held hcb ht =>
    cases hc
    exact absurd hgate (by decide)
  | @decided cb m d d' amountIn pair hcb ht hm hd hforce =>
    obtain ⟨paid, hpaid, hdata⟩ := hm.paid
    obtain rfl : m.signal = signal := hdata.trans (htold.signal paid hpaid)
    rw [applyForceAction, if_pos (by simp [hfree])] at hforce
    cases hforce
    by_contra hlow
    rw [Bool.not_eq_true] at hlow
    refine hslips ⟨hm.readable, ?_⟩
    cases hd with
    | heuristic hasks hh hconf hclamp =>
      have hkey : cfg.llmApiKey.getD "" = "" := by
        simpa [asksLLM, hheuristic] using hasks
      rw [decidingAnswer, if_pos hkey]
      cases hc
      change highConfidence (.num c) = false at hlow
      have hnan : c = .nan := by
        by_contra hne
        rw [highConfidence_num hne hgate] at hlow
        cases hlow
      rw [hnan, Value.field_eq_ok hconf] at hclamp
      exact toNumber_of_clamp_nan hclamp
    | llm hasks hout hr =>
      rw [htold.deciding hasks (isSome_answer_of_deciding hout), hout]
      exact ⟨by rw [hr]; rfl, ⟨c, hc, hgate⟩, hlow⟩
    | fallback hasks hanswer hout hquote hsignal hd hr =>
      rw [htold.deciding hasks hanswer, hout, ← hsignal]
      exact nan_of_heuristicDecision hd hlow

end

/-! ### The cycle -/

/-- What an environment says when it gives a signal and an answer of the LLM. -/
def Tells (signal : Value) (answer : Except Error Value) : (op : Op) → Ans op → Prop
  | .payAndFetchViaX402 _ _, .ok paid => paid.data = signal
  | .callLLM _, r => r = answer
  | _, _ => True

/-- The monitor that lets only proposals with a high confidence be executed. -/
def closedGate (signal : Value) (answer : Except Error Value) : Monitor Op Ans Seen where
  allows := fun _ op => ∀ p, op.executes? = some p → highConfidence p.confidence = true
  expects := fun _ => Tells signal answer
  next := Seen.next

section

variable {cfg : Config} {input : CycleInput} {signal : Value} {answer : Except Error Value}
  {s : Seen} {L : Type}

lemma Seen.Told.next (h : s.Told signal answer) {op : Op} {r : Ans op}
    (ht : Tells signal answer op r) : (s.next op r).Told signal answer := by
  cases op with
  | payAndFetchViaX402 endpoint price =>
    refine ⟨fun paid hpaid => ?_, h.answer⟩
    cases r with
    | error e => cases hpaid
    | ok paid' =>
      cases hpaid
      exact ht
  | callLLM ctx =>
    refine ⟨h.signal, fun r' hr' => ?_⟩
    cases hr'
    exact ht
  | _ => exact ⟨h.signal, h.answer⟩

/-- Code that executes nothing keeps the gate closed. -/
lemma closedGate_of_seeing {α : Type} {x : Agent L α} {l : L} {Q : Seen → L → α → Prop}
    (hx : Returns seeing s l x Q) (h : s.Told signal answer) :
    Returns (closedGate signal answer) s l x fun s' l' a => s'.Told signal answer ∧ Q s' l' a := by
  have hsim := Meets.simulate (N := closedGate signal answer)
    (R := fun s s' => s = s' ∧ s.Told signal answer) ?_ hx ⟨rfl, h⟩
  · refine hsim.mono fun s' l' r hr a ha => ?_
    obtain ⟨_, ⟨rfl, htold⟩, hQ⟩ := hr
    exact ⟨htold, hQ a ha⟩
  · rintro s _ op ⟨rfl, htold⟩ hallows
    refine ⟨fun p hp => ?_, fun r hr => ⟨trivial, rfl, htold.next hr⟩⟩
    have : op.executes? = none := hallows
    rw [this] at hp
    cases hp

lemma readTokenBalance_closedGate : Stays (closedGate signal answer) s readTokenBalance := by
  refine Stays.tryCatch ?_ fun e => Stays.pure _
  refine Stays.bind (Stays.ask (fun _ h => nomatch h) fun r => rfl) fun keys => ?_
  refine Stays.bind (Stays.ask (fun _ h => nomatch h) fun r => rfl) fun r => ?_
  exact Stays.bind (Stays.result _) fun display => Stays.pure _

lemma executes?_of_inExecutor {ph : Phase} {op : Op} (hph : ph.inExecutor) (h : ph.allows op) :
    op.executes? = none ∧ ∀ r, (ph.next op r).inExecutor := by
  cases ph with
  | operator => exact hph.elim
  | analysing => exact hph.elim
  | held => exact hph.elim
  | cleared => exact hph.elim
  | executing p => cases op <;> first | exact h.elim | exact ⟨rfl, fun _ => trivial⟩
  | recorded p o => cases op <;> first | exact h.elim | exact ⟨rfl, fun _ => trivial⟩
  | logged => exact h.elim

lemma runExecutor_closedGate {p : StrategyProposal} {l : Unit} :
    Returns (closedGate signal answer) s l (runExecutor cfg p) fun _ _ _ => True := by
  refine Meets.mono (Meets.simulate (R := fun ph _ => ph.inExecutor) ?_ (runExecutor_meets l)
    trivial) fun _ _ _ _ _ _ => trivial
  intro ph s' op hph hallows
  obtain ⟨hnone, hnext⟩ := executes?_of_inExecutor hph hallows
  refine ⟨fun p hp => ?_, fun r _ => ⟨trivial, hnext r⟩⟩
  rw [hnone] at hp
  cases hp

lemma runCycle_closedGate (hfree : input.forceAction.truthy = false)
    (hslips : ¬ SlipsThrough cfg signal answer) :
    Returns (closedGate signal answer) .nothing () (runCycle cfg input) fun _ _ _ => True := by
  have htold : Seen.nothing.Told signal answer := ⟨(fun _ h => nomatch h), (fun _ h => nomatch h)⟩
  refine Returns.stays_bind readTokenBalance_closedGate fun l tokenBalance => ?_
  refine Returns.bind (closedGate_of_seeing runAnalyst_seeing htold) ?_
  rintro s l p ⟨htold, hp⟩
  refine Returns.result_bind fun c hc => ?_
  cases hgate : c.lt (.finite 50) with
  | true => exact Returns.pure trivial
  | false =>
    refine Returns.ask_bind ?_ fun _ _ _ _ => ?_
    · intro p' hp'
      cases hp'
      exact hp.highConfidence htold hfree rfl hslips hc hgate
    · refine Returns.bind runExecutor_closedGate fun s l execution _ => ?_
      exact Returns.pure trivial

end

/-! ### A cycle that slips through -/

/-- A market that gives a signal, an answer of the LLM and a quote for nothing. -/
def telling (signal : Value) (answer : Except Error Value) : Answers
  | .getQuote _ _ _ => .ok ⟨.str "0", .str "0%", "CSPR/sCSPR", 0⟩
  | .payAndFetchViaX402 _ _ => .ok ⟨signal, none⟩
  | .callLLM _ => answer
  | op => openMarket op

/-- What the analyst reads in it. -/
def toldMarket (signal : Value) : Market where
  selectedTokenOut := .str "sCSPR"
  quote := ⟨.str "0", .str "0%", "CSPR/sCSPR", 0⟩
  portfolio := .obj [("total", .str "0"), ("breakdown", .arr [])]
  signal := signal
  x402Proof := none

section

variable {cfg : Config} {ai : AnalystInput} {signal : Value} {answer : Except Error Value}

lemma tells_telling (op : Op) : Tells signal answer op (telling signal answer op) := by
  cases op <;> first | exact trivial | rfl

lemma evaluate_readTokenBalance : evaluate (telling signal answer) readTokenBalance = .ok none := by
  simp only [readTokenBalance, evaluate_tryCatch, evaluate_bind, evaluate_ask, evaluate_pure]
  rfl

lemma evaluate_readChain :
    evaluate (telling signal answer) (readChain cfg : Agent Unit Value) = .ok (.str "0") := by
  simp only [readChain, readVault, readRecentEvents, evaluate_bind, evaluate_tryCatch, evaluate_ask,
    evaluate_pure, evaluate_result]
  split <;> split <;> rfl

lemma evaluate_readMarket (h : (Seen.readSignal signal).isOk = true) :
    evaluate (telling signal answer) (readMarket ai : Agent Unit Market) = .ok (toldMarket signal) := by
  obtain ⟨forecast, text, confidence, text', hforecast, htext, hconf, htext'⟩ :=
    Seen.readSignal_isOk h
  have hpaid : telling signal answer (.payAndFetchViaX402 ai.signalEndpoint ai.signalPriceMotes) =
      .ok ⟨signal, none⟩ := rfl
  simp only [readMarket, evaluate_bind, evaluate_tryCatch, evaluate_ask, evaluate_pure,
    evaluate_result, hpaid, id_eq, ok_bind, hforecast, htext, hconf, htext']
  rfl

lemma exists_addsLiquidity (h : (Seen.readSignal signal).isOk = true) :
    ∃ adds, addsLiquidity (.str "0%") signal = .ok adds := by
  obtain ⟨forecast, text, -, -, hforecast, htext, -⟩ := Seen.readSignal_isOk h
  have himpact : (priceImpactPct (.str "0%")).isOk = true := by rfl
  obtain ⟨piPct, hpi⟩ := exists_of_isOk himpact
  have hbullish : signalBullish forecast = .ok (text.toList.tails.any bullishHere) := by
    rw [signalBullish, htext]
    rfl
  exact ⟨_, addsLiquidity_eq_ok.2 ⟨piPct, hpi, forecast, hforecast, _, hbullish, rfl⟩⟩

lemma exists_decideHeuristic (h : (Seen.readSignal signal).isOk = true) :
    ∃ choice, decideHeuristic (toldMarket signal).quote (toldMarket signal).signal
      (toldMarket signal).selectedTokenOut = .ok choice := by
  obtain ⟨adds, hadds⟩ := exists_addsLiquidity h
  cases adds with
  | true =>
    obtain ⟨rationale, hown⟩ : ∃ rationale,
        decideHeuristic (toldMarket signal).quote signal (.str "sCSPR") =
          .ok ⟨.str "add_liquidity", .str "sCSPR", .str "0", rationale⟩ := decideHeuristic_adds hadds
    exact ⟨_, hown⟩
  | false =>
    have hzero : (Value.str "0").toBigInt = .ok 0 := by decide
    have htoken : (Value.str "sCSPR").toStr = .ok "sCSPR" := rfl
    obtain ⟨rationale, hown⟩ : ∃ rationale,
        decideHeuristic (toldMarket signal).quote signal (.str "sCSPR") =
          .ok ⟨.str "swap", .str "sCSPR", .str (toString (lessSlippage 0)), rationale⟩ :=
      decideHeuristic_swaps hadds hzero htoken
    exact ⟨_, hown⟩

lemma exists_heuristicDecision {ctx : LLMContext} (h : (Seen.readSignal signal).isOk = true)
    (hquote : ctx.quote = (toldMarket signal).quote) (hsignal : ctx.signal = signal)
    (hnan : ((signal.ownField "confidence").orElse (.num (.finite 0))).toNumber = .ok .nan) :
    ∃ d rationale, heuristicDecision ctx = .ok d ∧ d.rationale = .str rationale ∧
      d.confidence = .num .nan := by
  obtain ⟨adds, hadds⟩ := exists_addsLiquidity h
  have hadds' : addsLiquidity ctx.quote.priceImpact ctx.signal = .ok adds := by
    rw [hquote, hsignal]
    exact hadds
  cases adds with
  | true =>
    have hc := (toNumber_orElse_nan_iff 0 70).1 hnan
    rw [← hsignal] at hc
    obtain ⟨rationale, hd⟩ := heuristicDecision_adds hadds' hc
    exact ⟨_, rationale, hd, rfl, rfl⟩
  | false =>
    have hc := (toNumber_orElse_nan_iff 0 60).1 hnan
    rw [← hsignal] at hc
    have hzero : (Value.str "0").toBigInt = .ok 0 := by decide
    rw [show Value.str "0" = ctx.quote.amountOut.or (.str "0") by rw [hquote]; rfl] at hzero
    obtain ⟨rationale, hd⟩ := heuristicDecision_swaps hadds' hzero hc
    exact ⟨_, rationale, hd, rfl, rfl⟩

lemma falsy_of_filter (h : answer.toOption.filter (·.truthy) = none) :
    ∃ out, (tryCatch answer fun _ => .ok .null) = .ok out ∧ out.truthy = false := by
  cases answer with
  | error e => exact ⟨.null, rfl, rfl⟩
  | ok out =>
    refine ⟨out, rfl, ?_⟩
    rw [Option.filter_eq_none_iff] at h
    simpa using h out rfl

/-- Whatever slips through, the analyst decides with a confidence that the gate does not stop and
that is not high. -/
lemma exists_decision (hslips : SlipsThrough cfg signal answer) (hheuristic : ai.forceHeuristic = false) :
    ∃ d c, evaluate (telling signal answer)
        (decideStrategy cfg ai (.str "0") (toldMarket signal) : Agent Unit Decision) = .ok d ∧
      d.confidence.toNumber = .ok c ∧ c.lt (.finite 50) = false ∧
        highConfidence d.confidence = false := by
  obtain ⟨hread, hslips⟩ := hslips
  rw [decideStrategy, hheuristic, Bool.false_or]
  by_cases hkey : cfg.llmApiKey.getD "" = ""
  · rw [decidingAnswer, if_pos hkey] at hslips
    rw [if_pos (decide_eq_true hkey)]
    obtain ⟨choice, hchoice⟩ := exists_decideHeuristic hread
    obtain ⟨-, -, confidence, -, -, -, hconf, -⟩ := Seen.readSignal_isOk hread
    change (toldMarket signal).signal.field "confidence" = .ok confidence at hconf
    have hclamp : clamp (confidence.orElse (.num (.finite 0))) (.finite 0) (.finite 100) =
        .ok .nan := by
      rw [Value.field_eq_ok hconf, clamp]
      exact bind_eq_ok.2 ⟨.nan, hslips, rfl⟩
    refine ⟨{ choice with confidence := .num .nan }, .nan, ?_, rfl, rfl, rfl⟩
    simp only [evaluate_bind, evaluate_result, evaluate_pure, hchoice, hconf, hclamp, ok_bind]
  · rw [decidingAnswer, if_neg hkey] at hslips
    rw [if_neg (by simpa using hkey)]
    have hllm : telling signal answer (.callLLM ⟨.str "0", (toldMarket signal).quote,
        (toldMarket signal).signal, (toldMarket signal).portfolio, ai.revenueEvent⟩) = answer := rfl
    simp only [decideStrategyWithLLM, evaluate_bind, evaluate_tryCatch, evaluate_ask,
      evaluate_result, evaluate_pure, hllm, id_eq]
    cases hout : answer.toOption.filter (·.truthy) with
    | some out =>
      rw [hout] at hslips
      obtain ⟨hrationale, ⟨c, hc, hgate⟩, hlow⟩ := hslips
      obtain ⟨rationale, hr⟩ := exists_of_isOk hrationale
      obtain ⟨hans, ht⟩ := Option.filter_eq_some_iff.1 hout
      obtain rfl : answer = .ok out := by
        cases answer with
        | error e => cases hans
        | ok out' => exact congrArg Except.ok (Option.some.inj hans)
      refine ⟨{ ofLLMOutput out with
        action := readAction (out.ownField "action")
        rationale := .str ("[LLM] " ++ rationale) }, c, ?_, hc, hgate, hlow⟩
      show ((if out.truthy then Except.ok (ofLLMOutput out) else heuristicDecision _) >>= _) >>= _ = _
      rw [if_pos ht, ok_bind, ok_bind]
      show ((out.ownField "rationale").toStr >>= _) = _
      rw [hr]
      rfl
    | none =>
      rw [hout] at hslips
      obtain ⟨d, rationale, hd, hr, hconf⟩ := @exists_heuristicDecision signal
        ⟨.str "0", (toldMarket signal).quote, (toldMarket signal).signal,
          (toldMarket signal).portfolio, ai.revenueEvent⟩ hread rfl rfl hslips
      refine ⟨{ d with
        action := readAction d.action
        rationale := .str ("[LLM] " ++ rationale) }, .nan, ?_, ?_, rfl, ?_⟩
      · obtain ⟨out, hans, ht⟩ := falsy_of_filter hout
        rw [hans, ok_bind, if_neg (by rw [ht]; exact Bool.false_ne_true), hd, ok_bind, ok_bind]
        show (d.rationale.toStr >>= _) = _
        rw [hr]
        rfl
      · rw [hconf]
        rfl
      · rw [hconf]
        rfl

lemma evaluate_runAnalyst {d : Decision} (hread : (Seen.readSignal signal).isOk = true)
    (hfree : ai.forceAction.truthy = false)
    (hd : evaluate (telling signal answer)
      (decideStrategy cfg ai (.str "0") (toldMarket signal) : Agent Unit Decision) = .ok d) :
    ∃ p, evaluate (telling signal answer) (runAnalyst cfg ai : Agent Unit StrategyProposal) = .ok p ∧
      p.confidence = d.confidence := by
  have hbreaker : telling signal answer .checkCircuitBreaker = ⟨false, "ok", .finite 0, 0, 0, 0⟩ := rfl
  have hforce : applyForceAction cfg ai (toldMarket signal) d =
      .ok (d, ai.revenueEvent.amount, (toldMarket signal).quote.pair) := by
    rw [applyForceAction, if_pos (by simp [hfree])]
    rfl
  refine ⟨toProposal cfg ai (toldMarket signal) d ai.revenueEvent.amount
    (toldMarket signal).quote.pair, ?_, rfl⟩
  simp only [runAnalyst, evaluate_bind, evaluate_readChain, evaluate_ask, hbreaker, ok_bind,
    Bool.false_eq_true, if_false, evaluate_readMarket hread, hd, evaluate_result, hforce,
    evaluate_pure]

end

lemma exists_executed {cfg : Config} {input : CycleInput} {signal : Value}
    {answer : Except Error Value} (hfree : input.forceAction.truthy = false)
    (hslips : SlipsThrough cfg signal answer) :
    ∃ p, ⟨.runExecutor p, (), (), ()⟩ ∈ callsOf (telling signal answer) (runCycle cfg input) ∧
      highConfidence p.confidence = false := by
  obtain ⟨d, c, hd, hc, hgate, hlow⟩ := @exists_decision cfg
    { revenueEvent := input.revenueEvent
      ownerAddress := input.ownerAddress
      signalEndpoint := cfg.x402SignalEndpoint
      signalPriceMotes := "1000000"
      forceHeuristic := false
      forceAction := input.forceAction } signal answer hslips rfl
  obtain ⟨p, hp, hconf⟩ := evaluate_runAnalyst hslips.1 hfree hd
  refine ⟨p, ?_, by rw [hconf, hlow]⟩
  refine mem_callsOf_bind evaluate_readTokenBalance (mem_callsOf_bind hp ?_)
  rw [← hconf] at hc
  refine mem_callsOf_bind (p := result p.confidence.toNumber) hc ?_
  rw [hgate]
  exact mem_callsOf_ask_bind _ _ _

/-- Whatever the signal and the answer of the LLM, without a forced action: every cycle, in every
environment that gives them, executes only proposals whose confidence is a number that is at
least 50, if and only if the signal and the answer let nothing else slip through. -/
theorem gate_closed_iff {cfg : Config} {input : CycleInput}
    (hfree : input.forceAction.truthy = false) (signal : Value) (answer : Except Error Value) :
    (∀ (X : Type) (f : X → (op : Op) → Ans op × X) (x : X),
        (∀ x op, Tells signal answer op (f x op).1) →
        ∀ e ∈ (playCycle cfg input f x).1, ∀ p, e.op = .runExecutor p →
          highConfidence p.confidence = true) ↔
      ¬ SlipsThrough cfg signal answer := by
  constructor
  · intro h hslips
    obtain ⟨p, hp, hlow⟩ := exists_executed hfree hslips
    have hhigh := h Unit (fun x op => (telling signal answer op, x)) ()
      (fun _ op => tells_telling op) _ hp p rfl
    rw [hlow] at hhigh
    cases hhigh
  · intro hslips X f x hf e he p hp
    obtain ⟨s, hs⟩ := Program.Meets.play_allows (fun _ x op _ => hf x op)
      (runCycle_closedGate hfree hslips) e he
    rw [hp] at hs
    exact hs p rfl

/-! ### A signal with a confidence and an answer without one -/

/-- A signal that is sure enough. -/
def sureSignal : Value :=
  .obj [("utilization_forecast", .str "72%"), ("confidence", .num (.finite 72))]

/-- A cycle on an event of 1 CSPR, with no action forced. -/
def freeCycle : CycleInput :=
  ⟨freeInput.revenueEvent, "", .undefined⟩

/-- Without an LLM a signal that is sure enough lets nothing slip through. -/
theorem gate_closed_sure :
    ¬ SlipsThrough plainConfig sureSignal (.error ⟨"unavailable"⟩) ∧
      ∀ e ∈ (playCycle plainConfig freeCycle
          (fun (x : Unit) op => (telling sureSignal (.error ⟨"unavailable"⟩) op, x)) ()).1,
        ∀ p, e.op = .runExecutor p → highConfidence p.confidence = true := by
  have hslips : ¬ SlipsThrough plainConfig sureSignal (.error ⟨"unavailable"⟩) := by
    rintro ⟨-, hnan⟩
    have hseventy : (Except.ok (.finite 72) : Except Error Number) = .ok .nan := hnan
    cases hseventy
  exact ⟨hslips, (gate_closed_iff rfl sureSignal (.error ⟨"unavailable"⟩)).2 hslips Unit _ ()
    (fun _ op => tells_telling op)⟩

/-- An answer of the LLM without a confidence is executed. -/
theorem missing_confidence_is_executed :
    ¬ ∀ (cfg : Config) (input : CycleInput) (X : Type) (f : X → (op : Op) → Ans op × X) (x : X),
      input.forceAction.truthy = false →
        ∀ e ∈ (playCycle cfg input f x).1, ∀ p, e.op = .runExecutor p →
          highConfidence p.confidence = true := by
  intro h
  have hslips : SlipsThrough llmConfig sureSignal (.ok (.obj [("action", .str "swap")])) :=
    ⟨by rfl, by rfl, ⟨.nan, rfl, rfl⟩, rfl⟩
  obtain ⟨p, hp, hlow⟩ := @exists_executed llmConfig freeCycle _ _ rfl hslips
  have hhigh := h llmConfig freeCycle Unit _ () rfl _ hp p rfl
  rw [hlow] at hhigh
  cases hhigh

end ArwaAgent
