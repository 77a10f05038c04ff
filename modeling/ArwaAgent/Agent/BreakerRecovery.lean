import ArwaAgent.Agent.Protocol
import ArwaAgent.Agent.Scenario

/-!
# When the breaker recovers

The cooldown runs out by itself, but the drawdown and the streak change only when a
strategy is executed, and no strategy is executed while they trip the breaker.  So an
idle agent gets past the breaker again, without the operator, exactly if neither of the
two trips it: then it is enough to wait and to run one more cycle.
-/

namespace ArwaAgent

open Js Effects Effects.Code

/-- The operator does not reset the breaker. -/
def NoReset (_ : AgentWorld) (l : Pool.Label Op Ans Shared Job) : Prop :=
  l ≠ .start .reset

/-- Time and further cycles alone can bring the agent to send a transaction. -/
def Recovers (cfg : Config) (w : AgentWorld) : Prop :=
  ∃ w' new, ((agentSystem cfg).restrict NoReset).Continues w w' ∧ w'.log = w.log ++ new ∧
    ∃ e ∈ new, e.op.sends = true

/-- The breaker trips for a reason that time does not remove. -/
def Stuck (cfg : Config) (s : RiskState) : Prop :=
  (RiskGuard.getMaxDrawdownPct cfg.risk).lt (RiskGuard.computeDrawdownPct s) = true ∨
    RiskGuard.getMaxRevertStreak cfg.risk ≤ s.revertStreak

instance (cfg : Config) (s : RiskState) : Decidable (Stuck cfg s) :=
  inferInstanceAs (Decidable (_ ∨ _))

section

variable {cfg : Config} {w : AgentWorld}

/-! ### A stuck breaker stays stuck -/

/-- Since `w`, the guard has not changed, every cycle is still before its check or has been
held, and nothing has been submitted. -/
structure Frozen (w w' : AgentWorld) : Prop where
  risk : w'.shared.risk = w.shared.risk
  tasks : ∀ t ∈ w'.tasks, ∃ ph, (ph = .analysing ∨ ph = .held) ∧
    t.rest.Meets cycleProtocol ph fun _ _ => True
  log : ∃ new, w'.log = w.log ++ new ∧ ∀ e ∈ new, e.op.submits = false

/-- A call before the check does nothing to the guard, and a stuck breaker holds the cycle at
its check. -/
lemma analysing_of_stuck {x y : Shared} {op : Op} {r : Ans op} (hstuck : Stuck cfg x.risk)
    (hans : (machine cfg).answer x op r y) (hallowed : Phase.analysing.allows op) :
    y.risk = x.risk ∧ op.submits = false ∧
      (Phase.next .analysing op r = .analysing ∨ Phase.next .analysing op r = .held) := by
  cases op with
  | checkCircuitBreaker =>
    have htrip : (RiskGuard.checkCircuitBreaker cfg.risk x.now x.risk).tripped = true :=
      RiskGuard.tripped_iff.2 (Or.inr hstuck)
    refine ⟨?_, rfl, Or.inr ?_⟩
    · obtain ⟨-, rfl⟩ := hans
      rfl
    · rw [next_of_check hans rfl, htrip]
      rfl
  | getAgentKeys | getAgentCep18Balance | getAccountInfo | getVaultOverview
  | getRecentRevenueEvents =>
    obtain rfl : y = x := hans
    exact ⟨rfl, rfl, Or.inl rfl⟩
  | _ => exact hallowed.elim

/-- No step of the agent frees a stuck breaker. -/
lemma Frozen.step {u v : AgentWorld} {l : Pool.Label Op Ans Shared Job}
    (hstuck : Stuck cfg w.shared.risk) (hu : Frozen w u)
    (hstep : ((agentSystem cfg).restrict NoReset).step u l v) : Frozen w v := by
  obtain ⟨hok, hstep⟩ := hstep
  cases hstep with
  | start j =>
    refine ⟨hu.risk, fun t ht => ?_, hu.log⟩
    rcases List.mem_append.1 ht with ht | ht
    · exact hu.tasks t ht
    · rw [List.mem_singleton.1 ht]
      -- a new cycle is before its check
      cases j with
      | cycle input => exact ⟨.analysing, Or.inl rfl, code_meets cfg (.cycle input)⟩
      | reset => exact absurd rfl hok
  | @turn k j op next r y htask hans =>
    obtain ⟨ph, hph, hallowed, hnext⟩ := hu.tasks _ (List.mem_of_getElem? htask)
    obtain ⟨new, hlog, hnew⟩ := hu.log
    rcases hph with rfl | rfl
    · obtain ⟨hrisk, hsubmits, hph⟩ :=
        analysing_of_stuck (hu.risk ▸ hstuck) hans hallowed
      refine ⟨hrisk.trans hu.risk, fun t ht => ?_, new ++ [⟨⟨op, r, u.shared, y⟩, k, j⟩],
        ?_, ?_⟩
      · rcases List.mem_or_eq_of_mem_set ht with ht | rfl
        · exact hu.tasks t ht
        · exact ⟨_, hph, hnext r trivial⟩
      · simp only [hlog, List.append_assoc]
      · intro e he
        rcases List.mem_append.1 he with he | he
        · exact hnew e he
        · rw [List.mem_singleton.1 he]
          exact hsubmits
    · -- a held cycle makes no further call
      exact hallowed.elim
  | drift hd => exact ⟨hd.2.1.trans hu.risk, hu.tasks, hu.log⟩

/-- A stuck breaker is absorbing: no continuation without a reset sends anything. -/
lemma not_recovers_of_stuck (hidle : Pool.Idle w) (hstuck : Stuck cfg w.shared.risk) :
    ¬ Recovers cfg w := by
  rintro ⟨w', new, hcont, hlog, e, he, hsends⟩
  have hinit : Frozen w w := by
    -- an idle task has nothing left to do, so it may count as held
    refine ⟨rfl, fun t ht => ⟨.held, Or.inr rfl, ?_⟩, [], (List.append_nil _).symm, by simp⟩
    rw [hidle t ht]
    trivial
  obtain ⟨new', hlog', hnew⟩ :=
    (hcont.invariant (fun _ _ _ hs => hs.step hstuck) hinit).log
  obtain rfl : new = new' := List.append_cancel_left (hlog.symm.trans hlog')
  have := hnew e he
  rw [Op.submits_of_sends hsends] at this
  cases this

/-! ### A breaker that is not stuck recovers -/

/-- The calls of a cycle before it sends anything: they leave the guard alone. -/
def Op.prepares : Op → Bool
  | .recordPositionOpened | .recordCustodianDeposit _ | .recordStrategyOutcome _
  | .updatePortfolioSnapshot _ | .resetCircuitBreaker => false
  | _ => true

/-- The answers of an open market, with a breaker that is not tripped. -/
def OpenAnswer : (op : Op) → Ans op → Prop
  | .dateNow, _ => True
  | .checkCircuitBreaker, r => r.tripped = false
  | op, r => r = openMarket op

/-- Whether a cycle in an open market has sent something. -/
def sending : Monitor Op Ans Bool where
  allows := fun sent op => match sent with
    | true => True
    | false => op.prepares = true
  expects := fun sent op r => match sent with
    | true => True
    | false => OpenAnswer op r
  next := fun sent op _ => sent || op.sends

lemma sending_latches : sending.Latches Op.sends := fun _ _ _ => rfl

lemma sending_true {L α : Type} {l : L} {x : Agent L α} :
    Meets sending true l x fun sent _ _ => sent = true :=
  meets_of_latches sending_latches fun _ => trivial

lemma readTokenBalance_open :
    Meets sending false () readTokenBalance fun sent _ r => sent = false ∧ r = .ok none := by
  refine meets_tryCatch.2 (meets_ask_bind.2 ⟨rfl, ?_⟩)
  rintro r rfl
  refine meets_ask_bind.2 ⟨rfl, ?_⟩
  rintro r rfl
  exact ⟨rfl, rfl⟩

lemma readChain_open :
    Meets sending false () (readChain cfg : Agent Unit Value) fun sent _ r =>
      sent = false ∧ r = .ok (.str "0") := by
  refine meets_ask_bind.2 ⟨rfl, ?_⟩
  rintro r rfl
  refine meets_bind.2 (meets_ask_or.2 ⟨rfl, ?_⟩)
  rintro r rfl
  have hvault : Meets sending false () (readVault cfg : Agent Unit Unit) fun sent _ r =>
      sent = false ∧ r = .ok () := by
    rw [readVault]
    split
    · refine meets_ask_or.2 ⟨rfl, ?_⟩
      rintro r rfl
      exact ⟨rfl, rfl⟩
    · exact ⟨rfl, rfl⟩
  have hevents : Meets sending false () (readRecentEvents cfg : Agent Unit Value) fun sent _ r =>
      sent = false ∧ r = .ok (.arr []) := by
    rw [readRecentEvents]
    split
    · refine meets_ask_or.2 ⟨rfl, ?_⟩
      rintro r rfl
      exact ⟨rfl, rfl⟩
    · exact ⟨rfl, rfl⟩
  refine Meets.bind hvault ?_ fun _ _ _ h => by cases h.2
  rintro _ l _ ⟨rfl, -⟩
  refine Meets.bind hevents ?_ fun _ _ _ h => by cases h.2
  rintro _ l _ ⟨rfl, h⟩
  cases h
  exact ⟨rfl, rfl⟩

/-- What the analyst sees of an open market when it sells some motes. -/
def openMarketSeen (amount : String) : Market where
  selectedTokenOut := .str "sCSPR"
  quote := ⟨.str amount, .str "0%", "CSPR/sCSPR", 0⟩
  portfolio := .obj [("total", .str "0"), ("breakdown", .arr [])]
  signal := .obj []
  x402Proof := none

lemma readMarket_open {input : AnalystInput} :
    Meets sending false () (readMarket input : Agent Unit Market) fun sent _ r =>
      sent = false ∧ r = .ok (openMarketSeen input.revenueEvent.amount) := by
  refine meets_bind.2 (meets_ask_or.2 ⟨rfl, ?_⟩)
  rintro r rfl
  refine meets_ask_bind.2 ⟨rfl, fun now _ => ?_⟩
  refine meets_bind.2 (meets_ask_or.2 ⟨rfl, ?_⟩)
  rintro r rfl
  refine meets_bind.2 (meets_ask_or.2 ⟨rfl, ?_⟩)
  rintro r rfl
  refine meets_ask_bind.2 ⟨rfl, ?_⟩
  rintro r rfl
  exact ⟨rfl, rfl⟩

/-- What the LLM would be shown of an open market. -/
def openContext (event : RevenueEvent) : LLMContext :=
  ⟨.str "0", (openMarketSeen "1000").quote, .obj [], (openMarketSeen "1000").portfolio, event⟩

lemma heuristics_isOk_open :
    (heuristicDecision (openContext ⟨.nan, "", "", "", "", ""⟩)).isOk = true ∧
      (decideHeuristic (openMarketSeen "1000").quote (openMarketSeen "1000").signal
        (openMarketSeen "1000").selectedTokenOut).isOk = true := by
  decide +kernel

lemma heuristicDecision_open (event : RevenueEvent) :
    ∃ d, heuristicDecision (openContext event) = .ok d := by
  -- the heuristic does not look at the event
  exact exists_of_isOk heuristics_isOk_open.1

lemma decideStrategyWithLLM_open (event : RevenueEvent) :
    Meets sending false () (decideStrategyWithLLM (openContext event) : Agent Unit Decision)
      fun sent _ r => sent = false ∧
        ∃ d c rationale, r = .ok d ∧ d.confidence = .num c ∧ d.rationale = .str rationale := by
  obtain ⟨d, hd⟩ := heuristicDecision_open event
  obtain ⟨c, rationale, hc, hrationale, -⟩ := heuristicDecision_fields hd
  refine meets_bind.2 (meets_ask_or.2 ⟨rfl, ?_⟩)
  rintro r rfl
  show Meets sending false () (result (heuristicDecision (openContext event)) >>= _) _
  rw [hd]
  exact ⟨rfl, _, c, rationale, rfl, hc, hrationale⟩

lemma decideStrategy_open {input : AnalystInput} :
    Meets sending false ()
      (decideStrategy cfg input (.str "0") (openMarketSeen "1000") : Agent Unit Decision)
      fun sent _ r => sent = false ∧ ∃ d c, r = .ok d ∧ d.confidence = .num c := by
  rw [decideStrategy]
  split
  · have hfield : (openMarketSeen "1000").signal.field "confidence" = .ok .undefined := rfl
    have hclamp : clamp (Value.undefined.orElse (.num (.finite 0))) (.finite 0) (.finite 100) =
        .ok (.finite 0) := by
      rfl
    obtain ⟨choice, hchoice⟩ := exists_of_isOk heuristics_isOk_open.2
    simp only [meets_result_bind, hchoice, hfield, hclamp, meets_pure]
    exact ⟨trivial, _, _, rfl, rfl⟩
  · refine Meets.bind (decideStrategyWithLLM_open input.revenueEvent) ?_ ?_
    · rintro _ l d ⟨rfl, d', c, rationale, hd, hc, hr⟩
      cases hd
      rw [hr]
      exact ⟨rfl, _, c, rfl, hc⟩
    · rintro _ l e ⟨-, d, c, rationale, hd, -, -⟩
      cases hd

/-- A forced action passes the confidence gate. -/
lemma forcedConfidence_ge {c : Number} : (c.max (.finite 60)).lt (.finite 50) = false := by
  rw [Number.max]
  split
  · rfl
  · next h =>
    split
    · decide
    · next hlt =>
      cases c with
      | nan => rfl
      | infinity b => cases b <;> simp_all [Number.lt]
      | finite q =>
        simp only [Number.lt, decide_eq_true_eq, decide_eq_false_iff_not, not_lt] at hlt ⊢
        linarith

lemma applyForceAction_open {input : AnalystInput} {d : Decision} {c : Number}
    (hamount : input.revenueEvent.amount = "1000") (hforce : input.forceAction = .str "swap")
    (hd : d.confidence = .num c) :
    ∃ d', applyForceAction cfg input (openMarketSeen "1000") d = .ok (d', "1000", "CSPR/sCSPR") ∧
      d'.action = .str "swap" ∧ d'.confidence = .num (c.max (.finite 60)) := by
  have hslip : (applySlippage (openMarketSeen "1000").quote.amountOut (1 / 2)).isOk = true := by
    rfl
  have hconf : forcedConfidence d = .ok (.num (c.max (.finite 60))) := by
    rw [forcedConfidence, hd]
    rfl
  obtain ⟨floor, hfloor⟩ := exists_of_isOk hslip
  rw [applyForceAction, hforce, hamount, hfloor, hconf]
  exact ⟨_, rfl, rfl, rfl⟩

lemma runAnalyst_open {input : AnalystInput} (hamount : input.revenueEvent.amount = "1000")
    (hforce : input.forceAction = .str "swap") :
    Meets sending false () (runAnalyst cfg input : Agent Unit StrategyProposal) fun sent _ r =>
      sent = false ∧ ∃ p c, r = .ok p ∧ p.action = .str "swap" ∧ p.amountIn = "1000" ∧
        p.pair = "CSPR/sCSPR" ∧ p.confidence = .num (Number.max c (.finite 60)) := by
  refine Meets.bind readChain_open ?_ fun _ _ _ h => by cases h.2
  rintro _ l account ⟨rfl, haccount⟩
  cases haccount
  refine meets_ask_bind.2 ⟨rfl, fun cb (hcb : cb.tripped = false) => ?_⟩
  show Meets sending false () (if cb.tripped then _ else _) _
  rw [hcb]
  refine Meets.bind readMarket_open ?_ fun _ _ _ h => by cases h.2
  rintro _ l m ⟨rfl, hm⟩
  rw [hamount] at hm
  cases hm
  refine Meets.bind decideStrategy_open ?_ ?_
  · rintro _ l d ⟨rfl, d', c, hd, hc⟩
    cases hd
    obtain ⟨d', happly, haction, hconf⟩ :=
      @applyForceAction_open cfg _ _ _ hamount hforce hc
    refine meets_result_bind.2 ?_
    rw [happly]
    refine ⟨rfl, _, c, rfl, haction, rfl, ?_, hconf⟩
    rw [toProposal, haction]
    rfl
  · rintro _ l e ⟨-, d, c, hd, -⟩
    cases hd

lemma runExecutor_open {p : StrategyProposal} (haction : p.action = .str "swap")
    (hamount : p.amountIn = "1000") (hpair : p.pair = "CSPR/sCSPR") :
    Meets sending false () (runExecutor cfg p) fun sent _ _ => sent = true := by
  have hhold : p.isHold = false := by
    rw [StrategyProposal.isHold, hamount, hpair]
    decide
  have hbig : Value.bigIntOfString p.amountIn = .ok 1000 := by
    rw [hamount]
    rfl
  have hdex : ∀ keys vars, Meets sending false vars (dexPath p keys) fun sent _ _ => sent = true := by
    intro keys vars
    refine meets_result_bind.2 ?_
    rw [hbig]
    refine meets_ask_bind.2 ⟨rfl, ?_⟩
    rintro r rfl
    refine meets_ask_bind.2 ⟨rfl, ?_⟩
    rintro r rfl
    exact sending_true
  have hsubmit : ∀ keys, Meets sending false () (submitStrategy cfg p keys)
      fun sent _ _ => sent = true := by
    intro keys
    refine meets_bind.2 (meets_block.2 ?_)
    rw [strategyBlock, hhold, haction]
    refine (hdex keys _).mono ?_
    rintro _ vars r rfl
    exact sending_true
  refine meets_ask_bind.2 ⟨rfl, ?_⟩
  rintro keys rfl
  refine Meets.bind (hsubmit _) ?_ fun _ _ _ h => h
  rintro _ l vars rfl
  exact sending_true

lemma runCycle_open {input : CycleInput} (hamount : input.revenueEvent.amount = "1000")
    (hforce : input.forceAction = .str "swap") :
    Meets sending false () (runCycle cfg input) fun sent _ _ => sent = true := by
  refine Meets.bind readTokenBalance_open ?_ fun _ _ _ h => by cases h.2
  rintro _ l _ ⟨rfl, -⟩
  refine Meets.bind (runAnalyst_open hamount hforce) ?_ ?_
  · rintro _ l p ⟨rfl, p', c, hp, haction, hamount, hpair, hconf⟩
    cases hp
    refine meets_result_bind.2 ?_
    rw [hconf]
    show Meets sending false () (if (c.max (.finite 60)).lt (.finite 50) then _ else _) _
    rw [forcedConfidence_ge]
    refine meets_ask_bind.2 ⟨rfl, fun _ _ => ?_⟩
    refine Meets.bind (runExecutor_open haction hamount hpair) ?_ fun _ _ _ h => h
    rintro _ l _ rfl
    rfl
  · rintro _ l e ⟨-, p, c, hp, -⟩
    cases hp

/-- The breaker lets cycles pass. -/
def Passes (cfg : Config) (x : Shared) : Prop :=
  (RiskGuard.checkCircuitBreaker cfg.risk x.now x.risk).tripped = false

/-- An open market gives the answers that are expected of it, as long as the breaker lets the
cycle pass. -/
lemma openAnswer_respond {sent : Bool} {x : Shared} {op : Op} (hx : sent = false → Passes cfg x)
    (hallowed : sending.allows sent op) :
    sending.expects sent op (respond cfg openMarket x op).1 ∧
      (sending.next sent op (respond cfg openMarket x op).1 = false →
        Passes cfg (respond cfg openMarket x op).2) := by
  cases sent with
  | true => exact ⟨trivial, fun h => nomatch h⟩
  | false =>
    have hpasses := hx rfl
    cases op with
    | dateNow => exact ⟨trivial, fun _ => hpasses⟩
    | checkCircuitBreaker => exact ⟨hpasses, fun _ => hpasses⟩
    | recordPositionOpened | recordCustodianDeposit | recordStrategyOutcome
    | updatePortfolioSnapshot | resetCircuitBreaker => cases hallowed
    | _ => exact ⟨rfl, fun _ => hpasses⟩

/-- The part of a scenario in which a swap is forced on an open market. -/
def openSwap : Stage :=
  .job openMarket (forced "swap" "1000")

lemma sends_of_passes (hpasses : Passes cfg w.shared) :
    ∃ e ∈ w.stageEntries cfg openSwap, e.op.sends = true := by
  -- the breaker passes until something is sent, and then the answers do not matter
  have hcode : ((forced "swap" "1000").code cfg).Meets sending false fun sent _ => sent = true :=
    Program.meets_bind.2 ((runCycle_open rfl rfl).mono fun _ _ _ h => h)
  have hanswer : ∀ (sent : Bool) (x : Shared) (op : Op), (sent = false → Passes cfg x) →
      sending.allows sent op → sending.expects sent op (respond cfg openMarket x op).1 ∧
        (sending.next sent op (respond cfg openMarket x op).1 = false →
          Passes cfg (respond cfg openMarket x op).2) :=
    fun _ _ _ => openAnswer_respond
  have hsent := hcode.play hanswer fun _ => hpasses
  rw [Program.foldl_of_latches sending_latches, Bool.false_or, List.any_eq_true] at hsent
  obtain ⟨e, he, hsends⟩ := hsent
  exact ⟨_, List.mem_map_of_mem he, hsends⟩

/-- When the breaker is not stuck, it is enough to wait for the end of the cooldown and to run
one more cycle. -/
lemma recovers_of_not_stuck (hstuck : ¬ Stuck cfg w.shared.risk) : Recovers cfg w := by
  have hstage : ∀ (v : AgentWorld) (st : Stage),
      (∀ answers j, st = .job answers j → j ≠ .reset) →
        ((agentSystem cfg).restrict NoReset).Continues v (v.stage cfg st) := by
    intro v st hreset
    refine continues_stage (fun _ h => nomatch h) ?_ fun _ _ _ h => nomatch h
    intro answers j hst hj
    cases hj
    exact hreset answers _ hst rfl
  have hwait := hstage w (.wait (w.shared.risk.trippedUntil - w.shared.now)) fun _ _ h => nomatch h
  have hswap := hstage (w.stage cfg (.wait (w.shared.risk.trippedUntil - w.shared.now))) openSwap
    (by rintro _ _ ⟨⟩ ⟨⟩)
  refine ⟨_, _, hwait.trans hswap, rfl, sends_of_passes ?_⟩
  rw [Passes, Bool.eq_false_iff, ne_eq, RiskGuard.tripped_iff, not_or]
  refine ⟨?_, hstuck⟩
  show ¬ w.shared.now + (w.shared.risk.trippedUntil - w.shared.now) < w.shared.risk.trippedUntil
  omega

/-- An idle agent can, by time and further cycles alone, get past its breaker and send a
strategy, exactly if neither the drawdown nor the streak trips the breaker. -/
theorem recovers_iff (hidle : Pool.Idle w) :
    Recovers cfg w ↔
      (RiskGuard.getMaxDrawdownPct cfg.risk).lt (RiskGuard.computeDrawdownPct w.shared.risk) = false ∧
        w.shared.risk.revertStreak < RiskGuard.getMaxRevertStreak cfg.risk := by
  have hstuck : ¬ Stuck cfg w.shared.risk ↔
      (RiskGuard.getMaxDrawdownPct cfg.risk).lt (RiskGuard.computeDrawdownPct w.shared.risk) = false ∧
        w.shared.risk.revertStreak < RiskGuard.getMaxRevertStreak cfg.risk := by
    rw [Stuck, not_or, Bool.not_eq_true, not_le]
  rw [← hstuck]
  exact ⟨fun hrec hst => not_recovers_of_stuck hidle hst hrec, recovers_of_not_stuck⟩

end

/-- One failure. -/
def oneFailure : AgentWorld :=
  AgentWorld.after plainConfig [.job outage (forced "swap" "1000")]

/-- Three failures in a row. -/
def threeFailures : AgentWorld :=
  AgentWorld.after plainConfig
    [.job outage (forced "swap" "1000"), .job outage (forced "swap" "1000"),
      .job outage (forced "swap" "1000")]

lemma stuck_threeFailures : Stuck plainConfig threeFailures.shared.risk := by
  decide +kernel

/-- The theorem at work after one failure and after three. -/
theorem recovers_iff_failures :
    Recovers plainConfig oneFailure ∧ ¬ Recovers plainConfig threeFailures := by
  constructor
  · exact (recovers_iff (idle_after plainConfig _)).2 (by decide +kernel)
  · exact not_recovers_of_stuck (idle_after plainConfig _) stuck_threeFailures

/-- Three failures in a row close the breaker for good, if the operator does not reset it. -/
theorem three_failures_absorbing :
    ¬ ∀ (cfg : Config) (w : AgentWorld), (agentSystem cfg).ReachableVia NoReset w → Pool.Idle w →
      Recovers cfg w := by
  intro h
  have hrun : (agentSystem plainConfig).ReachableVia NoReset threeFailures := by
    refine reachableVia_after (fun _ _ hreset => by cases hreset) ?_ fun _ _ _ hreset => by
      cases hreset
    intro w answers j hj hreset
    cases hreset
    simp [forced] at hj
  exact not_recovers_of_stuck (idle_after plainConfig _) stuck_threeFailures
    (h plainConfig threeFailures hrun (idle_after plainConfig _))

end ArwaAgent
