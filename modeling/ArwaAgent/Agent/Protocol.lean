import ArwaAgent.Agent.System
import ArwaAgent.Lib.Returns

/-!
# The protocol of a cycle

`cycleProtocol` is the order in which a cycle makes its calls: nothing but reads until
the breaker has been checked, nothing at all after it has held the cycle, no call that
submits anything for a hold, and one report to the guard per execution.
`runCycle_meets` shows that a cycle keeps to it, whatever it is answered, and
`conforms` that every cycle of every run does.
-/

namespace ArwaAgent

open Js Effects Effects.Code

/-- How far a cycle is; `executing` and what follows remember the proposal. -/
inductive Phase
  | operator
  | analysing
  | held
  | cleared
  | executing (p : StrategyProposal)
  | recorded (p : StrategyProposal) (o : Outcome)
  | logged

/-- The calls that submit a strategy. -/
def Op.submits : Op → Bool
  | .delegateToValidator _ _ | .buildUnsignedDeploy _ | .signAndSubmitSwap _ => true
  | _ => false

/-- Those of them that send a transaction of the strategy to a node. -/
def Op.sends : Op → Bool
  | .delegateToValidator _ _ | .signAndSubmitSwap _ => true
  | _ => false

lemma Op.submits_of_sends {op : Op} (h : op.sends = true) : op.submits = true := by
  cases op <;> first | rfl | cases h

/-- The calls that a cycle may make in a phase. -/
def Phase.allows : Phase → Op → Prop
  | operator, op => op = .resetCircuitBreaker
  | analysing, op => match op with
    | .getAgentKeys | .getAgentCep18Balance _ | .getAccountInfo _ | .getVaultOverview
    | .getRecentRevenueEvents _ _ | .checkCircuitBreaker => True
    | _ => False
  | held, _ => False
  | cleared, op => match op with
    | .dateNow | .selectBestPair _ | .getQuote _ _ _ | .getPortfolioValue _
    | .payAndFetchViaX402 _ _ | .callLLM _ | .runExecutor _ => True
    | _ => False
  | executing p, op => match op with
    | .dateNow | .getAgentKeys => True
    | .delegateToValidator _ _ | .buildUnsignedDeploy _ | .signAndSubmitSwap _
    | .recordStrategyExecution _ _ _ _ | .recordPositionOpened | .recordCustodianDeposit _ =>
      p.isHold = false
    | .recordStrategyOutcome o => p.isHold = true → o = .failed
    | _ => False
  | recorded p o, op => match op with
    | .updatePortfolioSnapshot v => o = .success ∧ v = p.snapshotValue
    | .logStrategyToVault _ => True
    | _ => False
  | logged, _ => False

/-- The phase after a call. -/
def Phase.next : Phase → (op : Op) → Ans op → Phase
  | analysing, .checkCircuitBreaker, r => if r.tripped then held else cleared
  | cleared, .runExecutor p, _ | executing _, .runExecutor p, _ | recorded _ _, .runExecutor p, _ =>
    executing p
  | executing p, .recordStrategyOutcome o, _ => recorded p o
  | recorded _ _, .logStrategyToVault _, _ => logged
  | ph, _, _ => ph

/-- The order of the calls of a cycle. -/
def cycleProtocol : Monitor Op Ans Phase where
  allows := Phase.allows
  next := Phase.next

/-- The phase in which a job starts. -/
def Job.phase : Job → Phase
  | .cycle _ => .analysing
  | .reset => .operator

section

variable {cfg : Config} {L : Type}

lemma stays_ask {α : Type} {ph : Phase} {op : Op} {read : Ans op → Except Error α}
    (hallows : ph.allows op) (hnext : ∀ r, ph.next op r = ph) :
    Stays cycleProtocol ph (ask op read : Agent L α) :=
  Stays.ask hallows hnext

lemma stays_ask_or {α : Type} {ph : Phase} {op : Op} {read : Ans op → Except Error α} {a : α}
    (hallows : ph.allows op) (hnext : ∀ r, ph.next op r = ph) :
    Stays cycleProtocol ph (tryCatch (ask op read) fun _ => pure a : Agent L α) :=
  Stays.tryCatch (stays_ask hallows hnext) fun _ => Stays.pure a

lemma readTokenBalance_stays : Stays cycleProtocol .analysing readTokenBalance := by
  refine Stays.tryCatch ?_ fun e => Stays.pure _
  refine Stays.bind (stays_ask trivial fun r => rfl) fun keys => ?_
  refine Stays.bind (stays_ask trivial fun r => rfl) fun r => ?_
  exact Stays.bind (Stays.result _) fun display => Stays.pure _

lemma readChain_stays : Stays cycleProtocol .analysing (readChain cfg : Agent L Value) := by
  refine Stays.bind (stays_ask trivial fun r => rfl) fun keys => ?_
  refine Stays.bind (stays_ask_or trivial fun r => rfl) fun account => ?_
  refine Stays.bind ?_ fun _ => Stays.bind ?_ fun recent =>
    Stays.bind (Stays.result _) fun _ => Stays.pure _
  · rw [readVault]
    split
    · exact stays_ask_or trivial fun r => rfl
    · exact Stays.pure _
  · rw [readRecentEvents]
    split
    · exact stays_ask_or trivial fun r => rfl
    · exact Stays.pure _

lemma readMarket_stays {input : AnalystInput} :
    Stays cycleProtocol .cleared (readMarket input : Agent L Market) := by
  refine Stays.bind (stays_ask_or trivial fun r => rfl) fun sel => ?_
  refine Stays.bind (stays_ask trivial fun r => rfl) fun now => ?_
  refine Stays.bind (stays_ask_or trivial fun r => rfl) fun quote => ?_
  refine Stays.bind (stays_ask_or trivial fun r => rfl) fun portfolio => ?_
  refine Stays.bind (stays_ask trivial fun r => rfl) fun paid => ?_
  refine Stays.bind (Stays.result _) fun forecast => Stays.bind (Stays.result _) fun _ => ?_
  exact Stays.bind (Stays.result _) fun confidence => Stays.bind (Stays.result _) fun _ =>
    Stays.pure _

lemma decideStrategy_stays {input : AnalystInput} {account : Value} {m : Market} :
    Stays cycleProtocol .cleared (decideStrategy cfg input account m : Agent L Decision) := by
  rw [decideStrategy]
  split
  · exact Stays.bind (Stays.result _) fun h => Stays.bind (Stays.result _) fun confidence =>
      Stays.bind (Stays.result _) fun c => Stays.pure _
  · refine Stays.bind ?_ fun d => Stays.bind (Stays.result _) fun _ => Stays.pure _
    exact Stays.bind (stays_ask_or trivial fun r => rfl) fun out =>
      Stays.bind (Stays.result _) fun d => Stays.pure _

/-- The analyst ends in the phase that the breaker has put it into: a held cycle returns the
hold proposal, and nothing else does before the check. -/
lemma runAnalyst_meets {input : AnalystInput} (l : L) :
    Meets cycleProtocol .analysing l (runAnalyst cfg input : Agent L StrategyProposal)
      fun ph _ r => match ph with
        | .held => ∃ reason, r = .ok (buildHoldProposal input.revenueEvent reason)
        | .cleared => True
        | .analysing => ∃ e, r = .error e
        | _ => False := by
  refine Stays.meets_bind readChain_stays (fun l account => ?_) fun l e => ⟨e, rfl⟩
  refine meets_ask_bind.2 ⟨trivial, fun cb _ => ?_⟩
  show Meets cycleProtocol (if cb.tripped then .held else .cleared) l
    (if cb.tripped then _ else _) _
  cases cb.tripped with
  | true => exact ⟨cb.reason, rfl⟩
  | false =>
    refine Stays.meets_bind readMarket_stays (fun l m => ?_) fun l e => trivial
    refine Stays.meets_bind decideStrategy_stays (fun l d => ?_) fun l e => trivial
    exact Stays.meets_bind (Stays.result _) (fun l r => trivial) fun l e => trivial

/-! ### The executor -/

section

variable {p : StrategyProposal} {keys : AgentKeys}

lemma openPosition_stays {kind target : String} {openedTx : Value} (hp : p.isHold = false) :
    Stays cycleProtocol (.executing p) (openPosition p kind target openedTx) := by
  refine Stays.tryCatch ?_ fun e => Stays.pure _
  refine Stays.bind (stays_ask hp fun r => rfl) fun tx => ?_
  exact Stays.bind (stays_ask hp fun r => rfl) fun _ => stays_ask hp fun r => rfl

lemma stakePath_stays (hp : p.isHold = false) :
    Stays cycleProtocol (.executing p) (stakePath cfg p) := by
  refine Stays.bind (Stays.result _) fun amountBig => ?_
  split
  · exact Stays.throw _
  · refine Stays.bind (stays_ask hp fun r => rfl) fun r => ?_
    refine Stays.bind (fun l => rfl) fun _ => Stays.bind ?_ fun _ => Stays.throw _
    rw [openStakePosition]
    split
    · exact openPosition_stays hp
    · exact Stays.pure _

lemma dexPath_stays (hp : p.isHold = false) :
    Stays cycleProtocol (.executing p) (dexPath p keys) := by
  refine Stays.bind (Stays.result _) fun amount => ?_
  refine Stays.bind (stays_ask hp fun r => rfl) fun unsigned => ?_
  refine Stays.bind (stays_ask hp fun r => rfl) fun r => ?_
  refine Stays.bind (fun l => rfl) fun _ => ?_
  split
  · exact openPosition_stays hp
  · exact Stays.pure _

/-- A hold leaves the `try` block by its own exception, with nothing submitted. -/
lemma strategyBlock_meets (vars : ExecutorVars) :
    Meets cycleProtocol (.executing p) vars (strategyBlock cfg p keys) fun ph vars r =>
      ph = .executing p ∧
        (p.isHold = true → r = .error ⟨"hold-short-circuit"⟩ ∧ vars.outcome = .skipped) := by
  rw [strategyBlock]
  split
  · exact ⟨trivial, fun now _ => ⟨rfl, fun _ => ⟨rfl, rfl⟩⟩⟩
  · next hp =>
    rw [Bool.not_eq_true] at hp
    have hstays : Stays cycleProtocol (.executing p)
        (if p.action.is "stake" then stakePath cfg p else dexPath p keys) := by
      split
      · exact stakePath_stays hp
      · exact dexPath_stays hp
    refine (hstays vars).mono fun ph vars r hph => ⟨hph, fun hhold => ?_⟩
    rw [hp] at hhold
    cases hhold

/-- Every proposal gets an outcome, and the outcome of a hold is `skipped`. -/
lemma submitStrategy_meets (l : Unit) :
    Meets cycleProtocol (.executing p) l (submitStrategy cfg p keys) fun ph _ r =>
      ph = .executing p ∧
        ∃ vars, r = .ok vars ∧ (p.isHold = true → vars.outcome = .skipped) := by
  refine meets_bind.2 (meets_block.2 ((strategyBlock_meets _).mono ?_))
  rintro ph vars r ⟨rfl, hhold⟩
  cases r with
  | ok _ => exact ⟨rfl, vars, rfl, fun hp => (hhold hp).2⟩
  | error e =>
    show Meets cycleProtocol (.executing p) l (if _ then pure vars else _) _
    split
    · exact ⟨rfl, vars, rfl, fun hp => (hhold hp).2⟩
    · next he =>
      -- any other exception is not that of a hold
      refine meets_ask_bind.2 ⟨trivial, fun now _ => ⟨rfl, _, rfl, fun hp => ?_⟩⟩
      obtain ⟨herr, -⟩ := hhold hp
      cases herr
      exact absurd (Or.inr rfl) he

/-- The guard is told once, and a hold is reported as a failure. -/
lemma updateRiskGuard_meets {outcome : LocalOutcome} (l : Unit)
    (hhold : p.isHold = true → outcome = .skipped) :
    Meets cycleProtocol (.executing p) l (updateRiskGuard p outcome) fun ph _ r =>
      ph = .recorded p outcome.reported ∧ r = .ok () := by
  refine meets_tryCatch.2 (meets_ask_bind.2 ⟨?_, fun _ _ => ?_⟩)
  · intro hp
    rw [hhold hp]
    rfl
  · show Meets cycleProtocol (.recorded p outcome.reported) l (if _ then _ else _) _
    split
    · next ho =>
      refine meets_ask.2 ⟨⟨by rw [ho]; rfl, rfl⟩, fun r _ => ?_⟩
      cases r with
      | ok _ => exact ⟨rfl, rfl⟩
      | error e => exact ⟨rfl, rfl⟩
    · exact ⟨rfl, rfl⟩

/-- Past the audit log, the executor has made its entry. -/
lemma logDecision_meets {vars : ExecutorVars} {o : Outcome} (l : Unit) :
    Returns cycleProtocol (.recorded p o) l (logDecision p keys vars) fun ph _ _ =>
      ph = .logged := by
  refine Returns.stays_bind (Stays.result _) fun l settle => ?_
  refine meets_tryCatch.2 (meets_ask.2 ⟨trivial, fun r _ => ?_⟩)
  cases r with
  | ok res => exact fun _ _ => rfl
  | error e => exact fun _ _ => rfl

lemma runExecutor_meets (l : Unit) :
    Returns cycleProtocol (.executing p) l (runExecutor cfg p) fun ph _ _ => ph = .logged := by
  have hkeys : Stays cycleProtocol (.executing p) (ask .getAgentKeys id : Agent Unit AgentKeys) :=
    stays_ask trivial fun r => rfl
  refine Returns.stays_bind hkeys fun l keys => ?_
  refine Returns.meets_bind (submitStrategy_meets l) ?_
  rintro _ l vars ⟨rfl, vars', hvars, hhold⟩
  cases hvars
  refine Returns.meets_bind (updateRiskGuard_meets l hhold) ?_
  rintro _ l _ ⟨rfl, -⟩
  refine Returns.bind (logDecision_meets l) fun ph l vaultResult hlogged => ?_
  exact Returns.pure hlogged

end

/-! ### The whole cycle -/

/-- A cycle follows the protocol, whatever it is answered; one that returns has made its entry
in the audit log exactly when it has run the executor. -/
theorem runCycle_meets (cfg : Config) (input : CycleInput) :
    Returns cycleProtocol .analysing () (runCycle cfg input) fun ph _ res =>
      ph = .logged ↔ res.execution.isSome = true := by
  refine Returns.stays_bind readTokenBalance_stays fun l tokenBalance => ?_
  refine Returns.meets_bind (runAnalyst_meets l) ?_
  intro ph l proposal hph
  cases ph with
  | held =>
    -- the hold proposal has confidence 0, so the gate stops it
    obtain ⟨reason, hr⟩ := hph
    cases hr
    have hconf : (buildHoldProposal input.revenueEvent reason).confidence.toNumber =
        .ok (.finite 0) := rfl
    rw [hconf]
    refine Returns.result_bind fun c hc => ?_
    obtain rfl : .finite 0 = c := Except.ok.inj hc
    have hlow : (Number.finite 0).lt (.finite 50) = true := by decide
    rw [if_pos hlow]
    exact Returns.pure (by simp)
  | cleared =>
    refine Returns.result_bind fun confidence _ => ?_
    split
    · exact Returns.pure (by simp)
    · refine Returns.ask_bind trivial fun _ _ _ _ => ?_
      refine Returns.bind (runExecutor_meets l) fun ph l execution hlogged => ?_
      exact Returns.pure (by simp [hlogged])
  | analysing =>
    obtain ⟨e, he⟩ := hph
    cases he
  | operator => exact hph.elim
  | executing p => exact hph.elim
  | recorded p o => exact hph.elim
  | logged => exact hph.elim

lemma next_of_check {x y : Shared} {op : Op} {r : Ans op} (h : (machine cfg).answer x op r y)
    (hop : op = .checkCircuitBreaker) :
    Phase.next .analysing op r =
      if (RiskGuard.checkCircuitBreaker cfg.risk x.now x.risk).tripped then .held else .cleared := by
  subst hop
  obtain ⟨rfl, -⟩ := h
  rfl

/-- Every job follows the protocol from its first phase on. -/
lemma code_meets (cfg : Config) (j : Job) :
    (j.code cfg).Meets cycleProtocol j.phase fun _ _ => True := by
  cases j with
  | cycle input =>
    exact Program.meets_bind.2 (Meets.mono (runCycle_meets cfg input) fun _ _ _ _ => trivial)
  | reset => exact ⟨rfl, fun _ _ => trivial⟩

/-- In every run, every cycle follows the protocol. -/
theorem conforms {cfg : Config} {w : AgentWorld} (h : (agentSystem cfg).Reachable w) :
    Pool.Conforms cycleProtocol Job.phase w :=
  Pool.conforms (code_meets cfg) (fun _ _ _ _ _ _ => trivial) h

end

end ArwaAgent
