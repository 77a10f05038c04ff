import ArwaAgent.Agent.Cycle
import ArwaAgent.Lib.Pool

/-!
# Runs of the agent

Any number of cycles, with any inputs, run over the state files and the clock, with
their calls interleaved in any order; the operator may reset the breaker at any time.
The calls on the state files are answered by the modules that own them, every other
call is answered by its environment in any way.
-/

namespace ArwaAgent

open Js Effects Effects.Code

/-- What the cycles share: the clock, the two state files, and the value of the portfolio,
which no code reads. -/
structure Shared where
  now : ℕ
  risk : RiskState
  fund : FundState
  portfolioMotes : ℕ

/-- The answer and the effect of a call that stays inside the agent; `none` for the calls that
the environment answers. -/
def Shared.local (cfg : Config) (x : Shared) : (op : Op) → Option (Ans op × Shared)
  | .dateNow => some (x.now, x)
  | .checkCircuitBreaker => some (RiskGuard.checkCircuitBreaker cfg.risk x.now x.risk, x)
  | .recordStrategyOutcome o =>
    some ((), { x with risk := RiskGuard.recordStrategyOutcome cfg.risk x.now x.risk o })
  | .updatePortfolioSnapshot v =>
    match RiskGuard.updatePortfolioSnapshot x.risk v with
    | .ok s => some (.ok (), { x with risk := s })
    | .error e => some (.error e, x)
  | .resetCircuitBreaker => some ((), { x with risk := RiskGuard.resetCircuitBreaker x.risk })
  | .recordPositionOpened => some ((), { x with fund := x.fund.recordPositionOpened x.now })
  | .recordCustodianDeposit motes =>
    match x.fund.recordCustodianDeposit x.now motes with
    | .ok s => some (.ok (), { x with fund := s })
    | .error e => some (.error e, x)
  | .runExecutor _ => some ((), x)
  | _ => none

/-- What may run: a cycle, or the operator's reset. -/
inductive Job
  | cycle (input : CycleInput)
  | reset

/-- The program of a job. -/
def Job.code (cfg : Config) : Job → Program Op Ans Unit
  | .cycle input => (runCycle cfg input).toProgram () >>= fun _ => .done ()
  | .reset => .call .resetCircuitBreaker .done

/-- The agent, starting without state files. -/
def machine (cfg : Config) : Machine Op Ans Shared Job where
  init := fun x => x.risk = RiskGuard.defaultState ∧ x.fund = FundState.defaultState x.now
  code := Job.code cfg
  answer := fun x op r y =>
    match x.local cfg op with
    | some (r', y') => r = r' ∧ y = y'
    | none => y = x  -- and any answer
  drift := fun x y => x.now ≤ y.now ∧ y.risk = x.risk ∧ y.fund = x.fund

/-- A call in the log of the agent. -/
abbrev AgentEntry : Type := Entry Op Ans Shared Job

/-- The states of a run of the agent. -/
abbrev AgentWorld : Type := Pool Op Ans Shared Job

/-- The runs of the agent. -/
def agentSystem (cfg : Config) : TransitionSystem AgentWorld (Pool.Label Op Ans Shared Job) :=
  Pool.system (machine cfg)

/-! ### What a call does to the guard -/

/-- The outcome that a call reports to the guard. -/
def Op.outcome? : Op → Option Outcome
  | .recordStrategyOutcome o => some o
  | _ => none

lemma Op.outcome?_eq_some_iff {op : Op} {o : Outcome} :
    op.outcome? = some o ↔ op = .recordStrategyOutcome o := by
  cases op <;> simp [Op.outcome?]

/-- The portfolio value that a call records, if it is one. -/
def Op.snapshot? : Op → Option ℤ
  | .updatePortfolioSnapshot v => (v.or (.str "0")).toBigInt.toOption
  | _ => none

/-- A call that resets the breaker. -/
def Op.resets : Op → Bool
  | .resetCircuitBreaker => true
  | _ => false

/-- What a call can do to the state of the guard. -/
inductive GuardStep (cfg : Config) (now : ℕ) (s : RiskState) : Op → RiskState → Prop
  | recorded (o : Outcome) :
      GuardStep cfg now s (.recordStrategyOutcome o)
        (RiskGuard.recordStrategyOutcome cfg.risk now s o)
  | snapshot {op : Op} {v : ℤ} (hv : op.snapshot? = some v) :
      GuardStep cfg now s op
        { s with
          lastValueMotes := v
          peakMotes := if s.peakMotes < v then v else s.peakMotes }
  | reset : GuardStep cfg now s .resetCircuitBreaker (RiskGuard.resetCircuitBreaker s)
  | other {op : Op} (ho : op.outcome? = none) (hv : op.snapshot? = none)
      (hr : op.resets = false) : GuardStep cfg now s op s

/-- A call takes no time, and what it does to the guard is one of these steps. -/
lemma guardStep_of_answer {cfg : Config} {x y : Shared} {op : Op} {r : Ans op}
    (h : (machine cfg).answer x op r y) :
    y.now = x.now ∧ GuardStep cfg x.now x.risk op y.risk := by
  have hother : ∀ op : Op, op.outcome? = none → op.snapshot? = none → op.resets = false →
      y.now = x.now → y.risk = x.risk → y.now = x.now ∧ GuardStep cfg x.now x.risk op y.risk :=
    fun op ho hv hr hnow hrisk => ⟨hnow, hrisk ▸ .other ho hv hr⟩
  cases op with
  | recordStrategyOutcome o =>
    obtain ⟨-, rfl⟩ := h
    exact ⟨rfl, .recorded o⟩
  | resetCircuitBreaker =>
    obtain ⟨-, rfl⟩ := h
    exact ⟨rfl, .reset⟩
  | updatePortfolioSnapshot v =>
    simp only [machine, Shared.local, RiskGuard.updatePortfolioSnapshot] at h
    cases hv : (v.or (.str "0")).toBigInt with
    | ok n =>
      rw [hv] at h
      obtain ⟨-, rfl⟩ := h
      exact ⟨rfl, .snapshot (by simp [Op.snapshot?, hv, Except.toOption])⟩
    | error e =>
      rw [hv] at h
      obtain ⟨-, rfl⟩ := h
      exact hother _ rfl (by simp [Op.snapshot?, hv, Except.toOption]) rfl rfl rfl
  | recordCustodianDeposit motes =>
    simp only [machine, Shared.local] at h
    cases hf : x.fund.recordCustodianDeposit x.now motes with
    | ok s =>
      rw [hf] at h
      obtain ⟨-, rfl⟩ := h
      exact hother _ rfl rfl rfl rfl rfl
    | error e =>
      rw [hf] at h
      obtain ⟨-, rfl⟩ := h
      exact hother _ rfl rfl rfl rfl rfl
  | dateNow | checkCircuitBreaker | runExecutor | recordPositionOpened =>
    obtain ⟨-, rfl⟩ := h
    exact hother _ rfl rfl rfl rfl rfl
  | _ =>
    -- answered by the environment
    obtain rfl : y = x := h
    exact hother _ rfl rfl rfl rfl rfl

lemma GuardStep.eq_of_recorded {cfg : Config} {now : ℕ} {s s' : RiskState} {o : Outcome}
    (h : GuardStep cfg now s (.recordStrategyOutcome o) s') :
    s' = RiskGuard.recordStrategyOutcome cfg.risk now s o := by
  cases h with
  | recorded o => rfl
  | snapshot hv => cases hv
  | other ho hv hr => cases ho

end ArwaAgent
