import ArwaAgent.Agent.Execution
import ArwaAgent.Agent.Scenario

/-!
# Holds count as failures

`skipped`, the outcome of a proposal that the executor holds, is reported to the guard as `failed`.
So the streak counts the strategies that have reverted or failed and the holds since the last
success or reset: it is the number of the former exactly as long as nothing has been held since,
and every hold extends it.

What has become of a strategy is not what the executor reports, but what has become of the
transaction that it has submitted, if it has submitted any.
-/

namespace ArwaAgent

open Js Effects Effects.Code

/-- The executions of a run: how far each task is, and how many strategies, and how many holds, have
ended without a success since the last success or reset. -/
structure Executions where
  of : ℕ → Execution
  failures : ℕ
  holds : ℕ

/-- An execution ends. -/
def Executions.close (x : Executions) : Execution → Executions
  | .running _ true =>
    { x with
      failures := 0
      holds := 0 }
  | .running p false =>
    if p.isHold then { x with holds := x.holds + 1 } else { x with failures := x.failures + 1 }
  | _ => x

section

/- Of every submission, whether its transaction is executed without an error. -/
variable (landed : AgentEntry → Bool)

/-- The executions after a call; an execution ends when its cycle goes on to tell the guard. -/
def Executions.step (x : Executions) (e : AgentEntry) : Executions :=
  let counted := match e.op with
    | .recordStrategyOutcome _ => x.close (x.of e.who)
    | .resetCircuitBreaker =>
      { x with
        failures := 0
        holds := 0 }
    | _ => x
  { counted with of := Function.update x.of e.who ((x.of e.who).next (landed e) e.op e.ans) }

/-- The executions after the calls of a log. -/
def executions (log : List AgentEntry) : Executions :=
  log.foldl (Executions.step landed) ⟨fun _ => .none, 0, 0⟩

/-- What a submission is answered is what becomes of its transaction. -/
def Honest (e : AgentEntry) : Prop :=
  e.op.sends = true → landed e = succeeds e.op e.ans

end

/-- The calls of the executor with a proposal that it holds. -/
def Op.executesHold : Op → Bool
  | .runExecutor p => p.isHold
  | _ => false

section

variable {cfg : Config} {w : AgentWorld} {landed : AgentEntry → Bool} {log : List AgentEntry}
  {x : Executions} {e : AgentEntry}

lemma executions_append (log : List AgentEntry) (e : AgentEntry) :
    executions landed (log ++ [e]) = (executions landed log).step landed e := by
  simp [executions, List.foldl_append]

lemma Execution.next_congr {b : Bool} {y : Execution} {op : Op} {r : Ans op}
    (h : op.sends = true → b = succeeds op r) : y.next b op r = y.next (succeeds op r) op r := by
  cases hsends : op.sends with
  | true => rw [h hsends]
  | false =>
    cases y with
    | running p c => cases op <;> first | rfl | cases hsends
    | called p =>
      cases op with
      | getAgentKeys => cases r <;> rfl
      | _ => rfl
    | _ => cases op <;> rfl

/-- Where the submissions are answered honestly, the calls of a task bring it as far as the monitor
says. -/
lemma of_eq_phase (hhonest : ∀ e ∈ log, Honest landed e) (who : ℕ) :
    (executions landed log).of who = Pool.phase reporting .none log who := by
  induction log using List.reverseRecOn generalizing who with
  | nil => rfl
  | append_singleton log e ih =>
    have hlog := ih fun d hd => hhonest d (List.mem_append_left _ hd)
    have he := hhonest e (List.mem_append_right _ (List.mem_singleton_self e))
    rw [executions_append]
    show Function.update (executions landed log).of e.who _ who = _
    by_cases hwho : e.who = who
    · subst hwho
      rw [Function.update_self, hlog, Pool.phase_append_self, Execution.next_congr he]
      rfl
    · rw [Function.update_of_ne (Ne.symm hwho), hlog, Pool.phase_append_of_ne hwho]

lemma conforms_reporting (h : (agentSystem cfg).Reachable w) :
    Pool.ConformsTo reporting (fun _ => .none) Execution.Over w :=
  Pool.conforms (code_reports cfg) (fun _ _ _ _ _ _ => trivial) h

/-! ### One call -/

/-- A call that the monitor allows does to the streak what it does to the count. -/
lemma GuardStep.revertStreak {now : ℕ} {s s' : RiskState} (h : GuardStep cfg now s e.op s')
    (hallows : reporting.allows (x.of e.who) e.op)
    (hs : s.revertStreak = x.failures + x.holds) :
    s'.revertStreak = (x.step landed e).failures + (x.step landed e).holds := by
  obtain ⟨⟨op, r, before, after⟩, who, job⟩ := e
  simp only at h hallows
  cases h with
  | recorded o =>
    obtain ⟨p, succeeded, hx, hiff, -⟩ := hallows
    show _ = (x.close (x.of who)).failures + (x.close (x.of who)).holds
    rw [hx]
    cases succeeded with
    | true =>
      rw [hiff.2 rfl]
      rfl
    | false =>
      have ho : o ≠ .success := fun h => by cases hiff.1 h
      rw [RiskGuard.recordStrategyOutcome_of_ne ho, Executions.close]
      show s.revertStreak + 1 = _
      rw [hs]
      split
      · exact Nat.add_assoc ..
      · exact Nat.add_right_comm ..
  | snapshot hv => cases op <;> first | exact hs | cases hv
  | reset => rfl
  | other ho hv hr =>
    cases op with
    | recordStrategyOutcome o => cases ho
    | resetCircuitBreaker => cases hr
    | _ => exact hs

/-- The streak counts the strategies that have reverted or failed and the holds. -/
lemma revertStreak_eq (h : (agentSystem cfg).Reachable w)
    (hhonest : ∀ e ∈ w.log, Honest landed e) :
    w.shared.risk.revertStreak =
      (executions landed w.log).failures + (executions landed w.log).holds := by
  induction h with
  | init hinit =>
    obtain ⟨⟨hrisk, -⟩, -, hlog⟩ := hinit
    rw [hrisk, hlog]
    rfl
  | @step u v l hu hok hstep ih =>
    have hv : (agentSystem cfg).Reachable v := .step hu hok hstep
    cases hstep with
    | start j => exact ih hhonest
    | turn htask hans =>
      have hbefore : ∀ d ∈ u.log, Honest landed d :=
        fun d hd => hhonest d (List.mem_append_left _ hd)
      have hallows := (conforms_reporting hv).allowed u.log _ [] rfl
      rw [executions_append]
      refine (guardStep_of_answer hans).2.revertStreak (e := ⟨⟨_, _, _, _⟩, _, _⟩) ?_ (ih hbefore)
      rw [of_eq_phase hbefore]
      exact hallows
    | drift hd =>
      obtain ⟨-, hrisk, -⟩ := hd
      exact hrisk ▸ ih hhonest

/-! ### Runs without holds -/

/-- The proposal of an execution that has not ended. -/
def Execution.proposal? : Execution → Option StrategyProposal
  | called p => some p
  | running p _ => some p
  | _ => Option.none

lemma Execution.proposal?_of_next {b : Bool} {y : Execution} {op : Op} {r : Ans op}
    {p : StrategyProposal} (h : (y.next b op r).proposal? = some p) :
    y.proposal? = some p ∨ op = .runExecutor p := by
  cases y with
  | none =>
    cases op with
    | runExecutor q =>
      cases h
      exact Or.inr rfl
    | _ => cases h
  | called q =>
    cases op with
    | getAgentKeys => cases r <;> exact Or.inl h
    | _ => exact Or.inl h
  | running q c =>
    cases op with
    | recordStrategyOutcome o => cases h
    | _ => exact Or.inl h
  | ended => cases h

/-- A hold is under way. -/
def Execution.holding : Execution → Bool
  | running p false => p.isHold
  | _ => false

lemma Execution.holding_eq_true {x : Execution} (h : x.holding = true) :
    ∃ p, x = running p false ∧ p.isHold = true := by
  cases x with
  | running p landed =>
    cases landed with
    | false => exact ⟨p, rfl, h⟩
    | true => cases h
  | _ => cases h

/-- Without holds, every execution is one of a strategy. -/
lemma holds_eq_zero (h : ∀ e ∈ log, e.op.executesHold = false) :
    (∀ who p, ((executions landed log).of who).proposal? = some p → p.isHold = false) ∧
      (executions landed log).holds = 0 := by
  induction log using List.reverseRecOn with
  | nil =>
    refine ⟨fun who p hp => ?_, rfl⟩
    cases hp
  | append_singleton log e ih =>
    obtain ⟨hof, hholds⟩ := ih fun e he => h e (List.mem_append_left _ he)
    have he := h e (List.mem_append_right _ (List.mem_singleton_self e))
    rw [executions_append]
    generalize executions landed log = x at hof hholds
    refine ⟨fun who p hp => ?_, ?_⟩
    · change (Function.update x.of e.who _ who).proposal? = _ at hp
      by_cases hwho : who = e.who
      · subst hwho
        rw [Function.update_self] at hp
        rcases Execution.proposal?_of_next hp with hp | hop
        · exact hof _ p hp
        · rwa [hop] at he
      · rw [Function.update_of_ne hwho] at hp
        exact hof who p hp
    · -- whoever reports does not execute a hold
      have hclose : (x.close (x.of e.who)).holds = 0 := by
        cases hx : x.of e.who with
        | running p succeeded =>
          cases succeeded with
          | true => rfl
          | false => simp [Executions.close, hof e.who p (by rw [hx]; rfl), hholds]
        | _ => exact hholds
      obtain ⟨⟨op, r, before, after⟩, who, job⟩ := e
      cases op <;> first | exact hholds | exact hclose | rfl

/-- The streak is the number of the strategies that have reverted or failed exactly as long as
nothing has been held since the last success or reset.  Every execution is counted by the time its
cycle ends, and every hold is reported as a failure and extends the streak. -/
theorem streak_counts_holds (h : (agentSystem cfg).Reachable w) (landed : AgentEntry → Bool)
    (hhonest : ∀ e ∈ w.log, Honest landed e) :
    (w.shared.risk.revertStreak = (executions landed w.log).failures ↔
      (executions landed w.log).holds = 0) ∧
    ((∀ e ∈ w.log, e.op.executesHold = false) →
      w.shared.risk.revertStreak = (executions landed w.log).failures) ∧
    (∀ k t, w.tasks[k]? = some t → t.rest = .done () →
      ((executions landed w.log).of k).Over) ∧
    (∀ before e after o p succeeded, w.log = before ++ e :: after →
      e.op = .recordStrategyOutcome o →
      (executions landed before).of e.who = .running p succeeded → p.isHold = true →
        o = .failed ∧ e.after.risk.revertStreak = e.before.risk.revertStreak + 1 ∧
          e.after.risk.totalReverts = e.before.risk.totalReverts + 1 ∧
          e.after.risk.trippedUntil =
            if RiskGuard.getMaxRevertStreak cfg.risk ≤ e.before.risk.revertStreak + 1 then
              e.before.now + RiskGuard.tripCooldownMs
            else e.before.risk.trippedUntil) := by
  have hstreak := revertStreak_eq h hhonest
  refine ⟨by omega, ?_, ?_, ?_⟩
  · intro hnone
    rw [hstreak, (holds_eq_zero hnone).2, Nat.add_zero]
  · intro k t ht hdone
    rw [of_eq_phase hhonest]
    exact (conforms_reporting h).ended ht hdone
  · intro before e after o p succeeded hlog hrec hx hhold
    have hbefore : ∀ d ∈ before, Honest landed d := fun d hd =>
      hhonest d (by rw [hlog]; exact List.mem_append_left _ hd)
    have hallows := (conforms_reporting h).allowed before e after hlog
    rw [← of_eq_phase hbefore, hx, hrec] at hallows
    obtain ⟨q, c, ⟨⟩, -, hfailed⟩ := hallows
    obtain rfl := hfailed hhold
    have hstep := (guardStep_of_answer (Pool.answered h e (by rw [hlog]; simp))).2
    rw [hrec] at hstep
    rw [hstep.eq_of_recorded, RiskGuard.recordStrategyOutcome_of_ne (by decide)]
    exact ⟨rfl, rfl, rfl, rfl⟩

end

/-- Three cycles with a forced hold. -/
def threeHolds : AgentWorld :=
  AgentWorld.after plainConfig
    [.job outage (forced "hold" "1000"), .job outage (forced "hold" "1000"),
      .job outage (forced "hold" "1000")]

lemma threeHolds_length : 43 < threeHolds.log.length := by decide +kernel

/-- One cycle with a forced swap that the market executes. -/
def oneSwap : AgentWorld :=
  AgentWorld.after plainConfig [.job openMarket (forced "swap" "1000")]

/-- The chain on which the submissions are answered truthfully. -/
def asAnswered (e : AgentEntry) : Bool :=
  succeeds e.op e.ans

/-- The theorem at work on three holds, on the report of the third one, and on a swap. -/
theorem streak_counts_holds_three :
    (threeHolds.shared.risk.revertStreak = (executions asAnswered threeHolds.log).failures ↔
      (executions asAnswered threeHolds.log).holds = 0) ∧
    (threeHolds.log.get ⟨43, threeHolds_length⟩).after.risk.revertStreak =
      (threeHolds.log.get ⟨43, threeHolds_length⟩).before.risk.revertStreak + 1 ∧
    oneSwap.shared.risk.revertStreak = (executions asAnswered oneSwap.log).failures := by
  have hholds := streak_counts_holds (reachable_after plainConfig
    [.job outage (forced "hold" "1000"), .job outage (forced "hold" "1000"),
      .job outage (forced "hold" "1000")]) asAnswered fun _ _ _ => rfl
  refine ⟨hholds.1, ?_, ?_⟩
  · have hsplit : threeHolds.log = threeHolds.log.take 43 ++
        threeHolds.log.get ⟨43, threeHolds_length⟩ :: threeHolds.log.drop 44 := by
      rw [List.get_eq_getElem, ← List.drop_eq_getElem_cons, List.take_append_drop]
    have hrec : (threeHolds.log.get ⟨43, threeHolds_length⟩).op.outcome? = some .failed := by
      decide +kernel
    have hholding : ((executions asAnswered (threeHolds.log.take 43)).of
        (threeHolds.log.get ⟨43, threeHolds_length⟩).who).holding = true := by
      decide +kernel
    obtain ⟨p, hp, hhold⟩ := Execution.holding_eq_true hholding
    exact (hholds.2.2.2 _ _ _ _ p false hsplit (Op.outcome?_eq_some_iff.1 hrec) hp hhold).2.1
  · have hnone : oneSwap.log.all (fun e => !e.op.executesHold) = true := by decide +kernel
    refine (streak_counts_holds (reachable_after plainConfig _) asAnswered
      fun _ _ _ => rfl).2.1 fun e he => ?_
    simpa using List.all_eq_true.1 hnone e he

/-- The streak does not always count the strategies that have reverted or failed: three holds bring
it to three and trip the breaker, although nothing has been submitted. -/
theorem holds_trip_breaker :
    ¬ ∀ (cfg : Config) (w : AgentWorld) (landed : AgentEntry → Bool),
      (agentSystem cfg).Reachable w → (∀ e ∈ w.log, Honest landed e) →
        w.shared.risk.revertStreak = (executions landed w.log).failures := by
  intro h
  have hstreak := h plainConfig threeHolds asAnswered (reachable_after plainConfig _)
    fun _ _ _ => rfl
  exact absurd hstreak (by decide +kernel)

end ArwaAgent
