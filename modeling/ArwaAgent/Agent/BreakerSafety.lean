import ArwaAgent.Agent.Protocol
import ArwaAgent.Agent.Scenario

/-!
# The breaker holds for its cooldown

A failure that brings the streak to its maximum closes the breaker for ten minutes: no
later failure or snapshot shortens the time, only the operator's reset does.  A cycle
that checks the breaker in that time gets the hold proposal, and neither submits a
strategy nor pays for a signal, whatever action is forced on it.
-/

namespace ArwaAgent

open Js Effects Effects.Code

/-- The calls that pay for a signal. -/
def Op.pays : Op → Bool
  | .payAndFetchViaX402 _ _ => true
  | _ => false

/-- The calls that check the breaker. -/
def Op.checks : Op → Bool
  | .checkCircuitBreaker => true
  | _ => false

lemma Op.checks_iff {op : Op} : op.checks = true ↔ op = .checkCircuitBreaker := by
  cases op <;> simp [Op.checks]

section

variable {cfg : Config} {w : AgentWorld}

/-! ### The guard between calls -/

/-- At or after `t₀`, the breaker is held until `t`. -/
def HeldUntil (t₀ t : ℕ) (x : Shared) : Prop :=
  t₀ ≤ x.now ∧ t ≤ x.risk.trippedUntil

/-- Nothing but a reset ends the cooldown before its time. -/
lemma GuardStep.trippedUntil {now t₀ : ℕ} {s s' : RiskState} {op : Op}
    (h : GuardStep cfg now s op s') (hnow : t₀ ≤ now)
    (hs : t₀ + RiskGuard.tripCooldownMs ≤ s.trippedUntil) (hop : ¬ op.resets = true) :
    t₀ + RiskGuard.tripCooldownMs ≤ s'.trippedUntil := by
  cases h with
  | recorded o =>
    by_cases ho : o = .success
    · subst ho
      exact hs
    · rw [RiskGuard.recordStrategyOutcome_of_ne ho]
      simp only
      split
      · omega
      · exact hs
  | snapshot hv => exact hs
  | reset => exact absurd rfl hop
  | other ho hv hr => exact hs

/-- From the recording of a tripping failure to a later check, with no reset in between, the
breaker stays held. -/
lemma heldUntil_check (h : (agentSystem cfg).Reachable w) {pre mid post : List AgentEntry}
    {e c : AgentEntry} {o : Outcome} (hlog : w.log = pre ++ e :: (mid ++ c :: post))
    (hrec : e.op = .recordStrategyOutcome o) (ho : o ≠ .success)
    (hmax : RiskGuard.getMaxRevertStreak cfg.risk ≤ e.after.risk.revertStreak)
    (hreset : ∀ d ∈ mid, d.op ≠ .resetCircuitBreaker) :
    HeldUntil e.before.now (e.before.now + RiskGuard.tripCooldownMs) c.before := by
  have hans := Pool.answered h e (by rw [hlog]; simp)
  obtain ⟨hnow, hstep⟩ := guardStep_of_answer hans
  -- the invariant is kept by every call but a reset, and by time
  have hkeep : ∀ (x : Shared) (op : Op) (r : Ans op) (y : Shared),
      HeldUntil e.before.now (e.before.now + RiskGuard.tripCooldownMs) x →
        (machine cfg).answer x op r y → ¬ op.resets = true →
          HeldUntil e.before.now (e.before.now + RiskGuard.tripCooldownMs) y := by
    rintro x op r y ⟨hx, htrip⟩ hans hop
    obtain ⟨hnow, hstep⟩ := guardStep_of_answer hans
    exact ⟨hnow ▸ hx, hstep.trippedUntil hx htrip hop⟩
  have hdrift : ∀ x y : Shared,
      HeldUntil e.before.now (e.before.now + RiskGuard.tripCooldownMs) x →
        (machine cfg).drift x y →
          HeldUntil e.before.now (e.before.now + RiskGuard.tripCooldownMs) y := by
    rintro x y ⟨hx, htrip⟩ ⟨hnow, hrisk, -⟩
    exact ⟨hx.trans hnow, hrisk ▸ htrip⟩
  obtain ⟨u, -, hu, hulog, hushared, -⟩ := Pool.reachable_turn h
    (show w.log = (pre ++ e :: mid) ++ c :: post by rw [hlog]; simp)
  rw [← hushared]
  refine Pool.holds_since hkeep hdrift hu hulog ?_ ?_
  · -- the failure itself starts the cooldown
    rw [hrec] at hstep
    rw [hstep.eq_of_recorded, RiskGuard.recordStrategyOutcome_of_ne ho] at hmax
    refine ⟨hnow.ge, ?_⟩
    rw [hstep.eq_of_recorded, RiskGuard.recordStrategyOutcome_of_ne ho]
    simp only [if_pos hmax, Nat.le_refl]
  · intro d hd hop
    refine hreset d hd ?_
    cases hdop : d.op <;> simp [hdop, Op.resets] at hop ⊢

/-! ### A held cycle -/

/-- A cycle is analysing until it checks the breaker. -/
lemma Phase.eq_analysing_of_next {ph : Phase} {op : Op} {r : Ans op}
    (h : ph.next op r = .analysing) : ph = .analysing := by
  cases ph with
  | analysing => rfl
  | _ => cases op <;> simp [Phase.next] at h

lemma Phase.eq_analysing_of_allows_check {ph : Phase} (h : ph.allows .checkCircuitBreaker) :
    ph = .analysing := by
  cases ph with
  | analysing => rfl
  | operator => cases h
  | _ => exact h.elim

/-- A cycle that was held at its check neither submits nor pays, before or after it. -/
lemma held_cycle_submits_nothing (h : (agentSystem cfg).Reachable w)
    {before after : List AgentEntry} {c : AgentEntry} (hlog : w.log = before ++ c :: after)
    (hcheck : c.op = .checkCircuitBreaker) (hheld : Phase.next .analysing c.op c.ans = .held) :
    ∀ s ∈ w.log, s.who = c.who → s.op.submits = false ∧ s.op.pays = false := by
  have hconf := conforms h
  intro s hs hwho
  obtain ⟨tc, htc, hjobc⟩ := hconf.started c (by rw [hlog]; simp)
  obtain ⟨ts, hts, hjobs⟩ := hconf.started s hs
  have hjob : s.job = c.job := by
    rw [hwho, htc] at hts
    cases hts
    rw [← hjobs, hjobc]
  -- the cycle was analysing when it checked the breaker
  have hphase : Pool.phase cycleProtocol c.job.phase before c.who = .analysing := by
    refine Phase.eq_analysing_of_allows_check ?_
    have hallowed := hconf.allowed before c after hlog
    rw [hcheck] at hallowed
    exact hallowed
  rw [hlog, List.mem_append, List.mem_cons] at hs
  rcases hs with hs | rfl | hs
  · -- before the check it was analysing too
    obtain ⟨pre, mid, rfl⟩ := List.append_of_mem hs
    have hsphase : Pool.phase cycleProtocol c.job.phase pre c.who = .analysing := by
      by_contra hne
      rw [Pool.phase_append] at hphase
      have hkeep : ∀ (ph : Phase) (op : Op) (r : Ans op), ph ≠ .analysing →
          cycleProtocol.next ph op r ≠ .analysing :=
        fun ph op r hph hnext => hph (Phase.eq_analysing_of_next hnext)
      exact Pool.phase_invariant hkeep hne c.who hphase
    have hallowed := hconf.allowed pre s (mid ++ c :: after) (by rw [hlog]; simp)
    rw [hjob, hwho, hsphase] at hallowed
    cases hop : s.op <;> rw [hop] at hallowed
    all_goals first | exact hallowed.elim | exact ⟨rfl, rfl⟩
  · rw [hcheck]
    exact ⟨rfl, rfl⟩
  · -- after the check it is held
    obtain ⟨mid, post, rfl⟩ := List.append_of_mem hs
    have hallowed := hconf.allowed (before ++ c :: mid) s post (by rw [hlog]; simp)
    rw [hjob, hwho, Pool.phase_append, hphase, Pool.phase_cons_self] at hallowed
    have hkeep : ∀ (ph : Phase) (op : Op) (r : Ans op), ph = .held →
        cycleProtocol.next ph op r = .held := by
      rintro _ op r rfl
      rfl
    have hstill : Pool.phase cycleProtocol (Phase.next .analysing c.op c.ans) mid c.who = .held :=
      Pool.phase_invariant hkeep hheld c.who
    change Phase.allows
      (Pool.phase cycleProtocol (Phase.next .analysing c.op c.ans) mid c.who) s.op at hallowed
    rw [hstill] at hallowed
    exact hallowed.elim

/-- If a failure brings the streak to its maximum, then a cycle that checks the breaker less
than ten minutes later, without a reset in between, submits no strategy and pays for no
signal, in any run. -/
theorem tripped_cycle_submits_nothing (h : (agentSystem cfg).Reachable w)
    {pre mid post : List AgentEntry} {e c : AgentEntry} {o : Outcome}
    (hlog : w.log = pre ++ e :: (mid ++ c :: post))
    (hrec : e.op = .recordStrategyOutcome o) (ho : o ≠ .success)
    (hmax : RiskGuard.getMaxRevertStreak cfg.risk ≤ e.after.risk.revertStreak)
    (hcheck : c.op = .checkCircuitBreaker)
    (htime : c.before.now < e.before.now + RiskGuard.tripCooldownMs)
    (hreset : ∀ d ∈ mid, d.op ≠ .resetCircuitBreaker) :
    ∀ s ∈ w.log, s.who = c.who → s.op.submits = false ∧ s.op.pays = false := by
  have hlog' : w.log = (pre ++ e :: mid) ++ c :: post := by rw [hlog]; simp
  obtain ⟨-, hheld⟩ := heldUntil_check h hlog hrec ho hmax hreset
  refine held_cycle_submits_nothing h hlog' hcheck ?_
  have hans := Pool.answered h c (by rw [hlog]; simp)
  have htrip : (RiskGuard.checkCircuitBreaker cfg.risk c.before.now c.before.risk).tripped = true :=
    RiskGuard.tripped_iff.2 (Or.inl (htime.trans_le hheld))
  rw [next_of_check hans hcheck, htrip]
  rfl

end

/-- Three failures in a row, and a cycle with a forced swap. -/
def trippedScenario : AgentWorld :=
  AgentWorld.after plainConfig
    [.job outage (forced "hold" "1000"), .job outage (forced "hold" "1000"),
      .job outage (forced "hold" "1000"), .job openMarket (forced "swap" "1000")]

lemma trippedScenario_length : 49 < trippedScenario.log.length := by decide +kernel

/-- The theorem at work on the fourth cycle of a scenario. -/
theorem tripped_cycle_submits_nothing_fourth_cycle :
    (trippedScenario.log.filter fun s => s.who = 3 ∧ (s.op.submits || s.op.pays)) = [] := by
  have hwho : (trippedScenario.log.get ⟨49, trippedScenario_length⟩).who = 3 := by decide +kernel
  have hnothing : ∀ s ∈ trippedScenario.log,
      s.who = (trippedScenario.log.get ⟨49, trippedScenario_length⟩).who →
        s.op.submits = false ∧ s.op.pays = false := by
    refine tripped_cycle_submits_nothing (reachable_after plainConfig _)
      (eq_append_cons_append_cons trippedScenario.log (show 43 < 49 by decide)
        trippedScenario_length)
      (Op.outcome?_eq_some_iff.1 (?_ : _ = some .failed)) (by decide) ?_ (Op.checks_iff.1 ?_) ?_ ?_
    · decide +kernel
    · decide +kernel
    · decide +kernel
    · decide +kernel
    · intro d hd hop
      have hall : ((trippedScenario.log.take 49).drop 44).all (fun d => !d.op.resets) = true := by
        decide +kernel
      have := List.all_eq_true.1 hall d hd
      rw [hop] at this
      cases this
  rw [List.filter_eq_nil_iff]
  intro s hs h
  obtain ⟨hs3, hdoes⟩ := of_decide_eq_true h
  obtain ⟨hsubmits, hpays⟩ := hnothing s hs (hs3.trans hwho.symm)
  rw [hsubmits, hpays] at hdoes
  cases hdoes

end ArwaAgent
