import ArwaAgent.Agent.Proposal
import ArwaAgent.Agent.Protocol

/-!
# How a strategy ends

An execution begins when the executor has read its keys, and its submission is answered with a
success, or otherwise, or not at all.  The executor keeps this in a local variable of four values,
and reports one of three: `reporting` says that the report is a success exactly if a submission has
been answered so, that a hold is reported as failed, and that no execution is reported twice.
`code_reports` adds that none is left unreported when its cycle ends.
-/

namespace ArwaAgent

open Js Effects Effects.Code

/-- A submission is answered with a success. -/
def succeeds : (op : Op) → Ans op → Bool
  | .delegateToValidator _ _, .ok r => decide (r.outcome = .success)
  | .signAndSubmitSwap _, .ok r => r.success
  | _, _ => false

/-- How far a task is with its strategy: the executor has been called; it has its keys, and has
submitted a transaction with success or has not; the outcome is known. -/
inductive Execution
  | none
  | called (p : StrategyProposal)
  | running (p : StrategyProposal) (landed : Bool)
  | ended

namespace Execution

/-- The execution after a call; of a submission, `landed` says whether it is a success. -/
def next (landed : Bool) : Execution → (op : Op) → Ans op → Execution
  | none, .runExecutor p, _ => called p
  | called p, .getAgentKeys, .ok _ => running p false
  | running _ _, .recordStrategyOutcome _, _ => ended
  | running p b, op, _ => running p (b || op.sends && landed)
  | x, _, _ => x

/-- No execution is under way. -/
def Over (x : Execution) : Prop :=
  ∀ p landed, x ≠ running p landed

end Execution

/-- An executor is called once at most, and reports how its strategy has ended. -/
def reporting : Monitor Op Ans Execution where
  allows := fun x op => match op with
    | .runExecutor _ => x = .none
    | .recordStrategyOutcome o => ∃ p landed, x = .running p landed ∧
        (o = .success ↔ landed = true) ∧ (p.isHold = true → o = .failed)
    | _ => True
  next := fun x op r => x.next (succeeds op r) op r

section

variable {cfg : Config} {p : StrategyProposal} {keys : AgentKeys} {landed : Bool} {L α : Type}

/-! ### The calls beside the strategy -/

/-- The calls that neither begin an execution, nor submit, nor report. -/
def Op.aside : Op → Bool
  | .runExecutor _ | .recordStrategyOutcome _ | .delegateToValidator _ _ | .signAndSubmitSwap _ =>
    false
  | _ => true

lemma aside_reports {op : Op} (hop : op.aside = true) (r : Ans op) :
    reporting.allows (.running p landed) op ∧
      reporting.next (.running p landed) op r = .running p landed := by
  have hkept : Execution.running p (landed || false && succeeds op r) = .running p landed := by
    rw [Bool.false_and, Bool.or_false]
  cases op <;> first | exact ⟨trivial, hkept⟩ | cases hop

/-- Before the executor is called, and after the report, nothing but a call of it is noticed. -/
lemma stays_of_not_running {x : Execution} (hx : x = .none ∨ x = .ended) {op : Op}
    (hop : op.aside = true) : reporting.allows x op ∧ ∀ r, reporting.next x op r = x := by
  rcases hx with rfl | rfl <;>
    cases op <;> first | exact ⟨trivial, fun _ => rfl⟩ | cases hop

lemma aside_stays {x : Execution} {op : Op} {read : Ans op → Except Error α}
    (hx : x = .none ∨ x = .ended) (hop : op.aside = true) :
    Stays reporting x (ask op read : Agent L α) := by
  obtain ⟨hallows, hnext⟩ := stays_of_not_running hx hop
  exact Stays.ask hallows hnext

lemma readTokenBalance_reports : Stays reporting .none readTokenBalance := by
  refine Stays.tryCatch (Stays.bind (aside_stays (.inl rfl) rfl) fun keys => ?_)
    fun e => Stays.pure _
  exact Stays.bind (aside_stays (.inl rfl) rfl) fun r =>
    Stays.bind (Stays.result _) fun display => Stays.pure _

lemma runAnalyst_reports {input : AnalystInput} :
    Stays reporting .none (runAnalyst cfg input : Agent L StrategyProposal) := by
  refine runAnalyst_only.stays fun op hop => stays_of_not_running (.inl rfl) ?_
  cases op <;> first | rfl | exact hop.elim

/-! ### The executor -/

/-- The message of an exception that leaves the local variables as they are. -/
def handled (e : Error) : Prop :=
  e.message = "stake-handled" ∨ e.message = "hold-short-circuit"

/-- How the block of an executor may end: the local variable is `success` exactly if a submission
has been one, an exception that is not handled comes without a success, and a hold is skipped. -/
structure EndsWith (p : StrategyProposal) (x : Execution) (vars : ExecutorVars)
    (r : Except Error Unit) : Prop where
  running : ∃ landed, x = .running p landed ∧ (vars.outcome = .success ↔ landed = true) ∧
    ∀ e, r = .error e → ¬ handled e → landed = false
  hold : p.isHold = true → vars.outcome = .skipped ∧ ∃ e, r = .error e ∧ handled e

lemma endsWith_failed {vars : ExecutorVars} {r : Except Error Unit} (hhold : p.isHold = false)
    (hvars : vars.outcome ≠ .success) : EndsWith p (.running p false) vars r where
  running := ⟨false, rfl, by simp [hvars], fun _ _ _ => rfl⟩
  hold := fun h => absurd h (by simp [hhold])

/-- After a submission the block ends as the submission has been answered. -/
lemma endsWith_answered {vars : ExecutorVars} {r : Except Error Unit} (hhold : p.isHold = false)
    (hvars : vars.outcome = .success ↔ landed = true) (hr : ∀ e, r = .error e → handled e) :
    EndsWith p (.running p landed) vars r where
  running := ⟨landed, rfl, hvars, fun e he hnot => absurd (hr e he) hnot⟩
  hold := fun h => absurd h (by simp [hhold])

lemma openPosition_reports {kind target : String} {openedTx : Value} {l : ExecutorVars}
    {q : StrategyProposal} :
    Meets reporting (.running p landed) l (openPosition q kind target openedTx)
      fun x l' r => x = .running p landed ∧ l' = l ∧ r = .ok () := by
  refine meets_tryCatch.2 (meets_ask_bind.2 ⟨trivial, fun r _ => ?_⟩)
  rw [(aside_reports rfl r).2]
  cases r with
  | error e => exact ⟨rfl, rfl, rfl⟩
  | ok tx =>
    refine meets_ask_bind.2 ⟨trivial, fun r _ => ?_⟩
    rw [(aside_reports rfl r).2]
    refine meets_ask.2 ⟨trivial, fun r _ => ?_⟩
    rw [(aside_reports rfl r).2]
    cases r with
    | error e => exact ⟨rfl, rfl, rfl⟩
    | ok _ => exact ⟨rfl, rfl, rfl⟩

lemma openStakePosition_reports {l : ExecutorVars} {q : StrategyProposal} {r : ExecutionResult} :
    Meets reporting (.running p landed) l (openStakePosition q r)
      fun x l' r => x = .running p landed ∧ l' = l ∧ r = .ok () := by
  rw [openStakePosition]
  split
  · exact openPosition_reports
  · exact ⟨rfl, rfl, rfl⟩

lemma holdPath_reports {vars : ExecutorVars} :
    Meets reporting (.running p false) vars holdPath (EndsWith p) := by
  refine meets_ask_bind.2 ⟨trivial, fun now _ => ?_⟩
  have hended : EndsWith p (.running p false) ⟨.str ("hold-" ++ base36 now), .skipped⟩
      (.error ⟨"hold-short-circuit"⟩) :=
    ⟨⟨false, rfl, by simp, fun _ _ _ => rfl⟩, fun _ => ⟨rfl, _, rfl, Or.inr rfl⟩⟩
  exact hended

lemma stakePath_reports {vars : ExecutorVars} (hhold : p.isHold = false)
    (hvars : vars.outcome = .failed) :
    Meets reporting (.running p false) vars (stakePath cfg p) (EndsWith p) := by
  have hfailed : ∀ e, EndsWith p (.running p false) vars (.error e) :=
    fun e => endsWith_failed hhold (by simp [hvars])
  refine Meets.result_bind (fun n hn => ?_) hfailed
  split
  · exact hfailed _
  · refine meets_ask_bind.2 ⟨trivial, fun r _ => ?_⟩
    cases r with
    | error e => exact hfailed e
    | ok r =>
      refine meets_bind.2 (meets_set.2 ?_)
      show Meets reporting (.running p (decide (r.outcome = .success))) _
        (openStakePosition p r >>= fun _ => throw ⟨"stake-handled"⟩) _
      refine Meets.bind openStakePosition_reports ?_ ?_
      · rintro _ _ _ ⟨rfl, rfl, -⟩
        refine endsWith_answered hhold ?_ fun e he => ?_
        · by_cases hr : r.outcome = .success <;> simp [hr]
        · cases he
          exact Or.inl rfl
      · rintro x l e ⟨-, -, he⟩
        cases he

lemma dexPath_reports {vars : ExecutorVars} (hhold : p.isHold = false)
    (hvars : vars.outcome = .failed) :
    Meets reporting (.running p false) vars (dexPath p keys) (EndsWith p) := by
  have hfailed : ∀ e, EndsWith p (.running p false) vars (.error e) :=
    fun e => endsWith_failed hhold (by simp [hvars])
  refine Meets.result_bind (fun n hn => ?_) hfailed
  refine meets_ask_bind.2 ⟨trivial, fun r _ => ?_⟩
  rw [(aside_reports rfl r).2]
  cases r with
  | error e => exact hfailed e
  | ok unsigned =>
    refine meets_ask_bind.2 ⟨trivial, fun r _ => ?_⟩
    cases r with
    | error e => exact hfailed e
    | ok r =>
      refine meets_bind.2 (meets_set.2 ?_)
      show Meets reporting (.running p r.success)
        (ExecutorVars.mk r.deployHash (if r.success then .success else .reverted))
        (if r.success then _ else _) _
      cases r.success with
      | true =>
        refine openPosition_reports.mono ?_
        rintro _ _ _ ⟨rfl, rfl, rfl⟩
        exact endsWith_answered hhold (by simp) fun e he => by cases he
      | false => exact endsWith_answered hhold (by simp) fun e he => by cases he

/-- The outcome of an executor is a success exactly if a submission has been one. -/
lemma submitStrategy_reports (l : Unit) :
    Meets reporting (.running p false) l (submitStrategy cfg p keys) fun x _ r =>
      ∃ vars landed, r = .ok vars ∧ x = .running p landed ∧
        (vars.outcome = .success ↔ landed = true) ∧
          (p.isHold = true → vars.outcome.reported = .failed) := by
  have hblock : Meets reporting (.running p false) ⟨.str "", .failed⟩ (strategyBlock cfg p keys)
      (EndsWith p) := by
    rw [strategyBlock]
    split
    · exact holdPath_reports
    next hhold =>
      rw [Bool.not_eq_true] at hhold
      split
      · exact stakePath_reports hhold rfl
      · exact dexPath_reports hhold rfl
  refine meets_bind.2 (meets_block.2 (hblock.mono fun x vars r hends => ?_))
  obtain ⟨⟨landed, rfl, houtcome, hthrown⟩, hhold⟩ := hends
  have hreported : p.isHold = true → vars.outcome.reported = .failed := by
    intro h
    rw [(hhold h).1]
    rfl
  cases r with
  | ok _ => exact ⟨vars, landed, rfl, rfl, houtcome, hreported⟩
  | error e =>
    show Meets reporting (.running p landed) l (if _ then pure vars else _) _
    split
    · exact ⟨vars, landed, rfl, rfl, houtcome, hreported⟩
    next he =>
      obtain rfl := hthrown e rfl he
      refine meets_ask_bind.2 ⟨trivial, fun now _ => ?_⟩
      exact ⟨_, false, rfl, rfl, by simp, fun _ => rfl⟩

/-- Every execution is reported before its executor ends. -/
lemma runExecutor_reports (l : Unit) :
    Meets reporting (.called p) l (runExecutor cfg p) fun x _ _ => x.Over := by
  refine meets_ask_bind.2 ⟨trivial, fun r _ => ?_⟩
  cases r with
  | error e => exact fun _ _ h => by cases h
  | ok keys =>
    have hover : Execution.ended.Over := fun _ _ h => by cases h
    refine Meets.bind (submitStrategy_reports l) ?_ ?_
    · rintro x l vars ⟨_, landed, ⟨⟩, rfl, houtcome, hhold⟩
      have hguard : Meets reporting (.running p landed) l (updateRiskGuard p vars.outcome)
          fun x _ _ => x = .ended := by
        refine meets_tryCatch.2 (meets_ask_bind.2 ⟨⟨p, landed, rfl, ?_, hhold⟩, fun _ _ => ?_⟩)
        · rw [← houtcome]
          cases vars.outcome <;> simp [LocalOutcome.reported]
        · show Meets reporting .ended l (if _ then _ else _) _
          split
          · refine (aside_stays (.inr rfl) rfl l).mono fun x l r hx => ?_
            subst hx
            cases r <;> rfl
          · rfl
      refine Meets.bind hguard ?_ fun x _ _ hx => hx ▸ hover
      rintro _ l _ rfl
      have hlog : Stays reporting .ended (logDecision p keys vars >>= fun vaultResult =>
          pure (ExecutorResult.mk vars.deployHash vaultResult p)) := by
        refine Stays.bind (Stays.bind (Stays.result _) fun settle => ?_) fun _ => Stays.pure _
        exact Stays.tryCatch (aside_stays (.inr rfl) rfl) fun e => Stays.pure _
      exact (hlog l).mono fun x _ _ hx => hx ▸ hover
    · rintro x l e ⟨_, _, h, -⟩
      cases h

/-- Every job reports the executions it begins. -/
lemma code_reports (cfg : Config) (j : Job) :
    (j.code cfg).Meets reporting .none fun x _ => x.Over := by
  have hover : Execution.none.Over := fun _ _ h => by cases h
  cases j with
  | reset => exact ⟨trivial, fun _ _ => hover⟩
  | cycle input =>
    refine Program.meets_bind.2 ?_
    show Meets reporting .none () (runCycle cfg input) fun x _ _ => x.Over
    refine Stays.meets_bind readTokenBalance_reports (fun l tokenBalance => ?_) fun _ _ => hover
    refine Stays.meets_bind runAnalyst_reports (fun l proposal => ?_) fun _ _ => hover
    refine Meets.result_bind (fun confidence _ => ?_) fun _ => hover
    split
    · exact hover
    · refine meets_ask_bind.2 ⟨rfl, fun _ _ => ?_⟩
      exact Meets.bind (runExecutor_reports l) (fun x l execution hx => hx) fun x l e hx => hx

end

end ArwaAgent
