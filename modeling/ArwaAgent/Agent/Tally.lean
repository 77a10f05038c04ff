import ArwaAgent.Agent.Protocol

/-!
# What the log says about the guard

`tally` replays the calls of a log: which proposal each cycle executes, and which portfolio values
have been recorded.  The values in the state of the guard are a function of it.
-/

namespace ArwaAgent

open Js Effects Effects.Code

/-- The proposal that each cycle has handed to its executor, and the recorded values. -/
structure Tally where
  executing : ℕ → Option StrategyProposal
  values : List ℤ

/-- The highest recorded value, and at least 0. -/
def Tally.peak (t : Tally) : ℤ :=
  t.values.foldl max 0

/-- Count one call. -/
def Tally.step (t : Tally) (e : AgentEntry) : Tally :=
  match e.op with
  | .runExecutor p => { t with executing := Function.update t.executing e.who (some p) }
  | .updatePortfolioSnapshot v =>
    { t with values := t.values ++ (Op.updatePortfolioSnapshot v).snapshot?.toList }
  | _ => t

/-- Count the calls of a log. -/
def tally (log : List AgentEntry) : Tally :=
  log.foldl Tally.step ⟨fun _ => none, []⟩

section

variable {cfg : Config} {w : AgentWorld}

lemma tally_append (log : List AgentEntry) (e : AgentEntry) :
    tally (log ++ [e]) = (tally log).step e := by
  simp [tally, List.foldl_append]

lemma Tally.step_values (t : Tally) (e : AgentEntry) :
    (t.step e).values = t.values ++ e.op.snapshot?.toList := by
  obtain ⟨⟨op, r, before, after⟩, who, job⟩ := e
  cases op with
  | updatePortfolioSnapshot v => rfl
  | _ => exact (List.append_nil _).symm

/-! ### The state of the guard -/

/-- The values in the state of the guard are what a tally says. -/
structure Tally.Tracks (t : Tally) (s : RiskState) : Prop where
  peakMotes : s.peakMotes = t.peak
  lastValueMotes : s.lastValueMotes = t.values.getLastD 0

/-- One call does to the guard what it does to the tally. -/
lemma GuardStep.tracks {now : ℕ} {s s' : RiskState} {e : AgentEntry} {t : Tally}
    (h : GuardStep cfg now s e.op s') (ht : t.Tracks s) : (t.step e).Tracks s' := by
  obtain ⟨⟨op, r, before, after⟩, who, job⟩ := e
  simp only at h
  cases h with
  | recorded o =>
    by_cases ho : o = .success
    · rw [ho]
      exact ⟨ht.peakMotes, ht.lastValueMotes⟩
    · rw [RiskGuard.recordStrategyOutcome_of_ne ho]
      exact ⟨ht.peakMotes, ht.lastValueMotes⟩
  | @snapshot _ v hv =>
    cases op with
    | updatePortfolioSnapshot motes =>
      have hvalues : (t.step ⟨⟨.updatePortfolioSnapshot motes, r, before, after⟩, who, job⟩).values =
          t.values ++ [v] := by
        rw [Tally.step_values, hv]
        rfl
      -- the guard raises its peak as the fold does
      refine ⟨?_, ?_⟩
      · rw [Tally.peak, hvalues, List.foldl_append, ← Tally.peak, ← ht.peakMotes]
        exact (max_def_lt s.peakMotes v).symm
      · rw [hvalues, List.getLastD_concat]
    | _ => cases hv
  | reset => exact ⟨ht.peakMotes, ht.lastValueMotes⟩
  | other ho hv hr =>
    cases op with
    | recordStrategyOutcome o => cases ho
    | resetCircuitBreaker => cases hr
    | updatePortfolioSnapshot motes =>
      -- a value that is no integer is refused by the guard and not counted
      have hvalues : (t.step ⟨⟨.updatePortfolioSnapshot motes, r, before, after⟩, who, job⟩).values =
          t.values := by
        rw [Tally.step_values, hv]
        exact List.append_nil _
      refine ⟨?_, ?_⟩
      · rw [Tally.peak, hvalues]
        exact ht.peakMotes
      · rw [hvalues]
        exact ht.lastValueMotes
    | _ => exact ⟨ht.peakMotes, ht.lastValueMotes⟩

/-- The state of the guard is the tally of the log. -/
theorem tally_tracks (h : (agentSystem cfg).Reachable w) :
    (tally w.log).Tracks w.shared.risk := by
  induction h with
  | init hinit =>
    obtain ⟨⟨hrisk, -⟩, -, hlog⟩ := hinit
    rw [hrisk, hlog]
    exact ⟨rfl, rfl⟩
  | step _ _ hstep ih =>
    cases hstep with
    | start j => exact ih
    | turn htask hans =>
      rw [tally_append]
      exact (guardStep_of_answer hans).2.tracks ih
    | drift hd =>
      obtain ⟨-, hrisk, -⟩ := hd
      exact hrisk ▸ ih

/-! ### Who is executing what -/

/-- The proposal of a cycle that is executing or has reported. -/
def Phase.proposal? : Phase → Option StrategyProposal
  | executing p => some p
  | recorded p _ => some p
  | _ => none

lemma Tally.step_executing_of_ne {t : Tally} {e : AgentEntry} {who : ℕ} (h : e.who ≠ who) :
    (t.step e).executing who = t.executing who := by
  obtain ⟨⟨op, r, before, after⟩, who', job⟩ := e
  cases op with
  | runExecutor p => exact Function.update_of_ne (Ne.symm h) _ _
  | _ => rfl

/-- The calls of a cycle change its proposal as they change its phase. -/
lemma Tally.step_executing_self {t : Tally} {e : AgentEntry} {ph : Phase} {p : StrategyProposal}
    (ht : ∀ p, ph.proposal? = some p → t.executing e.who = some p)
    (hp : (ph.next e.op e.ans).proposal? = some p) : (t.step e).executing e.who = some p := by
  obtain ⟨⟨op, r, before, after⟩, who, job⟩ := e
  cases op with
  | runExecutor p' =>
    have hupdate : (Function.update t.executing who (some p')) who = some p' :=
      Function.update_self ..
    cases ph <;> first | (cases hp; exact hupdate) | cases hp
  | recordStrategyOutcome o =>
    cases ph <;> first | (cases hp; exact ht _ rfl) | cases hp
  | checkCircuitBreaker =>
    cases ph with
    | analysing =>
      simp only [Phase.next] at hp
      split at hp <;> cases hp
    | executing p' => exact ht _ hp
    | recorded p' o => exact ht _ hp
    | _ => cases hp
  | logStrategyToVault log =>
    cases ph with
    | recorded p' o => cases hp
    | executing p' => exact ht _ hp
    | _ => cases hp
  | _ => cases ph <;> exact ht _ hp

/-- The tally knows the proposal that a cycle executes. -/
lemma tally_executing {log : List AgentEntry} {ph : Phase} {who : ℕ} (hstart : ph.proposal? = none)
    {p : StrategyProposal} (hp : (Pool.phase cycleProtocol ph log who).proposal? = some p) :
    (tally log).executing who = some p := by
  induction log using List.reverseRecOn generalizing p with
  | nil =>
    rw [Pool.phase_nil, hstart] at hp
    cases hp
  | append_singleton log e ih =>
    rw [tally_append]
    by_cases hwho : e.who = who
    · subst hwho
      rw [Pool.phase_append_self] at hp
      exact Tally.step_executing_self (fun p => ih) hp
    · rw [Pool.phase_append_of_ne hwho] at hp
      rw [Tally.step_executing_of_ne hwho]
      exact ih hp

lemma Job.proposal?_phase (j : Job) : j.phase.proposal? = none := by
  cases j <;> rfl

end

end ArwaAgent
