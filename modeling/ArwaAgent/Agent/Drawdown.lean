import ArwaAgent.Agent.Scenario
import ArwaAgent.Agent.Tally

/-!
# The drawdown of the trades

The portfolio value that the guard is told after a success is a field of the proposal,
its output floor or its input amount.  So the peak is the highest such value and the
last value is the latest one, whatever the portfolio is worth, and the breaker trips on
the drawdown exactly when a successful strategy has a value too far below the highest
one before it.
-/

namespace ArwaAgent

open Js Effects Effects.Code

/-- A check at this time holds the cycle because of the drawdown. -/
def TripsOnDrawdown (cfg : Config) (now : ℕ) (s : RiskState) : Prop :=
  (RiskGuard.checkCircuitBreaker cfg.risk now s).tripped = true ∧
    "drawdown".toList.isPrefixOf (RiskGuard.checkCircuitBreaker cfg.risk now s).reason.toList = true

/-- It does exactly if no cooldown is running and the drawdown is above its limit. -/
lemma tripsOnDrawdown_iff {cfg : Config} {now : ℕ} {s : RiskState} : TripsOnDrawdown cfg now s ↔
    ¬ now < s.trippedUntil ∧
      (RiskGuard.getMaxDrawdownPct cfg.risk).lt (RiskGuard.computeDrawdownPct s) = true := by
  rw [TripsOnDrawdown, RiskGuard.checkCircuitBreaker]
  split_ifs with hcooldown hdrawdown hstreak <;>
    simp only [RiskGuard.verdict, String.toList_append, List.append_assoc]
  · exact ⟨fun h => (Bool.false_ne_true h.2).elim, fun h => absurd hcooldown h.1⟩
  · exact ⟨fun _ => ⟨hcooldown, hdrawdown⟩, fun _ => ⟨trivial, rfl⟩⟩
  · exact ⟨fun h => (Bool.false_ne_true h.2).elim, fun h => absurd h.2 hdrawdown⟩
  · exact ⟨fun h => (Bool.false_ne_true h.1).elim, fun h => absurd h.2 hdrawdown⟩

instance (cfg : Config) (now : ℕ) (s : RiskState) : Decidable (TripsOnDrawdown cfg now s) :=
  decidable_of_iff _ tripsOnDrawdown_iff.symm

/-- A value that is recorded after a peak does not exceed the drawdown. -/
def WithinLimit (cfg : Config) (peak v : ℤ) : Prop :=
  (RiskGuard.getMaxDrawdownPct cfg.risk).lt (RiskGuard.computeDrawdownPct
    { RiskGuard.defaultState with
      peakMotes := max peak v
      lastValueMotes := v }) = false

instance (cfg : Config) (peak v : ℤ) : Decidable (WithinLimit cfg peak v) :=
  inferInstanceAs (Decidable (_ = _))

/-- Every strategy succeeds, the operator does nothing, and the portfolio never loses value. -/
def Prosperous (w : AgentWorld) : Pool.Label Op Ans Shared Job → Prop
  | .start j => j ≠ .reset
  | .turn e => ∀ o, e.op.outcome? = some o → o = .success
  | .drift y => w.shared.portfolioMotes ≤ y.portfolioMotes

section

variable {cfg : Config} {w : AgentWorld}

lemma computeDrawdownPct_congr {s t : RiskState} (hpeak : s.peakMotes = t.peakMotes)
    (hlast : s.lastValueMotes = t.lastValueMotes) :
    RiskGuard.computeDrawdownPct s = RiskGuard.computeDrawdownPct t := by
  rw [RiskGuard.computeDrawdownPct, RiskGuard.computeDrawdownPct, hpeak, hlast]

/-- No check trips on the drawdown while nothing has been recorded, and after a recorded value
none does exactly if the value is within the limit. -/
lemma Tally.Tracks.trips_iff {t : Tally} {s : RiskState} (h : t.Tracks s) {values : List ℤ} {v : ℤ}
    (ht : t.values = values ++ [v]) :
    (∃ now, TripsOnDrawdown cfg now s) ↔ ¬ WithinLimit cfg (values.foldl max 0) v := by
  have hpeak : s.peakMotes = max (values.foldl max 0) v := by
    rw [h.peakMotes, Tally.peak, ht, List.foldl_append]
    rfl
  have hlast : s.lastValueMotes = v := by
    rw [h.lastValueMotes, ht, List.getLastD_concat]
  have hpct : RiskGuard.computeDrawdownPct s = RiskGuard.computeDrawdownPct
      { RiskGuard.defaultState with
        peakMotes := max (values.foldl max 0) v
        lastValueMotes := v } :=
    computeDrawdownPct_congr hpeak hlast
  rw [WithinLimit, Bool.not_eq_false, ← hpct]
  constructor
  · rintro ⟨now, htrips⟩
    exact (tripsOnDrawdown_iff.1 htrips).2
  · intro hlt
    exact ⟨s.trippedUntil, tripsOnDrawdown_iff.2 ⟨lt_irrefl _, hlt⟩⟩

lemma Tally.Tracks.not_trips {t : Tally} {s : RiskState} (h : t.Tracks s) (ht : t.values = [])
    (now : ℕ) : ¬ TripsOnDrawdown cfg now s := by
  have hpeak : s.peakMotes = 0 := by
    rw [h.peakMotes, Tally.peak, ht]
    rfl
  intro htrips
  obtain ⟨-, hlt⟩ := tripsOnDrawdown_iff.1 htrips
  rw [RiskGuard.computeDrawdownPct, if_pos hpeak, RiskGuard.getMaxDrawdownPct_pos] at hlt
  cases hlt

lemma exists_snapshot {log : List AgentEntry} {values : List ℤ} {v : ℤ}
    (h : (tally log).values = values ++ [v]) :
    ∃ before e after, log = before ++ e :: after ∧ (tally before).values = values ∧
      e.op.snapshot? = some v := by
  induction log using List.reverseRecOn with
  | nil => simp [tally] at h
  | append_singleton log e ih =>
    rw [tally_append, Tally.step_values] at h
    cases hv : e.op.snapshot? with
    | none =>
      rw [hv, Option.toList_none, List.append_nil] at h
      obtain ⟨before, e', after, rfl, hvalues, hv'⟩ := ih h
      exact ⟨before, e', after ++ [e], by simp, hvalues, hv'⟩
    | some v' =>
      rw [hv] at h
      obtain ⟨hvalues, hv'⟩ := List.append_inj' h rfl
      cases hv'
      exact ⟨log, e, [], rfl, hvalues, hv⟩

/-- A value is recorded by a cycle whose strategy has succeeded, and it is the floor or the
amount of its proposal. -/
lemma snapshot_of_executing (h : (agentSystem cfg).Reachable w) {before after : List AgentEntry}
    {e : AgentEntry} {motes : Value} (hlog : w.log = before ++ e :: after)
    (hop : e.op = .updatePortfolioSnapshot motes) :
    ∃ p, (tally before).executing e.who = some p ∧ motes = p.snapshotValue := by
  have hallowed := (conforms h).allowed before e after hlog
  rw [hop] at hallowed
  cases hph : Pool.phase cycleProtocol e.job.phase before e.who with
  | recorded p o =>
    rw [hph] at hallowed
    exact ⟨p, tally_executing e.job.proposal?_phase (by rw [hph]; rfl), hallowed.2⟩
  | operator =>
    rw [hph] at hallowed
    cases hallowed
  | _ =>
    rw [hph] at hallowed
    exact hallowed.elim

/-- Every recorded value is the output floor or the input amount of the proposal that its cycle
has executed, and no check in any state of a run trips on the drawdown exactly if each
of these values is within the limit of the highest one before it. -/
theorem drawdown_trips_iff (h : (agentSystem cfg).Reachable w) :
    (∀ before e after motes, w.log = before ++ e :: after → e.op = .updatePortfolioSnapshot motes →
      ∃ p, (tally before).executing e.who = some p ∧ motes = p.snapshotValue) ∧
    ((∀ e ∈ w.log, ∀ now, ¬ TripsOnDrawdown cfg now e.after.risk) ↔
      ∀ before e after p v, w.log = before ++ e :: after →
        (tally before).executing e.who = some p → e.op = .updatePortfolioSnapshot p.snapshotValue →
          e.op.snapshot? = some v → WithinLimit cfg (tally before).peak v) := by
  refine ⟨fun before e after motes hlog hop => snapshot_of_executing h hlog hop, ?_, ?_⟩
  · -- the state after a value beyond the limit would trip at a later check
    intro hnever before e after p v hlog hexec hop hv
    obtain ⟨-, u, -, -, -, hu, hulog, hushared⟩ := Pool.reachable_turn h hlog
    by_contra hlimit
    have htracks := tally_tracks hu
    rw [hulog, hushared] at htracks
    have hvalues : (tally (before ++ [e])).values = (tally before).values ++ [v] := by
      rw [tally_append, Tally.step_values, hv]
      rfl
    obtain ⟨now, htrips⟩ := (htracks.trips_iff hvalues).2 hlimit
    exact hnever e (by rw [hlog]; simp) now htrips
  · -- a state that trips holds the last recorded value, which some call has recorded
    intro hlimit e he now htrips
    obtain ⟨before, after, hlog⟩ := List.append_of_mem he
    obtain ⟨-, u, -, -, -, hu, hulog, hushared⟩ := Pool.reachable_turn h hlog
    have htracks := tally_tracks hu
    rw [hulog, hushared] at htracks
    rcases List.eq_nil_or_concat (tally (before ++ [e])).values with hnil | ⟨values, v, hvalues⟩
    · exact htracks.not_trips hnil now htrips
    · rw [List.concat_eq_append] at hvalues
      obtain ⟨before', e', after', hsplit, hvalues', hv⟩ := exists_snapshot hvalues
      have hlog' : w.log = before' ++ e' :: (after' ++ after) := by
        rw [hlog, List.append_cons, hsplit, List.append_assoc, List.cons_append]
      cases hop : e'.op with
      | updatePortfolioSnapshot motes =>
        obtain ⟨p, hexec, hmotes⟩ := snapshot_of_executing h hlog' hop
        have hwithin := hlimit before' e' _ p v hlog' hexec (hmotes ▸ hop) hv
        rw [Tally.peak, hvalues'] at hwithin
        exact (htracks.trips_iff hvalues).1 ⟨now, htrips⟩ hwithin
      | _ =>
        rw [hop] at hv
        cases hv

end

/-- A swap and then a stake of the same amount, both executed. -/
def swapThenStake : AgentWorld :=
  AgentWorld.after plainConfig
    [.job openMarket (forced "swap" "500000000000"), .job openMarket (forced "stake" "500000000000")]

/-- A swap and then another one of the same amount, both executed. -/
def swapThenSwap : AgentWorld :=
  AgentWorld.after plainConfig
    [.job openMarket (forced "swap" "500000000000"), .job openMarket (forced "swap" "500000000000")]

/-- After the swap and the stake some recorded value is not within the limit, and after the two
swaps no check trips on the drawdown. -/
theorem drawdown_trips_iff_swapThenStake :
    (¬ ∀ before e after p v, swapThenStake.log = before ++ e :: after →
      (tally before).executing e.who = some p → e.op = .updatePortfolioSnapshot p.snapshotValue →
        e.op.snapshot? = some v → WithinLimit plainConfig (tally before).peak v) ∧
    ∀ e ∈ swapThenSwap.log, ∀ now, ¬ TripsOnDrawdown plainConfig now e.after.risk := by
  constructor
  · intro hlimit
    have htrips : swapThenStake.log.any
        (fun e => decide (TripsOnDrawdown plainConfig 0 e.after.risk)) = true := by
      decide +kernel
    obtain ⟨e, he, htrips⟩ := List.any_eq_true.1 htrips
    exact (drawdown_trips_iff (reachable_after plainConfig _)).2.2 hlimit e he 0
      (of_decide_eq_true htrips)
  · have hwithin : (List.range swapThenSwap.log.length).all (fun i =>
        (swapThenSwap.log[i]?.bind fun e => e.op.snapshot?).all fun v =>
          WithinLimit plainConfig (tally (swapThenSwap.log.take i)).peak v) = true := by
      decide +kernel
    refine (drawdown_trips_iff (reachable_after plainConfig _)).2.2 ?_
    intro before e after p v hlog _ _ hv
    change swapThenSwap.log = _ at hlog
    have hbefore := List.all_eq_true.1 hwithin before.length
      (List.mem_range.2 (by rw [hlog, List.length_append]; simp))
    rw [hlog, List.getElem?_append_right le_rfl, Nat.sub_self, List.take_left' rfl] at hbefore
    simpa [hv] using hbefore

/-- A swap and a stake that both succeed trip the breaker on the drawdown, although the
portfolio has not changed. -/
theorem stake_after_swap_trips :
    ¬ ∀ (cfg : Config) (w : AgentWorld), (agentSystem cfg).ReachableVia Prosperous w →
      ¬ TripsOnDrawdown cfg w.shared.now w.shared.risk := by
  intro h
  have hreach : (agentSystem plainConfig).ReachableVia Prosperous swapThenStake := by
    refine reachableVia_after (fun w now => le_refl _) ?_ ?_
    · intro w answers j hj
      simp only [List.mem_cons, Stage.job.injEq, List.not_mem_nil, or_false] at hj
      rcases hj with ⟨-, rfl⟩ | ⟨-, rfl⟩ <;> exact fun h => nomatch h
    · have hsuccess : swapThenStake.log.all
          (fun e => e.op.outcome?.all fun o => o = .success) = true := by
        decide +kernel
      intro w e he o ho
      have := List.all_eq_true.1 hsuccess e he
      rw [ho] at this
      exact of_decide_eq_true this
  exact h plainConfig swapThenStake hreach (by decide +kernel)

end ArwaAgent
