import Mathlib.Data.List.DropRight
import ArwaAgent.Agent.RiskGuard
import ArwaAgent.Js.Integers
import ArwaAgent.Lib.History

/-!
# The verdict of the risk guard from its history

The file of the guard keeps seven figures.  Each of them is a function of the calls that have
been made since there was no file: the outcomes since the last success or reset, the latest
outcome that has started a cooldown since the last reset, the snapshots, and the counts of
all outcomes.  So the verdict of `checkCircuitBreaker` has a closed form in the history
(`tripped_iff_history`), and so has the verdict right after a reset, which does not touch the
drawdown (`reset_clears_iff`).
-/

namespace ArwaAgent

open Js RiskGuard

/-- The calls that write the file of the guard. -/
inductive GuardCall
  | recordStrategyOutcome (o : Outcome)
  | updatePortfolioSnapshot (valueMotes : Value)
  | resetCircuitBreaker

/-- A call, and the time of it. -/
structure GuardEntry where
  time : ℕ
  call : GuardCall

namespace GuardCall

/-- A call of `recordStrategyOutcome` with anything but a success. -/
def isFailure : GuardCall → Bool
  | recordStrategyOutcome o => o ≠ .success
  | _ => false

/-- A success or a reset. -/
def endsStreak : GuardCall → Bool
  | recordStrategyOutcome o => o = .success
  | updatePortfolioSnapshot _ => false
  | resetCircuitBreaker => true

/-- The value that a call of `updatePortfolioSnapshot` records. -/
def snapshot? : GuardCall → Option ℤ
  | updatePortfolioSnapshot valueMotes => (valueMotes.or (.str "0")).toBigInt.toOption
  | _ => none

/-- What a call writes to the file. -/
def written (env : RiskEnv) (now : ℕ) (s : RiskState) : GuardCall → Option RiskState
  | recordStrategyOutcome o => some (RiskGuard.recordStrategyOutcome env now s o)
  -- a value that is no integer throws before anything is written
  | updatePortfolioSnapshot valueMotes =>
    (RiskGuard.updatePortfolioSnapshot s valueMotes).toOption
  | resetCircuitBreaker => some (RiskGuard.resetCircuitBreaker s)

/-- What a call leaves in the file. -/
def apply (env : RiskEnv) (now : ℕ) (s : RiskState) (call : GuardCall) : RiskState :=
  (call.written env now s).getD s

end GuardCall

/-- The file after some calls, the first of which finds none. -/
def stateAfter (env : RiskEnv) (h : List GuardEntry) : RiskState :=
  h.foldl (fun s e => e.call.apply env e.time s) defaultState

/-! ### What a history says -/

/-- The failures since the last success or reset. -/
def failuresSince (h : List GuardEntry) : ℕ :=
  (h.rtakeWhile fun e => !e.call.endsStreak).countP fun e => e.call.isFailure

/-- All values that have been recorded. -/
def snapshots (h : List GuardEntry) : List ℤ :=
  h.filterMap fun e => e.call.snapshot?

/-- How far the latest value is below the highest one, in hundredths of a percent of it, rounded
down. -/
def drawdownBasisPoints (values : List ℤ) : ℤ :=
  (values.foldl max 0 - values.getLastD 0) * 10000 / values.foldl max 0

/-- The failure leaves the streak at the maximum or above it. -/
def ReachesMaxStreak (env : RiskEnv) (before : List GuardEntry) (e : GuardEntry) : Prop :=
  e.call.isFailure = true ∧ getMaxRevertStreak env ≤ failuresSince (before ++ [e])

/-- The latest failure since the last reset that has left the streak at the maximum or above
it. -/
def IsLatestTrip (env : RiskEnv) : List GuardEntry → GuardEntry → Prop :=
  LatestMark (ReachesMaxStreak env) fun e => e.call = .resetCircuitBreaker

section

variable {env : RiskEnv} {h : List GuardEntry} {e x : GuardEntry}

lemma stateAfter_snoc : stateAfter env (h ++ [x]) = x.call.apply env x.time (stateAfter env h) := by
  rw [stateAfter, List.foldl_append]
  rfl

lemma snapshots_snoc : snapshots (h ++ [x]) = snapshots h ++ x.call.snapshot?.toList :=
  filterMap_snoc _ h x

lemma snapshots_snoc_of_none (hx : x.call.snapshot? = none) :
    snapshots (h ++ [x]) = snapshots h := by
  rw [snapshots_snoc, hx]
  exact List.append_nil _

lemma failuresSince_snoc : failuresSince (h ++ [x]) =
    if x.call.endsStreak then 0 else failuresSince h + if x.call.isFailure then 1 else 0 := by
  rw [failuresSince, List.rtakeWhile_concat]
  cases hends : x.call.endsStreak with
  | true => simp
  | false =>
    rw [failuresSince]
    cases hfail : x.call.isFailure <;> simp [hfail]

/-! ### The file is what the history says -/

/-- The figures of the file, read off the history. -/
structure GuardTracks (env : RiskEnv) (h : List GuardEntry) (s : RiskState) : Prop where
  revertStreak : s.revertStreak = failuresSince h
  peakMotes : s.peakMotes = (snapshots h).foldl max 0
  lastValueMotes : s.lastValueMotes = (snapshots h).getLastD 0
  trippedUntil : ∀ t, t < s.trippedUntil ↔ ∃ e, IsLatestTrip env h e ∧ t < e.time + tripCooldownMs
  totals : s.totalStrategies = s.totalSuccesses + s.totalReverts

/-- A call that is no failure starts no cooldown. -/
lemma not_reachesMaxStreak (hx : x.call.isFailure = false) : ¬ ReachesMaxStreak env h x := by
  rintro ⟨hfail, -⟩
  rw [hx] at hfail
  cases hfail

lemma isLatestTrip_snoc : IsLatestTrip env (h ++ [x]) e ↔ (ReachesMaxStreak env h x ∧ e = x) ∨
    (x.call ≠ .resetCircuitBreaker ∧ ¬ ReachesMaxStreak env h x ∧ IsLatestTrip env h e) :=
  latestMark_snoc

lemma isLatestTrip_snoc_of_not (hreset : x.call ≠ .resetCircuitBreaker)
    (hx : ¬ ReachesMaxStreak env h x) : IsLatestTrip env (h ++ [x]) e ↔ IsLatestTrip env h e := by
  rw [isLatestTrip_snoc]
  constructor
  · rintro (⟨hmax, -⟩ | ⟨-, -, hold⟩)
    · exact absurd hmax hx
    · exact hold
  · exact fun hold => Or.inr ⟨hreset, hx, hold⟩

lemma isLatestTrip_snoc_of_reaches (hx : ReachesMaxStreak env h x) :
    IsLatestTrip env (h ++ [x]) e ↔ e = x := by
  rw [isLatestTrip_snoc]
  constructor
  · rintro (⟨-, he⟩ | ⟨-, hnot, -⟩)
    · exact he
    · exact absurd hx hnot
  · exact fun he => Or.inl ⟨hx, he⟩

lemma not_isLatestTrip_snoc_reset {now : ℕ} :
    ¬ IsLatestTrip env (h ++ [⟨now, .resetCircuitBreaker⟩]) e := by
  intro he
  rcases isLatestTrip_snoc.1 he with ⟨hmax, -⟩ | ⟨hreset, -, -⟩
  · exact absurd hmax (not_reachesMaxStreak rfl)
  · exact absurd rfl hreset

/-- Without a cooldown, no time is before its end. -/
lemma lt_zero_iff_of_not_isLatestTrip (hnone : ∀ e, ¬ IsLatestTrip env h e) (t : ℕ) :
    t < 0 ↔ ∃ e, IsLatestTrip env h e ∧ t < e.time + tripCooldownMs := by
  constructor
  · intro hlt
    exact absurd hlt (Nat.not_lt_zero t)
  · rintro ⟨e, he, -⟩
    exact absurd he (hnone e)

namespace GuardTracks

variable {s : RiskState} {now : ℕ}

lemma init : GuardTracks env [] defaultState where
  revertStreak := rfl
  peakMotes := rfl
  lastValueMotes := rfl
  trippedUntil := lt_zero_iff_of_not_isLatestTrip fun _ => not_latestMark_nil
  totals := rfl

lemma success (hs : GuardTracks env h s) :
    GuardTracks env (h ++ [⟨now, .recordStrategyOutcome .success⟩])
      (recordStrategyOutcome env now s .success) where
  revertStreak := by
    rw [failuresSince_snoc]
    rfl
  peakMotes := by
    rw [snapshots_snoc_of_none rfl]
    exact hs.peakMotes
  lastValueMotes := by
    rw [snapshots_snoc_of_none rfl]
    exact hs.lastValueMotes
  trippedUntil := by
    intro t
    have htrip : ∀ e, IsLatestTrip env (h ++ [⟨now, .recordStrategyOutcome .success⟩]) e ↔
        IsLatestTrip env h e :=
      fun e => isLatestTrip_snoc_of_not (by simp) (not_reachesMaxStreak rfl)
    simp only [htrip]
    exact hs.trippedUntil t
  totals := by
    have := hs.totals
    simp only [recordStrategyOutcome]
    omega

lemma failure {o : Outcome} (ho : o ≠ .success) (hs : GuardTracks env h s) :
    GuardTracks env (h ++ [⟨now, .recordStrategyOutcome o⟩])
      (recordStrategyOutcome env now s o) := by
  have hfail : (GuardCall.recordStrategyOutcome o).isFailure = true := decide_eq_true ho
  have hends : (GuardCall.recordStrategyOutcome o).endsStreak = false := decide_eq_false ho
  have hstreak : failuresSince (h ++ [⟨now, .recordStrategyOutcome o⟩]) = failuresSince h + 1 := by
    rw [failuresSince_snoc, hends, hfail]
    rfl
  rw [recordStrategyOutcome_of_ne ho]
  constructor
  · rw [hstreak, hs.revertStreak]
  · rw [snapshots_snoc_of_none rfl, hs.peakMotes]
  · rw [snapshots_snoc_of_none rfl, hs.lastValueMotes]
  · intro t
    have hreaches : ReachesMaxStreak env h ⟨now, .recordStrategyOutcome o⟩ ↔
        getMaxRevertStreak env ≤ s.revertStreak + 1 := by
      rw [ReachesMaxStreak, hstreak, hs.revertStreak]
      exact and_iff_right hfail
    by_cases hmax : getMaxRevertStreak env ≤ s.revertStreak + 1
    · simp only [if_pos hmax, isLatestTrip_snoc_of_reaches (hreaches.2 hmax)]
      simp
    · simp only [if_neg hmax, isLatestTrip_snoc_of_not (by simp) (mt hreaches.1 hmax)]
      exact hs.trippedUntil t
  · have := hs.totals
    simp only
    omega

lemma snapshot {valueMotes : Value} (hs : GuardTracks env h s) :
    GuardTracks env (h ++ [⟨now, .updatePortfolioSnapshot valueMotes⟩])
      ((GuardCall.updatePortfolioSnapshot valueMotes).apply env now s) := by
  have htrip : ∀ e, IsLatestTrip env (h ++ [⟨now, .updatePortfolioSnapshot valueMotes⟩]) e ↔
      IsLatestTrip env h e :=
    fun e => isLatestTrip_snoc_of_not (by simp) (not_reachesMaxStreak rfl)
  have hstreak : failuresSince (h ++ [⟨now, .updatePortfolioSnapshot valueMotes⟩]) =
      failuresSince h := by
    rw [failuresSince_snoc]
    rfl
  cases hv : (valueMotes.or (.str "0")).toBigInt with
  | error err =>
    have happly : (GuardCall.updatePortfolioSnapshot valueMotes).apply env now s = s := by
      rw [GuardCall.apply, GuardCall.written, updatePortfolioSnapshot, hv]
      rfl
    have hvalues : snapshots (h ++ [⟨now, .updatePortfolioSnapshot valueMotes⟩]) = snapshots h := by
      refine snapshots_snoc_of_none ?_
      rw [GuardCall.snapshot?, hv]
      rfl
    rw [happly]
    constructor
    · rw [hstreak, hs.revertStreak]
    · rw [hvalues, hs.peakMotes]
    · rw [hvalues, hs.lastValueMotes]
    · intro t
      simp only [htrip, hs.trippedUntil t]
    · exact hs.totals
  | ok v =>
    have happly : (GuardCall.updatePortfolioSnapshot valueMotes).apply env now s =
        { s with
          lastValueMotes := v
          peakMotes := if s.peakMotes < v then v else s.peakMotes } := by
      rw [GuardCall.apply, GuardCall.written, updatePortfolioSnapshot, hv]
      rfl
    have hvalues : snapshots (h ++ [⟨now, .updatePortfolioSnapshot valueMotes⟩]) =
        snapshots h ++ [v] := by
      rw [snapshots_snoc, GuardCall.snapshot?, hv]
      rfl
    rw [happly]
    constructor
    · rw [hstreak, hs.revertStreak]
    · rw [hvalues, List.foldl_append, ← hs.peakMotes]
      exact (max_def_lt s.peakMotes v).symm
    · rw [hvalues, List.getLastD_concat]
    · intro t
      simp only [htrip, hs.trippedUntil t]
    · exact hs.totals

lemma reset (hs : GuardTracks env h s) :
    GuardTracks env (h ++ [⟨now, .resetCircuitBreaker⟩]) (resetCircuitBreaker s) where
  revertStreak := by
    rw [failuresSince_snoc]
    rfl
  peakMotes := by
    rw [snapshots_snoc_of_none rfl]
    exact hs.peakMotes
  lastValueMotes := by
    rw [snapshots_snoc_of_none rfl]
    exact hs.lastValueMotes
  trippedUntil := lt_zero_iff_of_not_isLatestTrip fun _ => not_isLatestTrip_snoc_reset
  totals := hs.totals

/-- One call does to the file what it does to the history. -/
lemma step (hs : GuardTracks env h s) (x : GuardEntry) :
    GuardTracks env (h ++ [x]) (x.call.apply env x.time s) := by
  obtain ⟨now, call⟩ := x
  cases call with
  | recordStrategyOutcome o =>
    cases o with
    | success => exact hs.success
    | reverted => exact hs.failure (by decide)
    | failed => exact hs.failure (by decide)
  | updatePortfolioSnapshot valueMotes => exact hs.snapshot
  | resetCircuitBreaker => exact hs.reset

end GuardTracks

/-- The file is a function of the history. -/
theorem stateAfter_tracks (env : RiskEnv) (h : List GuardEntry) :
    GuardTracks env h (stateAfter env h) := by
  induction h using List.reverseRecOn with
  | nil => exact .init
  | append_singleton h x ih =>
    rw [stateAfter_snoc]
    exact ih.step x

/-! ### The drawdown -/

/-- The latest value is not above the highest one, nor is zero. -/
lemma getLastD_le_foldl_max (values : List ℤ) :
    values.getLastD 0 ≤ values.foldl max 0 ∧ 0 ≤ values.foldl max 0 := by
  induction values using List.reverseRecOn with
  | nil => exact ⟨le_rfl, le_rfl⟩
  | append_singleton values v ih =>
    rw [List.getLastD_concat, List.foldl_append]
    exact ⟨le_max_right _ _, ih.2.trans (le_max_left _ _)⟩

/-- Of values that are not negative, the drawdown is at most the whole. -/
lemma drawdownBasisPoints_mem {values : List ℤ} (hvalues : ∀ v ∈ values, 0 ≤ v) :
    0 ≤ drawdownBasisPoints values ∧ drawdownBasisPoints values ≤ 10000 := by
  obtain ⟨hle, hpeak⟩ := getLastD_le_foldl_max values
  have hlast : 0 ≤ values.getLastD 0 := by
    cases hlast : values.getLast? with
    | none => rw [List.getLastD_eq_getLast?, hlast, Option.getD_none]
    | some v =>
      rw [List.getLastD_eq_getLast?, hlast, Option.getD_some]
      exact hvalues v (List.mem_of_getLast? hlast)
  rw [drawdownBasisPoints]
  generalize values.foldl max 0 = peak at hle hpeak ⊢
  constructor
  · exact Int.ediv_nonneg (by omega) hpeak
  · rcases hpeak.eq_or_lt with rfl | hpos
    · rw [Int.ediv_zero]
      omega
    · exact Int.ediv_le_of_le_mul hpos (by omega)

/-- The guard measures the drawdown of the values in percent. -/
lemma GuardTracks.computeDrawdownPct {s : RiskState} (hs : GuardTracks env h s) :
    RiskGuard.computeDrawdownPct s =
      (Number.round (drawdownBasisPoints (snapshots h))).div (.finite 100) := by
  obtain ⟨hle, hpeak⟩ := getLastD_le_foldl_max (snapshots h)
  rw [RiskGuard.computeDrawdownPct, drawdownBasisPoints, hs.peakMotes, hs.lastValueMotes]
  generalize (snapshots h).foldl max 0 = peak at hle hpeak ⊢
  generalize (snapshots h).getLastD 0 = last at hle ⊢
  split_ifs with hzero hlast
  · rw [hzero, Int.ediv_zero]
    decide +kernel
  · obtain rfl : last = peak := le_antisymm hle hlast
    rw [sub_self, zero_mul, Int.zero_ediv]
    decide +kernel
  · rw [Int.tdiv_eq_ediv_of_nonneg (by omega)]

/-- Percent above an integer limit are hundredths above a hundred times the limit. -/
lemma GuardTracks.lt_computeDrawdownPct {s : RiskState} {limit : ℕ} (hs : GuardTracks env h s)
    (hlimit : getMaxDrawdownPct env = .finite limit) (hvalues : ∀ v ∈ snapshots h, 0 ≤ v) :
    (getMaxDrawdownPct env).lt (RiskGuard.computeDrawdownPct s) = true ↔
      100 * (limit : ℤ) < drawdownBasisPoints (snapshots h) := by
  obtain ⟨hnonneg, hle⟩ := drawdownBasisPoints_mem hvalues
  rw [hs.computeDrawdownPct, hlimit, Number.finite_lt_hundredths hnonneg hle, decide_eq_true_iff]

/-- What the guard answers after any calls, at any later time, when its limit is an integer and no
value is negative: it is tripped exactly if the latest outcome since the last reset that has
left the streak at the maximum or above it is less than ten minutes old, or the drawdown of the
latest value from the highest one is above the limit, or the streak is at the maximum or above
it.  Every outcome has been counted as a success or as a revert. -/
theorem tripped_iff_history {limit : ℕ} (hlimit : getMaxDrawdownPct env = .finite limit)
    (hvalues : ∀ v ∈ snapshots h, 0 ≤ v) (t : ℕ) :
    ((checkCircuitBreaker env t (stateAfter env h)).tripped = true ↔
      (∃ e, IsLatestTrip env h e ∧ t < e.time + 10 * 60 * 1000) ∨
        100 * (limit : ℤ) < drawdownBasisPoints (snapshots h) ∨
        getMaxRevertStreak env ≤ failuresSince h) ∧
    (stateAfter env h).totalStrategies =
      (stateAfter env h).totalSuccesses + (stateAfter env h).totalReverts := by
  have hs := stateAfter_tracks env h
  refine ⟨?_, hs.totals⟩
  rw [tripped_iff, hs.trippedUntil, hs.lt_computeDrawdownPct hlimit hvalues, hs.revertStreak]
  rfl

end

/-- Three failures within a second, and a success after them. -/
def lateSuccess : List GuardEntry :=
  [⟨0, .updatePortfolioSnapshot (.str "1000")⟩, ⟨100, .recordStrategyOutcome .reverted⟩,
    ⟨200, .recordStrategyOutcome .failed⟩, ⟨300, .recordStrategyOutcome .reverted⟩,
    ⟨400, .recordStrategyOutcome .success⟩]

/-- A success ends no cooldown: the guard is still tripped just before ten minutes have passed
since the third failure. -/
theorem tripped_iff_history_lateSuccess :
    (checkCircuitBreaker ⟨none, none⟩ 600299 (stateAfter ⟨none, none⟩ lateSuccess)).tripped =
      true := by
  have hlimit : getMaxDrawdownPct ⟨none, none⟩ = .finite (10 : ℕ) := by decide +kernel
  have hmax : getMaxRevertStreak ⟨none, none⟩ = 3 := by decide +kernel
  have hvalues : ∀ v ∈ snapshots lateSuccess, 0 ≤ v := by decide
  refine (tripped_iff_history hlimit hvalues 600299).1.2
    (Or.inl ⟨⟨300, .recordStrategyOutcome .reverted⟩, ?_, by decide⟩)
  refine (isLatestTrip_snoc_of_not (h := lateSuccess.take 4) (by simp) ?_).2 ?_
  · exact not_reachesMaxStreak rfl
  · refine (isLatestTrip_snoc_of_reaches (h := lateSuccess.take 3) ⟨rfl, ?_⟩).2 rfl
    rw [hmax]
    decide

/-! ### The operator's reset -/

/-- After a reset the guard is tripped exactly as long as the drawdown of the latest value from the
highest one is above the limit: the reset ends the streak and the cooldown, and leaves both
values. -/
theorem reset_clears_iff (env : RiskEnv) (h : List GuardEntry) (t : ℕ) :
    (checkCircuitBreaker env t (resetCircuitBreaker (stateAfter env h))).tripped = false ↔
      (getMaxDrawdownPct env).lt
        ((Number.round (drawdownBasisPoints (snapshots h))).div (.finite 100)) = false := by
  have hs : GuardTracks env (h ++ [⟨t, .resetCircuitBreaker⟩])
      (resetCircuitBreaker (stateAfter env h)) := (stateAfter_tracks env h).reset
  have hvalues : snapshots (h ++ [⟨t, .resetCircuitBreaker⟩]) = snapshots h :=
    snapshots_snoc_of_none rfl
  have hstreak : ¬ getMaxRevertStreak env ≤ 0 := Nat.not_le.2 (getMaxRevertStreak_pos env)
  rw [← Bool.not_eq_true, tripped_iff, ← Bool.not_eq_true, hs.computeDrawdownPct, hvalues]
  simp [resetCircuitBreaker, hstreak]

/-- The guard of the smoke test, after its value has fallen from 1000 to 500: reset, it is still
tripped. -/
theorem drawdown_survives_reset :
    ¬ ∀ (env : RiskEnv) (h : List GuardEntry) (t : ℕ),
      (checkCircuitBreaker env t (resetCircuitBreaker (stateAfter env h))).tripped = false := by
  intro hclears
  have hfalse := hclears ⟨none, none⟩ [⟨0, .updatePortfolioSnapshot (.str "1000")⟩,
    ⟨1, .updatePortfolioSnapshot (.str "500")⟩] 2
  revert hfalse
  decide +kernel

end ArwaAgent
