import ArwaAgent.Js.Value

/-!
# The risk guard

The circuit breaker of the agent, with the state it keeps in its file.  The two portfolio
values are decimal strings there, always written from a BigInt, and kept here as the
integers they stand for.  Each function reads the file, decides, and writes it back
without a pause, so it is one step on the state; `now` is what `Date.now()` answers.
-/

namespace ArwaAgent

open Js

/-- What the executor may report to the guard. -/
inductive Outcome
  | success
  | reverted
  | failed
  deriving DecidableEq

/-- The environment variables that the guard reads. -/
structure RiskEnv where
  arwaMaxDrawdownPct : Option String
  arwaMaxRevertStreak : Option String
  deriving DecidableEq

/-- The state file. -/
structure RiskState where
  peakMotes : ℤ
  lastValueMotes : ℤ
  revertStreak : ℕ
  trippedUntil : ℕ
  totalStrategies : ℕ
  totalSuccesses : ℕ
  totalReverts : ℕ
  deriving DecidableEq

/-- What `checkCircuitBreaker` answers. -/
structure CircuitBreakerState where
  tripped : Bool
  reason : String
  drawdownPct : Number
  revertStreak : ℕ
  peakMotes : ℤ
  lastValueMotes : ℤ
  deriving DecidableEq

namespace RiskGuard

/-- `DEFAULT_STATE`, which stands in for a missing file. -/
def defaultState : RiskState where
  peakMotes := 0
  lastValueMotes := 0
  revertStreak := 0
  trippedUntil := 0
  totalStrategies := 0
  totalSuccesses := 0
  totalReverts := 0

/-- `TRIP_COOLDOWN_MS` -/
def tripCooldownMs : ℕ := 10 * 60 * 1000

/-- The largest drawdown, in percent, that does not trip the breaker. -/
def getMaxDrawdownPct (env : RiskEnv) : Number :=
  match parseFloat (env.arwaMaxDrawdownPct.getD "10") with
  | .finite v => if 0 < v then .finite v else .finite 10
  | _ => .finite 10

/-- The number of consecutive failures that trips the breaker: a count reaches the double
when it reaches the integer above it. -/
def getMaxRevertStreak (env : RiskEnv) : ℕ :=
  match parseInt (env.arwaMaxRevertStreak.getD "3") with
  | .finite v => if 0 < v then ⌈v⌉.toNat else 3
  | _ => 3

/-- How far the last value is below the peak, in percent, cut to a hundredth. -/
def computeDrawdownPct (s : RiskState) : Number :=
  if s.peakMotes = 0 then .finite 0
  else if s.peakMotes ≤ s.lastValueMotes then .finite 0
  else
    -- the division of BigInts has cut the quotient to hundredths of a percent
    (Number.round (((s.peakMotes - s.lastValueMotes) * 10000).tdiv s.peakMotes)).div (.finite 100)

section

variable (env : RiskEnv) (now : ℕ) (s : RiskState)

/-- The verdict on a state, with the figures it is based on. -/
def verdict (tripped : Bool) (reason : String) : CircuitBreakerState :=
  ⟨tripped, reason, computeDrawdownPct s, s.revertStreak, s.peakMotes, s.lastValueMotes⟩

/-- Inspect the breaker: a running cooldown holds first, then the drawdown, then the
streak. -/
def checkCircuitBreaker : CircuitBreakerState :=
  if now < s.trippedUntil then
    verdict s true s!"cooldown active ({(s.trippedUntil - now + 59999) / 60000}m remaining)"
  else if (getMaxDrawdownPct env).lt (computeDrawdownPct s) then
    verdict s true s!"drawdown {(computeDrawdownPct s).toFixed 2}% > {(getMaxDrawdownPct env).toStr}% from peak {s.peakMotes} motes"
  else if getMaxRevertStreak env ≤ s.revertStreak then
    verdict s true s!"revert streak {s.revertStreak} >= {getMaxRevertStreak env} consecutive failures"
  else verdict s false "ok"

/-- Record the outcome of a strategy: a success ends the streak, anything else extends it
and, at the maximum, opens the breaker for the cooldown. -/
def recordStrategyOutcome : Outcome → RiskState
  | .success =>
    { s with
      totalStrategies := s.totalStrategies + 1
      totalSuccesses := s.totalSuccesses + 1
      revertStreak := 0 }
  | _ =>
    let failed :=
      { s with
        totalStrategies := s.totalStrategies + 1
        totalReverts := s.totalReverts + 1
        revertStreak := s.revertStreak + 1 }
    -- every failure at the maximum or above it starts the cooldown again
    if getMaxRevertStreak env ≤ s.revertStreak + 1 then
      { failed with trippedUntil := now + tripCooldownMs }
    else failed

/-- Record a portfolio value, and the peak if it is a new one. -/
def updatePortfolioSnapshot (valueMotes : Value) : Except Error RiskState := do
  let v ← (valueMotes.or (.str "0")).toBigInt
  return { s with
    lastValueMotes := v
    peakMotes := if s.peakMotes < v then v else s.peakMotes }

/-- The operator's reset. -/
def resetCircuitBreaker : RiskState :=
  -- the peak stays, and with it the drawdown
  { s with
    trippedUntil := 0
    revertStreak := 0 }

end

/-! ### What the verdict and the updates depend on -/

section

variable {env : RiskEnv} {now : ℕ} {s : RiskState}

/-- No limit is exceeded without a drawdown. -/
lemma getMaxDrawdownPct_pos (env : RiskEnv) : (getMaxDrawdownPct env).lt (.finite 0) = false := by
  rw [getMaxDrawdownPct]
  split
  · split
    · next h => simp [Number.lt, h.le]
    · decide
  · decide

lemma getMaxRevertStreak_pos (env : RiskEnv) : 0 < getMaxRevertStreak env := by
  rw [getMaxRevertStreak]
  split
  · split
    · next hpos => simpa using hpos
    · exact Nat.succ_pos 2
  · exact Nat.succ_pos 2

/-- The breaker is open exactly for one of the three reasons. -/
lemma tripped_iff : (checkCircuitBreaker env now s).tripped = true ↔
    now < s.trippedUntil ∨ (getMaxDrawdownPct env).lt (computeDrawdownPct s) = true ∨
      getMaxRevertStreak env ≤ s.revertStreak := by
  rw [checkCircuitBreaker]
  split
  · next h => simp [verdict, h]
  · next h =>
    split
    · next h' => simp [verdict, h']
    · next h' =>
      split
      · next h'' => simp [verdict, h'']
      · next h'' => simp [verdict, h, h', h'']

lemma recordStrategyOutcome_of_ne {o : Outcome} (ho : o ≠ .success) :
    recordStrategyOutcome env now s o = { s with
      totalStrategies := s.totalStrategies + 1
      totalReverts := s.totalReverts + 1
      revertStreak := s.revertStreak + 1
      trippedUntil := if getMaxRevertStreak env ≤ s.revertStreak + 1 then now + tripCooldownMs
        else s.trippedUntil } := by
  cases o with
  | success => exact absurd rfl ho
  | reverted => simp only [recordStrategyOutcome]; split <;> rfl
  | failed => simp only [recordStrategyOutcome]; split <;> rfl

end

end RiskGuard

end ArwaAgent
