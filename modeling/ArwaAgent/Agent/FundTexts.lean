import ArwaAgent.Agent.FundStore
import ArwaAgent.Js.Integers

/-!
# The fund state cache as it is written

The amounts of the cache are decimal strings: every `record` function reads them with
`BigInt`, computes, and writes them again.  What has been written reads back, so that the
strings are always those of a `FundState`, and each function does on them what it does on
the integers.
-/

namespace ArwaAgent

open Js

/-- The cached counters, with the amounts as strings. -/
structure FundTexts where
  positionsOpened : ℕ
  positionsRealised : ℕ
  yieldRealisedMotes : String
  custodianMotes : String
  stakeholderDeposits : ℕ
  stakeholderActiveMotes : String
  stakeholderTotalMotes : String
  stakeholderWithdrawnMotes : String
  lastUpdated : ℕ
  deriving DecidableEq

namespace FundTexts

/-- The counters before anything has been recorded. -/
def defaultState (now : ℕ) : FundTexts where
  positionsOpened := 0
  positionsRealised := 0
  yieldRealisedMotes := "0"
  custodianMotes := "0"
  stakeholderDeposits := 0
  stakeholderActiveMotes := "0"
  stakeholderTotalMotes := "0"
  stakeholderWithdrawnMotes := "0"
  lastUpdated := now

/-- `(BigInt(a) + BigInt(b)).toString()` -/
def plus (a b : String) : Except Error String := do
  let x ← Value.bigIntOfString a
  let y ← Value.bigIntOfString b
  return toString (x + y)

/-- `BigInt(a) > BigInt(b) ? (BigInt(a) - BigInt(b)).toString() : '0'` -/
def minusOrZero (a b : String) : Except Error String := do
  let x ← Value.bigIntOfString a
  let y ← Value.bigIntOfString b
  return if x > y then toString (x - y) else "0"

variable (now : ℕ) (cache : FundTexts)

/-- Count motes moved into custody. -/
def recordCustodianDeposit (motes : String) : Except Error FundTexts := do
  let custodian ← plus cache.custodianMotes motes
  return { cache with
    custodianMotes := custodian
    lastUpdated := now }

/-- Count motes moved out of custody. -/
def recordCustodianWithdraw (motes : String) : Except Error FundTexts := do
  let custodian ← minusOrZero cache.custodianMotes motes
  return { cache with
    custodianMotes := custodian
    lastUpdated := now }

/-- Count a position. -/
def recordPositionOpened : FundTexts :=
  { cache with
    positionsOpened := cache.positionsOpened + 1
    lastUpdated := now }

/-- Count claimed yield. -/
def recordYieldClaimed (motes : String) : Except Error FundTexts := do
  let yield ← plus cache.yieldRealisedMotes motes
  return { cache with
    positionsRealised := cache.positionsRealised + 1
    yieldRealisedMotes := yield
    lastUpdated := now }

/-- Count a stakeholder's deposit. -/
def recordStakeholderDeposit (amountMotes withdrawn : String) : Except Error FundTexts := do
  let active ← plus cache.stakeholderActiveMotes amountMotes
  let total ← plus cache.stakeholderTotalMotes amountMotes
  let out ← plus cache.stakeholderWithdrawnMotes withdrawn
  return { cache with
    stakeholderDeposits := cache.stakeholderDeposits + 1
    stakeholderActiveMotes := active
    stakeholderTotalMotes := total
    stakeholderWithdrawnMotes := out
    lastUpdated := now }

/-- Count a stakeholder's withdrawal. -/
def recordStakeholderWithdrawal (amountMotes : String) : Except Error FundTexts := do
  let active ← minusOrZero cache.stakeholderActiveMotes amountMotes
  let out ← plus cache.stakeholderWithdrawnMotes amountMotes
  return { cache with
    stakeholderActiveMotes := active
    stakeholderWithdrawnMotes := out
    lastUpdated := now }

/-- Dispatch of a record to its function. -/
def record : FundRecord → Except Error FundTexts
  | .custodianDeposit motes => cache.recordCustodianDeposit now motes
  | .custodianWithdraw motes => cache.recordCustodianWithdraw now motes
  | .positionOpened => .ok (cache.recordPositionOpened now)
  | .yieldClaimed motes => cache.recordYieldClaimed now motes
  | .stakeholderDeposit amountMotes withdrawn =>
    cache.recordStakeholderDeposit now amountMotes withdrawn
  | .stakeholderWithdrawal amountMotes => cache.recordStakeholderWithdrawal now amountMotes

end FundTexts

/-- The counters as they are written. -/
def FundState.texts (s : FundState) : FundTexts where
  positionsOpened := s.positionsOpened
  positionsRealised := s.positionsRealised
  yieldRealisedMotes := toString s.yieldRealisedMotes
  custodianMotes := toString s.custodianMotes
  stakeholderDeposits := s.stakeholderDeposits
  stakeholderActiveMotes := toString s.stakeholderActiveMotes
  stakeholderTotalMotes := toString s.stakeholderTotalMotes
  stakeholderWithdrawnMotes := toString s.stakeholderWithdrawnMotes
  lastUpdated := s.lastUpdated

/-! ### The strings are those of the integers -/

namespace FundTexts

lemma defaultState_eq (now : ℕ) : defaultState now = (FundState.defaultState now).texts := rfl

lemma plus_toString (x : ℤ) (motes : String) :
    plus (toString x) motes = (Value.bigIntOfString motes).map fun m => toString (x + m) := by
  rw [plus, bigIntOfString_toString, ok_bind]
  cases Value.bigIntOfString motes <;> rfl

lemma minusOrZero_toString (x : ℤ) (motes : String) :
    minusOrZero (toString x) motes =
      (Value.bigIntOfString motes).map fun m => toString (FundState.subOrZero x m) := by
  rw [minusOrZero, bigIntOfString_toString, ok_bind]
  cases Value.bigIntOfString motes with
  | error e => rfl
  | ok m =>
    show Except.ok (if x > m then toString (x - m) else "0") =
      Except.ok (toString (if x > m then x - m else 0))
    rw [apply_ite toString]
    rfl

theorem record_texts (now : ℕ) (s : FundState) (r : FundRecord) :
    s.texts.record now r = (s.record now r).map FundState.texts := by
  cases r with
  | positionOpened => rfl
  | custodianDeposit motes =>
    simp only [record, recordCustodianDeposit, FundState.record, FundState.recordCustodianDeposit,
      FundState.texts, plus_toString]
    cases Value.bigIntOfString motes <;> rfl
  | custodianWithdraw motes =>
    simp only [record, recordCustodianWithdraw, FundState.record,
      FundState.recordCustodianWithdraw, FundState.texts, minusOrZero_toString]
    cases Value.bigIntOfString motes <;> rfl
  | yieldClaimed motes =>
    simp only [record, recordYieldClaimed, FundState.record, FundState.recordYieldClaimed,
      FundState.texts, plus_toString]
    cases Value.bigIntOfString motes <;> rfl
  | stakeholderDeposit amountMotes withdrawn =>
    simp only [record, recordStakeholderDeposit, FundState.record,
      FundState.recordStakeholderDeposit, FundState.texts, plus_toString]
    cases Value.bigIntOfString amountMotes with
    | error e => rfl
    | ok amount => cases Value.bigIntOfString withdrawn <;> rfl
  | stakeholderWithdrawal amountMotes =>
    simp only [record, recordStakeholderWithdrawal, FundState.record,
      FundState.recordStakeholderWithdrawal, FundState.texts, plus_toString, minusOrZero_toString]
    cases Value.bigIntOfString amountMotes <;> rfl

end FundTexts

end ArwaAgent
