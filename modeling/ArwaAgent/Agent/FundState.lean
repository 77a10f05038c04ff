import ArwaAgent.Js.Value

/-!
# The fund state cache

The local counters that the dashboard shows.  The amounts are decimal strings, always
written from a BigInt, and kept here as the integers they stand for; the `record`
functions throw when the amount they are given is not one.
-/

namespace ArwaAgent

open Js

/-- The cached counters. -/
structure FundState where
  positionsOpened : ℕ
  positionsRealised : ℕ
  yieldRealisedMotes : ℤ
  custodianMotes : ℤ
  stakeholderDeposits : ℕ
  stakeholderActiveMotes : ℤ
  stakeholderTotalMotes : ℤ
  stakeholderWithdrawnMotes : ℤ
  lastUpdated : ℕ
  deriving DecidableEq

namespace FundState

/-- The counters before anything has been recorded. -/
def defaultState (now : ℕ) : FundState where
  positionsOpened := 0
  positionsRealised := 0
  yieldRealisedMotes := 0
  custodianMotes := 0
  stakeholderDeposits := 0
  stakeholderActiveMotes := 0
  stakeholderTotalMotes := 0
  stakeholderWithdrawnMotes := 0
  lastUpdated := now

variable (now : ℕ) (cache : FundState)

/-- Count motes moved into custody. -/
def recordCustodianDeposit (motes : String) : Except Error FundState := do
  let m ← Value.bigIntOfString motes
  return { cache with
    custodianMotes := cache.custodianMotes + m
    lastUpdated := now }

/-- The difference, or zero where it would be negative. -/
def subOrZero (a b : ℤ) : ℤ := if a > b then a - b else 0

/-- Count motes moved out of custody. -/
def recordCustodianWithdraw (motes : String) : Except Error FundState := do
  let m ← Value.bigIntOfString motes
  return { cache with
    custodianMotes := subOrZero cache.custodianMotes m
    lastUpdated := now }

/-- Count a position. -/
def recordPositionOpened : FundState :=
  { cache with
    positionsOpened := cache.positionsOpened + 1
    lastUpdated := now }

/-- Count claimed yield. -/
def recordYieldClaimed (motes : String) : Except Error FundState := do
  let m ← Value.bigIntOfString motes
  return { cache with
    positionsRealised := cache.positionsRealised + 1
    yieldRealisedMotes := cache.yieldRealisedMotes + m
    lastUpdated := now }

/-- Count a stakeholder's deposit. -/
def recordStakeholderDeposit (amountMotes withdrawn : String) : Except Error FundState := do
  let amount ← Value.bigIntOfString amountMotes
  let out ← Value.bigIntOfString withdrawn
  return { cache with
    stakeholderDeposits := cache.stakeholderDeposits + 1
    stakeholderActiveMotes := cache.stakeholderActiveMotes + amount
    stakeholderTotalMotes := cache.stakeholderTotalMotes + amount
    stakeholderWithdrawnMotes := cache.stakeholderWithdrawnMotes + out
    lastUpdated := now }

/-- Count a stakeholder's withdrawal. -/
def recordStakeholderWithdrawal (amountMotes : String) : Except Error FundState := do
  let amount ← Value.bigIntOfString amountMotes
  return { cache with
    stakeholderActiveMotes := subOrZero cache.stakeholderActiveMotes amount
    stakeholderWithdrawnMotes := cache.stakeholderWithdrawnMotes + amount
    lastUpdated := now }

end FundState

end ArwaAgent
