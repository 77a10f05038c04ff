import ArwaAgent.Agent.FundState
import ArwaAgent.Lib.Transition
import Mathlib.Logic.Function.Basic

/-!
# The fund state file and the processes that share it

Every process keeps its own copy of the counters, loaded when it starts and again by
`getFundState(true)`.  A `record` function changes the copy of its process and writes
the whole copy to the file: what another process has written since the copy was loaded
is overwritten.  The counters on disk are the combined effect of all records exactly
as long as no process records from a copy that is out of date in a counter that the
record does not bring to the same value anyway (`Fresh`).

Every call is atomic and every write succeeds.  The file holds the state as it was
written, since `JSON.parse` reads back what `JSON.stringify` wrote.
-/

namespace ArwaAgent

open Js

/-- The calls that change the counters, with their arguments. -/
inductive FundRecord
  | custodianDeposit (motes : String)
  | custodianWithdraw (motes : String)
  | positionOpened
  | yieldClaimed (motes : String)
  | stakeholderDeposit (amountMotes withdrawn : String)
  | stakeholderWithdrawal (amountMotes : String)
deriving DecidableEq

namespace FundState

/-- Dispatch of a record to its function. -/
def record (now : ℕ) (cache : FundState) : FundRecord → Except Error FundState
  | .custodianDeposit motes => cache.recordCustodianDeposit now motes
  | .custodianWithdraw motes => cache.recordCustodianWithdraw now motes
  | .positionOpened => .ok (cache.recordPositionOpened now)
  | .yieldClaimed motes => cache.recordYieldClaimed now motes
  | .stakeholderDeposit amountMotes withdrawn =>
    cache.recordStakeholderDeposit now amountMotes withdrawn
  | .stakeholderWithdrawal amountMotes => cache.recordStakeholderWithdrawal now amountMotes

/-- The counters alone. -/
def counters (s : FundState) : FundState := { s with lastUpdated := 0 }

/-- The counters after one more record; a record that throws changes nothing. -/
def recorded (s : FundState) (r : FundRecord) : FundState :=
  match s.record 0 r with
  | .ok t => t
  | .error _ => s

/-- `load`: what the file says, or the default state without one. -/
def load (now : ℕ) (file : Option FundState) : FundState := file.getD (defaultState now)

end FundState

/-! ### Records with their amounts read -/

/-- A record whose amounts are integers. -/
inductive FundChange
  | custodianDeposit (m : ℤ)
  | custodianWithdraw (m : ℤ)
  | positionOpened
  | yieldClaimed (m : ℤ)
  | stakeholderDeposit (amount out : ℤ)
  | stakeholderWithdrawal (amount : ℤ)

/-- The integers that the amounts of a record stand for. -/
def FundRecord.parse : FundRecord → Except Error FundChange
  | .custodianDeposit motes => .custodianDeposit <$> Value.bigIntOfString motes
  | .custodianWithdraw motes => .custodianWithdraw <$> Value.bigIntOfString motes
  | .positionOpened => .ok .positionOpened
  | .yieldClaimed motes => .yieldClaimed <$> Value.bigIntOfString motes
  | .stakeholderDeposit amountMotes withdrawn => do
    let amount ← Value.bigIntOfString amountMotes
    let out ← Value.bigIntOfString withdrawn
    return .stakeholderDeposit amount out
  | .stakeholderWithdrawal amountMotes =>
    .stakeholderWithdrawal <$> Value.bigIntOfString amountMotes

namespace FundChange

/-- What a change does to the counters. -/
def apply (s : FundState) : FundChange → FundState
  | .custodianDeposit m => { s with custodianMotes := s.custodianMotes + m }
  | .custodianWithdraw m =>
    { s with custodianMotes := FundState.subOrZero s.custodianMotes m }
  | .positionOpened => { s with positionsOpened := s.positionsOpened + 1 }
  | .yieldClaimed m =>
    { s with
      positionsRealised := s.positionsRealised + 1
      yieldRealisedMotes := s.yieldRealisedMotes + m }
  | .stakeholderDeposit amount out =>
    { s with
      stakeholderDeposits := s.stakeholderDeposits + 1
      stakeholderActiveMotes := s.stakeholderActiveMotes + amount
      stakeholderTotalMotes := s.stakeholderTotalMotes + amount
      stakeholderWithdrawnMotes := s.stakeholderWithdrawnMotes + out }
  | .stakeholderWithdrawal amount =>
    { s with
      stakeholderActiveMotes := FundState.subOrZero s.stakeholderActiveMotes amount
      stakeholderWithdrawnMotes := s.stakeholderWithdrawnMotes + amount }

/-- Two counters that a withdrawal of `m` brings to the same value. -/
def SameLess (m a b : ℤ) : Prop := a = b ∨ (a ≤ m ∧ b ≤ m)

/-- Two states whose counters a change brings to the same values: equal ones, except that a
withdrawal may bring two different balances to zero. -/
def Agrees (s t : FundState) : FundChange → Prop
  | .custodianWithdraw m =>
    { s.counters with custodianMotes := 0 } = { t.counters with custodianMotes := 0 } ∧
      SameLess m s.custodianMotes t.custodianMotes
  | .stakeholderWithdrawal amount =>
    { s.counters with stakeholderActiveMotes := 0 } =
        { t.counters with stakeholderActiveMotes := 0 } ∧
      SameLess amount s.stakeholderActiveMotes t.stakeholderActiveMotes
  | _ => s.counters = t.counters

end FundChange

lemma record_eq (now : ℕ) (s : FundState) (r : FundRecord) :
    s.record now r = r.parse.map fun c => { c.apply s with lastUpdated := now } := by
  cases r with
  | positionOpened => rfl
  | stakeholderDeposit amountMotes withdrawn =>
    simp only [FundState.record, FundState.recordStakeholderDeposit, FundRecord.parse]
    cases Value.bigIntOfString amountMotes with
    | error e => rfl
    | ok amount => cases Value.bigIntOfString withdrawn <;> rfl
  | custodianDeposit motes =>
    simp only [FundState.record, FundState.recordCustodianDeposit, FundRecord.parse]
    cases Value.bigIntOfString motes <;> rfl
  | custodianWithdraw motes =>
    simp only [FundState.record, FundState.recordCustodianWithdraw, FundRecord.parse]
    cases Value.bigIntOfString motes <;> rfl
  | yieldClaimed motes =>
    simp only [FundState.record, FundState.recordYieldClaimed, FundRecord.parse]
    cases Value.bigIntOfString motes <;> rfl
  | stakeholderWithdrawal amountMotes =>
    simp only [FundState.record, FundState.recordStakeholderWithdrawal, FundRecord.parse]
    cases Value.bigIntOfString amountMotes <;> rfl

lemma subOrZero_eq_iff {m a b : ℤ} :
    FundState.subOrZero a m = FundState.subOrZero b m ↔ FundChange.SameLess m a b := by
  rw [FundState.subOrZero, FundState.subOrZero, FundChange.SameLess]
  split_ifs <;> omega

/-- A change brings two states to the same counters exactly when they agree for it. -/
lemma apply_counters_eq_iff (c : FundChange) (s t : FundState) :
    (c.apply s).counters = (c.apply t).counters ↔ c.Agrees s t := by
  cases c <;>
    simp only [FundChange.apply, FundChange.Agrees, FundState.counters, FundState.mk.injEq,
      subOrZero_eq_iff, add_left_inj, true_and, and_true]
  -- the two withdrawals: the other counters come from different sides of the conjunction
  case custodianWithdraw => tauto
  case stakeholderWithdrawal => tauto

lemma FundChange.agrees_refl (c : FundChange) (s : FundState) : c.Agrees s s :=
  (apply_counters_eq_iff c s s).1 rfl

/-- The file, the copies of the processes `π`, and the records made so far. -/
structure FundStore (π : Type) where
  file : Option FundState
  cache : π → FundState
  records : List FundRecord

namespace FundStore

variable {π : Type} [DecidableEq π]

/-- The calls of a process. -/
inductive Action (π : Type)
  | record (p : π) (now : ℕ) (r : FundRecord)
  | reload (p : π) (now : ℕ)

/-- The processes have started on the file as it is. -/
def start (now : ℕ) (file : Option FundState) : FundStore π where
  file := file
  cache := fun _ => FundState.load now file
  records := []

/-- One call. -/
def step (w : FundStore π) : Action π → FundStore π
  | .record p now r =>
    match (w.cache p).record now r with
    | .ok s =>
      { file := some s, cache := Function.update w.cache p s, records := w.records ++ [r] }
    | .error _ => { w with records := w.records ++ [r] }
  | .reload p now =>
    { w with cache := Function.update w.cache p (FundState.load now w.file) }

/-- The counters on disk. -/
def onDisk (w : FundStore π) : FundState := (FundState.load 0 w.file).counters

/-- The combined effect of the records on the counters that the file had at the start. -/
def combined (file : Option FundState) (w : FundStore π) : FundState :=
  w.records.foldl FundState.recorded (FundState.load 0 file).counters

/-- Side condition on a call: a record whose amounts can be read comes from a copy that agrees
with the file. -/
def Fresh (w : FundStore π) : Action π → Prop
  | .record p now r =>
    ∀ c, r.parse = .ok c → c.Agrees (w.cache p) (FundState.load now w.file)
  | .reload _ _ => True

lemma load_counters (now : ℕ) (file : Option FundState) :
    (FundState.load now file).counters = (FundState.load 0 file).counters := by
  cases file <;> rfl

lemma recorded_of_parse {r : FundRecord} {c : FundChange} (hr : r.parse = .ok c) (s : FundState) :
    s.counters.recorded r = (c.apply s).counters := by
  rw [FundState.recorded, record_eq, hr]
  cases c <;> rfl

lemma recorded_of_parse_error {r : FundRecord} {e : Error} (hr : r.parse = .error e)
    (s : FundState) : s.recorded r = s := by
  rw [FundState.recorded, record_eq, hr]
  rfl

/-- A call keeps the file up to date exactly when it is fresh. -/
lemma onDisk_step_iff {file : Option FundState} {w : FundStore π}
    (hw : w.onDisk = combined file w) (a : Action π) :
    (w.step a).onDisk = combined file (w.step a) ↔ w.Fresh a := by
  cases a with
  | reload p now => exact ⟨fun _ => trivial, fun _ => hw⟩
  | record p now r =>
    cases hr : r.parse with
    | error e =>
      have hstep : w.step (.record p now r) = { w with records := w.records ++ [r] } := by
        rw [step, record_eq, hr]
        rfl
      have hcombined : combined file (w.step (.record p now r)) = combined file w := by
        rw [hstep, combined, List.foldl_append]
        exact recorded_of_parse_error hr _
      rw [hcombined, hstep]
      refine ⟨fun _ c hc => ?_, fun _ => hw⟩
      rw [hr] at hc
      cases hc
    | ok c =>
      have hstep : w.step (.record p now r) =
          { file := some { c.apply (w.cache p) with lastUpdated := now }
            cache := Function.update w.cache p { c.apply (w.cache p) with lastUpdated := now }
            records := w.records ++ [r] } := by
        rw [step, record_eq, hr]
        rfl
      have hcombined : combined file (w.step (.record p now r)) =
          (c.apply (FundState.load now w.file)).counters := by
        rw [hstep, combined, List.foldl_append]
        show (combined file w).recorded r = _
        rw [← hw, onDisk, ← load_counters now, recorded_of_parse hr]
      rw [hcombined, hstep]
      show (c.apply (w.cache p)).counters = _ ↔ _
      rw [apply_counters_eq_iff]
      constructor
      · intro h c' hc'
        rw [hr] at hc'
        cases hc'
        exact h
      · exact fun h => h c hr

/-- What a fresh record does to the counters on disk. -/
lemma onDisk_record {w : FundStore π} {p : π} {now : ℕ} {r : FundRecord}
    (h : w.Fresh (.record p now r)) : (w.step (.record p now r)).onDisk = w.onDisk.recorded r := by
  -- as if it were the first one
  have hw := (@onDisk_step_iff π _ w.file { w with records := [] } rfl (.record p now r)).2 h
  rw [combined] at hw
  cases hr : (w.cache p).record now r with
  | ok s =>
    simp only [step, hr] at hw ⊢
    exact hw
  | error e =>
    simp only [step, hr] at hw ⊢
    exact hw

/-- The file holds the combined effect of all records all along a run exactly when every
record of the run comes from a copy that agrees with the file. -/
theorem no_lost_update_iff (now : ℕ) (file : Option FundState) (as : List (Action π)) :
    (∀ as', as' <+: as → (as'.foldl step (start now file)).onDisk =
        combined file (as'.foldl step (start now file))) ↔
      TransitionSystem.Along step Fresh (start now file) as := by
  refine TransitionSystem.forall_prefix_iff_along (J := fun _ : FundStore π => True)
    (P := fun w : FundStore π => w.onDisk = combined file w) ?_ ?_ trivial rfl as
  · exact fun _ _ _ => trivial
  · exact fun w a _ hw => onDisk_step_iff hw a

/-- Not every interleaving keeps every update: two processes count one position each, the
second from the copy it loaded at its start, and the file counts one. -/
theorem second_record_overwrites_first :
    ¬ ∀ (now : ℕ) (file : Option FundState) (as : List (Action Bool)),
      (as.foldl step (start now file)).onDisk =
        combined file (as.foldl step (start now file)) := by
  intro h
  have hdisk := h 0 none [.record true 1 .positionOpened, .record false 2 .positionOpened]
  revert hdisk
  decide

end FundStore

end ArwaAgent
