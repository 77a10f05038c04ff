import ArwaAgent.Contracts.StakeholderDeposit
import ArwaAgent.Lib.History
import ArwaAgent.Lib.Transition

/-!
# Runs of the StakeholderDeposit contract

The world of a run is the storage of the contract, the contract's purse, and the
history of what happened: the accepted calls, each with the event it emitted and
the native transfer it made, and the native transfers into the purse.  A reverted
call leaves no trace.  Calls come from arbitrary accounts at arbitrary block times.

What the properties speak of is read off the history: the deposits that were
accepted, the withdrawals that were paid, what an account was paid and what it put
into the purse.
-/

namespace ArwaAgent

open StakeholderDeposit (Call Accepted)

/-- One entry of the history of a run. -/
inductive Receipt
  | accepted (caller : Address) (call : Call) (event : DepositEvent) (transfer : Option Transfer)
  | funded (payer : Address) (amount : ℕ)
deriving DecidableEq, Repr

namespace Receipt

/-- The deposit this entry reports. -/
def deposited : Receipt → Option StakeholderDeposited
  | accepted _ _ (.stakeholderDeposited e) _ => some e
  | _ => none

/-- The withdrawal this entry reports: the id that was asked for and the transfer made. -/
def withdrew : Receipt → Option (UInt64 × Transfer)
  | accepted _ (.withdraw depositId) _ (some t) => some (depositId, t)
  | _ => none

/-- The native transfer into the purse this entry reports. -/
def payment : Receipt → Option (Address × ℕ)
  | funded payer amount => some (payer, amount)
  | _ => none

end Receipt

section History

variable (history : List Receipt)

/-- The accepted deposits, in order. -/
def depositsOf : List StakeholderDeposited := history.filterMap Receipt.deposited

/-- The successful withdrawals, in order. -/
def withdrawalsOf : List (UInt64 × Transfer) := history.filterMap Receipt.withdrew

/-- The motes `withdraw` has paid to an account. -/
def paidTo (a : Address) : ℕ :=
  ((withdrawalsOf history).map fun w => if w.2.recipient = a then w.2.amount else 0).sum

/-- The motes an account has put into the contract's purse. -/
def fundedBy (a : Address) : ℕ :=
  ((history.filterMap Receipt.payment).map fun p => if p.1 = a then p.2 else 0).sum

/-- The motes of an account's accepted deposits. -/
def depositedBy (a : Address) : ℕ :=
  ((depositsOf history).map fun e => if e.stakeholder = a then e.amount.toNat else 0).sum

/-- The motes of all accepted deposits. -/
def depositedSum : ℕ := ((depositsOf history).map fun e => e.amount.toNat).sum

/-- Some call of `withdraw` with this id has succeeded. -/
def Withdrawn (id : UInt64) : Prop := id ∈ (withdrawalsOf history).map Prod.fst

instance (id : UInt64) : Decidable (Withdrawn history id) :=
  inferInstanceAs (Decidable (id ∈ (withdrawalsOf history).map Prod.fst))

end History

/-- The contract with its purse, and what has happened so far, oldest first. -/
structure DepositWorld where
  contract : StakeholderDeposit
  purse : ℕ
  history : List Receipt

namespace DepositWorld

/-- What can happen next: a call of an entry point, or a native transfer into the purse. -/
inductive Action
  | call (caller : Address) (blockTime : UInt64) (call : Call)
  | fund (payer : Address) (amount : ℕ)
deriving DecidableEq, Repr

/-- The freshly deployed contract. -/
def deployed (owner : Address) (maxHistory : UInt32) : DepositWorld where
  contract := .init owner maxHistory
  purse := 0
  history := []

/-- The environment a call is made in. -/
def env (w : DepositWorld) (caller : Address) (blockTime : UInt64) : Env where
  caller := caller
  blockTime := blockTime
  purse := w.purse

/-- The world after an accepted call. -/
def commit (w : DepositWorld) (caller : Address) (call : Call) (r : Accepted) : DepositWorld where
  contract := r.contract
  purse := w.purse - (r.transfer.elim 0 Transfer.amount)
  history := w.history ++ [.accepted caller call r.event r.transfer]

/-- One step of a run. -/
def step (w : DepositWorld) : Action → DepositWorld
  | .call caller blockTime call =>
    match w.contract.exec (w.env caller blockTime) call with
    | .ok r => w.commit caller call r
    | .error _ => w
  | .fund payer amount =>
    { w with purse := w.purse + amount, history := w.history ++ [.funded payer amount] }

/-- The runs of the contract deployed with a given owner and history size. -/
def system (owner : Address) (maxHistory : UInt32) : TransitionSystem DepositWorld Action :=
  .ofFun (deployed owner maxHistory) step

/-- The world after a run of the contract deployed by account 9 with `maxHistory` slots. -/
def after (maxHistory : UInt32) (as : List Action) : DepositWorld :=
  as.foldl step (deployed (.account 9) maxHistory)

theorem reachable_after (maxHistory : UInt32) (as : List Action) :
    (system (.account 9) maxHistory).Reachable (after maxHistory as) :=
  TransitionSystem.reachable_foldl _ _ as

end DepositWorld

/-- Account 1 funds the purse and deposits; another account deposits after it. -/
def twoDeposits : List DepositWorld.Action :=
  [.fund (.account 1) 100,
    .call (.account 1) 10 (.deposit 100 "Apt-3B-Jakarta" "rental" "auto" 1),
    .call (.account 2) 11 (.deposit 5 "Mall XYZ Operator" "parking" "auto" 1)]

/-! ### Reading a growing history -/

section History

variable (h : List Receipt) (r : Receipt)

lemma depositsOf_append : depositsOf (h ++ [r]) = depositsOf h ++ r.deposited.toList :=
  filterMap_snoc _ h r

lemma withdrawalsOf_append : withdrawalsOf (h ++ [r]) = withdrawalsOf h ++ r.withdrew.toList :=
  filterMap_snoc _ h r

lemma paidTo_append (a : Address) : paidTo (h ++ [r]) a = paidTo h a +
    r.withdrew.elim 0 fun w => if w.2.recipient = a then w.2.amount else 0 :=
  sum_filterMap_snoc _ _ h r

lemma depositedBy_append (a : Address) : depositedBy (h ++ [r]) a = depositedBy h a +
    r.deposited.elim 0 fun e => if e.stakeholder = a then e.amount.toNat else 0 :=
  sum_filterMap_snoc _ _ h r

lemma fundedBy_append (a : Address) : fundedBy (h ++ [r]) a = fundedBy h a +
    r.payment.elim 0 fun p => if p.1 = a then p.2 else 0 :=
  sum_filterMap_snoc _ _ h r

lemma withdrawn_append_iff (id : UInt64) : Withdrawn (h ++ [r]) id ↔
    Withdrawn h id ∨ ∃ t, r.withdrew = some (id, t) := by
  rw [Withdrawn, Withdrawn, withdrawalsOf_append, List.map_append, List.mem_append]
  cases r.withdrew with
  | none => simp
  | some w =>
    obtain ⟨id', t⟩ := w
    simp [eq_comm]

end History

end ArwaAgent
