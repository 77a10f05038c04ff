import ArwaAgent.Contracts.DepositRefinement
import Mathlib.Algebra.BigOperators.Group.Finset.Piecewise

/-!
# Conservation of the counters

As long as the accepted deposits sum to less than 2^64, the counters of the contract
are exact: deposited is active plus withdrawn, the active total is the sum of the
balances, and a balance is what its account has deposited and never withdrawn, the
overwritten deposits included.  The subtractions of `withdraw` never clamp.
-/

namespace ArwaAgent

open StakeholderDeposit (Call Accepted)

/-- The motes of an account's accepted deposits that were never withdrawn. -/
def neverWithdrawnBy (history : List Receipt) (a : Address) : ℕ :=
  ((depositsOf history).map fun e =>
    if e.stakeholder = a ∧ ¬ Withdrawn history e.id then e.amount.toNat else 0).sum

section

variable {owner : Address} {maxHistory : UInt32} {w : DepositWorld} {log : List Deposit}

/-- Every deposit counts at least one mote, so there are at most as many as motes. -/
lemma LedgerRun.length_le_principal {h : List Receipt} (hrun : LedgerRun h log) :
    log.length ≤ principal (fun _ => True) log := by
  induction hrun with
  | nil => exact Nat.le_refl 0
  | snoc hrun hstep ih =>
    cases hstep with
    | @opened d hact hid hpos hd hw =>
      have hpos' : 0 < d.amount.toNat := UInt64.lt_iff_toNat_lt.1 hpos
      rw [List.length_append, List.length_singleton, principal_append_singleton, if_pos trivial]
      omega
    | @settled j d ts hj hact hd hw =>
      have hset := principal_set (p := fun _ => True) hj (d.settle ts)
      simp only [if_true, Deposit.settle] at hset
      rw [List.length_set]
      simp only [Deposit.settle]
      omega
    | unrelated hd hw => exact ih

/-- Summing over the accounts counts every record once. -/
lemma sum_principal (p : Deposit → Prop) [DecidablePred p] (log : List Deposit) :
    ∑ a, principal (fun d => p d ∧ d.stakeholder = a) log = principal p log := by
  induction log with
  | nil => simp
  | cons d log ih =>
    simp only [principal_cons, Finset.sum_add_distrib, ih]
    by_cases hp : p d
    · simp [hp]
    · simp [hp]

/-- The active records of an account are its deposits that were never withdrawn. -/
lemma principal_active_eq {h : List Receipt} (hrun : LedgerRun h log) (hlen : log.length < 2 ^ 64)
    (a : Address) :
    principal (fun d => d.status = .active ∧ d.stakeholder = a) log = neverWithdrawnBy h a := by
  rw [neverWithdrawnBy, ← hrun.map_announced, List.map_map]
  show _ = principal (fun d => d.stakeholder = a ∧ ¬ Withdrawn h d.id) log
  refine principal_congr fun d hd => ?_
  obtain ⟨j, hj⟩ := List.mem_iff_getElem?.1 hd
  rw [hrun.withdrawn_iff hlen hj]
  cases d.status <;> simp

/-! ### Runs without a withdrawal -/

lemma depositedSum_deposit (h : (DepositWorld.system owner maxHistory).Reachable w)
    {caller : Address} {ts amount nonce : UInt64} {label kind hint : String} {acc : Accepted}
    (hexec : w.contract.exec (w.env caller ts) (.deposit amount label kind hint nonce) = .ok acc) :
    depositedSum (w.step (.call caller ts (.deposit amount label kind hint nonce))).history =
        depositedSum w.history + amount.toNat ∧
      withdrawalsOf (w.step (.call caller ts (.deposit amount label kind hint nonce))).history =
        withdrawalsOf w.history := by
  obtain ⟨log, -, href⟩ := exists_refines h
  rw [DepositWorld.step, hexec]
  obtain ⟨-, deposits, head, -, rfl⟩ := StakeholderDeposit.deposit_spec href.records hexec
  refine ⟨sum_filterMap_snoc _ _ _ _, ?_⟩
  show withdrawalsOf (w.history ++ [_]) = _
  rw [withdrawalsOf_append]
  exact List.append_nil _

/-- Without a withdrawal both totals are what has been deposited, as long as that fits. -/
lemma totals_eq_depositedSum (h : (DepositWorld.system owner maxHistory).Reachable w)
    (hnone : withdrawalsOf w.history = []) (hsum : depositedSum w.history < 2 ^ 64) :
    w.contract.getTotalActive.toNat = depositedSum w.history ∧
      w.contract.getTotalDeposited.toNat = depositedSum w.history := by
  obtain ⟨log, hrun, href⟩ := exists_refines h
  rw [hrun.depositedSum_eq] at hsum ⊢
  have hcounted := href.counted hsum
  have hlen := hrun.length_le_principal
  refine ⟨?_, hcounted.deposited⟩
  rw [StakeholderDeposit.getTotalActive, hcounted.active]
  refine principal_congr fun d hd => ⟨fun _ => trivial, fun _ => ?_⟩
  obtain ⟨j, hj⟩ := List.mem_iff_getElem?.1 hd
  -- a record that is not active has been withdrawn
  have hw := hrun.withdrawn_iff (by omega) hj
  rw [Withdrawn, hnone] at hw
  cases hs : d.status with
  | active => rfl
  | withdrawn => simp [hs] at hw

/-- The counters are exact, and the subtractions of `withdraw` never clamp, as long as the
accepted deposits sum to less than 2^64. -/
theorem counters_exact (h : (DepositWorld.system owner maxHistory).Reachable w)
    (hsum : depositedSum w.history < 2 ^ 64) :
    w.contract.getTotalDeposited.toNat =
        w.contract.getTotalActive.toNat + w.contract.getTotalWithdrawn.toNat ∧
    w.contract.getTotalActive.toNat = ∑ a, (w.contract.getStakeholderBalance a).toNat ∧
    (∀ a, (w.contract.getStakeholderBalance a).toNat = neverWithdrawnBy w.history a) ∧
    (∀ (caller : Address) (ts depositId : UInt64) (acc : Accepted),
      w.contract.exec (w.env caller ts) (.withdraw depositId) = .ok acc →
        ∃ t, acc.transfer = some t ∧ t.amount ≤ (w.contract.stakeholderActive caller).toNat ∧
          t.amount ≤ w.contract.totalActive.toNat) := by
  obtain ⟨log, hrun, href⟩ := exists_refines h
  rw [hrun.depositedSum_eq] at hsum
  have hcounted := href.counted hsum
  have hlen := hrun.length_le_principal
  refine ⟨?_, ?_, ?_, ?_⟩
  · have hor : principal (fun d => d.status = .active ∨ d.status = .withdrawn) log = _ :=
      principal_or fun d hp => by rw [hp]; simp
    have hall : principal (fun _ => True) log =
        principal (fun d => d.status = .active ∨ d.status = .withdrawn) log :=
      principal_congr fun d _ => by cases d.status <;> simp
    rw [StakeholderDeposit.getTotalDeposited, StakeholderDeposit.getTotalActive,
      StakeholderDeposit.getTotalWithdrawn, hcounted.deposited, hcounted.active,
      hcounted.withdrawn, hall, hor]
  · rw [StakeholderDeposit.getTotalActive, hcounted.active, ← sum_principal]
    exact Finset.sum_congr rfl fun a _ => (hcounted.stakeholder a).symm
  · intro a
    rw [StakeholderDeposit.getStakeholderBalance, hcounted.stakeholder,
      principal_active_eq hrun (by omega)]
  · intro caller ts depositId acc hexec
    obtain ⟨-, i, d, hd, -, -, hs, hact, -, rfl⟩ :=
      (StakeholderDeposit.withdraw_eq_ok_iff href.records).1 hexec
    obtain ⟨j, hlive, hj⟩ := href.records.mem_slots_iff.1 (List.mem_of_getElem? hd)
    refine ⟨_, rfl, ?_, ?_⟩
    · rw [hcounted.stakeholder]
      exact le_principal hj ⟨hact, hs⟩
    · rw [hcounted.active]
      exact le_principal hj hact

end

/-- The theorem at work on the contract with one slot, where the first deposit of account 1
has been overwritten: its balance still counts it. -/
theorem counters_exact_after_overwrite :
    ((DepositWorld.after 1 twoDeposits).contract.getStakeholderBalance (.account 1)).toNat =
        neverWithdrawnBy (DepositWorld.after 1 twoDeposits).history (.account 1) ∧
      neverWithdrawnBy (DepositWorld.after 1 twoDeposits).history (.account 1) = 100 :=
  ⟨(counters_exact (DepositWorld.reachable_after 1 twoDeposits) (by decide)).2.2.1 (.account 1),
    by decide⟩

end ArwaAgent
