import ArwaAgent.Contracts.DepositRefinement

/-!
# Solvency: who can be paid with whose money

`deposit` credits an amount that the caller names, and nothing ties it to motes that
arrived in the purse.  So what an account is paid is bounded by what it has declared
(`paidTo_le_depositedBy`), and by what it has put in exactly as far as its deposits
are backed: each accepted deposit covered by motes that the account has sent to the
purse and not yet deposited (`Backed`).  Without that, `unbacked_run` drains the
purse that another account filled.
-/

namespace ArwaAgent

open StakeholderDeposit (Call)

instance (s : StakeholderDeposit) (amount : UInt64) (label kind hint : String) :
    Decidable (s.Admits amount label kind hint) :=
  inferInstanceAs (Decidable (_ ∧ _))

/-- Side condition on the steps of a run, for the account `a`: a deposit of `a` that passes
the checks is covered by what `a` has put into the purse beyond its earlier deposits. -/
def Backed (a : Address) (w : DepositWorld) : DepositWorld.Action → Prop
  | .call caller _ (.deposit amount label kind hint _) =>
    caller = a → w.contract.Admits amount label kind hint →
      depositedBy w.history a + amount.toNat ≤ fundedBy w.history a
  | _ => True

instance (a : Address) (w : DepositWorld) : ∀ act, Decidable (Backed a w act)
  | .fund _ _ => inferInstanceAs (Decidable True)
  | .call _ _ (.withdraw _) => inferInstanceAs (Decidable True)
  | .call _ _ (.transferOwnership _) => inferInstanceAs (Decidable True)
  | .call _ _ (.setPaused _) => inferInstanceAs (Decidable True)
  | .call _ _ (.deposit _ _ _ _ _) => inferInstanceAs (Decidable (_ → _ → _))

section

variable {owner : Address} {maxHistory : UInt32} {w : DepositWorld}

/-- Nobody is paid more than the amounts of its own accepted deposits. -/
theorem paidTo_le_depositedBy (h : (DepositWorld.system owner maxHistory).Reachable w)
    (a : Address) : paidTo w.history a ≤ depositedBy w.history a := by
  obtain ⟨log, hrun, -⟩ := exists_refines h
  rw [hrun.paidTo_eq, hrun.depositedBy_eq]
  exact principal_mono fun d hd => hd.2

/-- If every deposit of an account is backed, its deposits stay below what it has put in. -/
lemma depositedBy_le_fundedBy {a : Address}
    (h : (DepositWorld.system owner maxHistory).ReachableVia (Backed a) w) :
    depositedBy w.history a ≤ fundedBy w.history a := by
  induction h with
  | init h =>
    subst h
    exact Nat.le_refl 0
  | @step w w' act hs hok ht ih =>
    obtain ⟨log, hrun, href⟩ := exists_refines hs.reachable
    obtain ⟨log', htrans⟩ := DepositWorld.transition href.records act
    rw [ht]
    generalize w.step act = w₁ at htrans
    cases htrans with
    | reverted act => exact ih
    | funded payer amount =>
      rw [depositedBy_append, fundedBy_append]
      exact Nat.le_add_right_of_le ih
    | administered hd hw =>
      rw [DepositWorld.commit, depositedBy_append, fundedBy_append, hd]
      exact ih
    | deposited hnew hadm hring =>
      rw [DepositWorld.commit, depositedBy_append, fundedBy_append]
      simp only [Receipt.deposited, Receipt.payment, Option.elim_some, Option.elim_none,
        Deposit.announced, hnew, StakeholderDeposit.newDeposit, DepositWorld.env, Nat.add_zero]
      split
      · next hcaller => exact hok hcaller hadm
      · exact ih
    | withdrew hlive hj hact hpurse hpaused =>
      rw [DepositWorld.commit, depositedBy_append, fundedBy_append]
      exact ih

/-- An account whose deposits are all backed is never paid more than it has put into the
purse, whatever the other accounts do. -/
theorem paidTo_le_fundedBy {a : Address}
    (h : (DepositWorld.system owner maxHistory).ReachableVia (Backed a) w) :
    paidTo w.history a ≤ fundedBy w.history a :=
  (paidTo_le_depositedBy h.reachable a).trans (depositedBy_le_fundedBy h)

end

/-! ### Runs -/

/-- One account funds the purse, deposits, and takes its principal back. -/
def backedRun : List DepositWorld.Action :=
  [.fund (.account 1) 100,
    .call (.account 1) 10 (.deposit 100 "Mall XYZ Operator" "parking" "auto" 1),
    .call (.account 1) 20 (.withdraw 1)]

/-- The theorem at work on a run that pays 100 motes back. -/
theorem paidTo_le_fundedBy_backedRun :
    paidTo (DepositWorld.after 8 backedRun).history (.account 1) ≤
        fundedBy (DepositWorld.after 8 backedRun).history (.account 1) ∧
      paidTo (DepositWorld.after 8 backedRun).history (.account 1) = 100 :=
  ⟨@paidTo_le_fundedBy (.account 9) 8 _ _
    (TransitionSystem.ReachableVia.foldl (.init rfl) (by decide)), by decide⟩

/-- Account 1 funds the purse and deposits; account 2 deposits the same amount without
sending anything, and withdraws it. -/
def unbackedRun : List DepositWorld.Action :=
  [.fund (.account 1) 100,
    .call (.account 1) 10 (.deposit 100 "Mall XYZ Operator" "parking" "auto" 1),
    .call (.account 2) 11 (.deposit 100 "Spotify-Royalty-Q2" "royalty" "auto" 1),
    .call (.account 2) 12 (.withdraw 2)]

/-- Not every run keeps every account's payments below its own contributions: in
`unbackedRun` account 2 is paid the motes of account 1. -/
theorem unbacked_deposit_is_paid :
    ¬ ∀ (owner : Address) (maxHistory : UInt32) (w : DepositWorld),
      (DepositWorld.system owner maxHistory).Reachable w →
        ∀ a, paidTo w.history a ≤ fundedBy w.history a := by
  intro h
  have hle := h (.account 9) 8 (DepositWorld.after 8 unbackedRun)
    (DepositWorld.reachable_after 8 unbackedRun) (.account 2)
  exact absurd hle (by decide)

end ArwaAgent
