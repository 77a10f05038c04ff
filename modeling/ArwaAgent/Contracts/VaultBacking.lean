import ArwaAgent.Contracts.VaultCustody

/-!
# When positions are backed by custodied funds

The positions of the vault are the trail of what the agent did with the motes in
custody, so the open ones should never sum to more than the vault holds: what is in
custody and what the positions have yielded.  No entry point checks this.  Opening a
position looks at the amount and at the lengths of the texts only; taking motes out
looks at the motes in custody but not at the open positions, and no entry point ever
closes one.

`positions_backed_iff` says exactly which runs keep the positions backed: those in
which every accepted opening and every accepted withdrawal fits the part of the
holdings that no open position takes up.
-/

namespace ArwaAgent

namespace AgentVault

/-- The motes the vault holds: those in custody, and the yield realised. -/
def holdings (self : AgentVault) : ℕ :=
  self.custodiedCspr.toNat + self.totalYieldRealised.toNat

/-- The motes committed to the positions that are not closed. -/
def openAmount (self : AgentVault) : ℕ :=
  (self.positions.map fun p => if p.isClosed then 0 else p.amount.toNat).sum

/-- The open positions are backed by what the vault holds. -/
def PositionsBacked (self : AgentVault) : Prop := self.openAmount ≤ self.holdings

instance (self : AgentVault) : Decidable self.PositionsBacked :=
  inferInstanceAs (Decidable (_ ≤ _))

/-- Side condition on a call: the motes that it commits to a position or takes out, if its
checks pass, are not taken up by an open position. -/
def Covered (self : AgentVault) (q : Request Call) : Prop :=
  match q.call with
  | .recordStrategyExecution kind target amount openedTx =>
    self.AdmitsRecord q.env kind target amount openedTx →
      self.openAmount + amount.toNat ≤ self.holdings
  | .withdrawForStrategy amount reason =>
    self.AdmitsWithdraw q.env amount reason → self.openAmount + amount.toNat ≤ self.holdings
  | _ => True

variable {self : AgentVault}

lemma openAmount_opened (o : Opening) :
    (self.opened o).openAmount = self.openAmount + o.amount.toNat := by
  show ((self.positions ++ [_]).map _).sum = _
  rw [List.map_append, List.sum_append]
  rfl

lemma openAmount_credited {j : ℕ} {p : Position} (hp : self.positions[j]? = some p)
    (realised total : U256) : (self.credited j p realised total).openAmount = self.openAmount := by
  have hset := sum_map_set (fun p : Position => if p.isClosed then 0 else p.amount.toNat) hp
    { p with realisedYield := realised }
  show ((self.positions.set j _).map _).sum = (self.positions.map _).sum
  simp only at hset
  omega

lemma holdings_withdrawn {amount : U256} (hle : amount ≤ self.custodiedCspr) :
    (self.withdrawn amount).holdings + amount.toNat = self.holdings := by
  show (self.custodiedCspr - amount).toNat + self.totalYieldRealised.toNat + _ = _
  rw [BitVec.toNat_sub_of_le hle, holdings]
  rw [BitVec.le_def] at hle
  omega

end AgentVault

open AgentVault

/-- A step keeps the positions backed exactly when it is covered. -/
lemma positionsBacked_step_iff {w : VaultChain} (hI : Custody w.contract w.history)
    (hb : w.contract.PositionsBacked) (q : Request Call) :
    (Chain.step exec w q).contract.PositionsBacked ↔ w.contract.Covered q := by
  have hopen : w.contract.openAmount ≤ w.contract.holdings := hb
  obtain ⟨env, call⟩ := q
  rcases @Chain.step_cases _ _ _ exec w ⟨env, call⟩ with ⟨c, hc, hstep⟩ | ⟨e, he, hstep⟩
  · rw [hstep]
    cases call with
    | registerAgent agent =>
      obtain ⟨-, rfl⟩ := registerAgent_eq_ok_iff.1 hc
      exact ⟨fun _ => trivial, fun _ => hb⟩
    | unregisterAgent agent =>
      obtain ⟨-, rfl⟩ := unregisterAgent_eq_ok_iff.1 hc
      exact ⟨fun _ => trivial, fun _ => hb⟩
    | executeStrategy args =>
      obtain ⟨-, -, slots, head, -, rfl⟩ := contract_of_executeStrategy hc
      exact ⟨fun _ => trivial, fun _ => hb⟩
    | depositForStrategy amount source =>
      obtain ⟨-, -, -, custodied, total, hcust, -, rfl⟩ := depositForStrategy_eq_ok_iff.1 hc
      refine ⟨fun _ => trivial, fun _ => ?_⟩
      show w.contract.openAmount ≤ custodied.toNat + w.contract.totalYieldRealised.toNat
      rw [holdings] at hopen
      omega
    | recordStrategyExecution kind target amount openedTx =>
      obtain ⟨hadm, rfl⟩ := recordStrategyExecution_eq_ok_iff.1 hc
      rw [PositionsBacked, openAmount_opened]
      exact ⟨fun h _ => h, fun h => h hadm⟩
    | recordYieldRealised positionId yieldAmount sourceTx =>
      obtain ⟨-, -, -, j, p, realised, total, -, hp, -, htotal, rfl⟩ :=
        (recordYieldRealised_eq_ok_iff hI.room).1 hc
      refine ⟨fun _ => trivial, fun _ => ?_⟩
      rw [PositionsBacked, openAmount_credited hp]
      show _ ≤ w.contract.custodiedCspr.toNat + total.toNat
      rw [holdings] at hopen
      omega
    | withdrawForStrategy amount reason =>
      obtain ⟨hadm, rfl⟩ := withdrawForStrategy_eq_ok_iff.1 hc
      have hholdings := holdings_withdrawn hadm.2.2.1
      constructor
      · intro h _
        have hle : w.contract.openAmount ≤ (w.contract.withdrawn amount).holdings := h
        omega
      · intro h
        have hle := h hadm
        show w.contract.openAmount ≤ (w.contract.withdrawn amount).holdings
        omega
  · -- a call whose checks pass is accepted, so a reverted one is covered
    rw [hstep]
    refine ⟨fun _ => ?_, fun _ => hb⟩
    cases call with
    | recordStrategyExecution kind target amount openedTx =>
      intro hadm
      have hok := he.symm.trans (recordStrategyExecution_eq_ok_iff.2 ⟨hadm, rfl⟩)
      cases hok
    | withdrawForStrategy amount reason =>
      intro hadm
      have hok := he.symm.trans (withdrawForStrategy_eq_ok_iff.2 ⟨hadm, rfl⟩)
      cases hok
    | _ => trivial

lemma custody_chain_step {w : VaultChain} (hI : Custody w.contract w.history)
    (q : Request Call) :
    Custody (Chain.step exec w q).contract (Chain.step exec w q).history := by
  rcases @Chain.step_cases _ _ _ exec w q with ⟨c, hc, hstep⟩ | ⟨-, -, hstep⟩
  · rw [hstep]
    exact custody_step hI hc
  · rw [hstep]
    exact hI

/-- The positions are backed all along a run exactly when every step of it is covered. -/
theorem positions_backed_iff (owner agent : Address) (maxLogHistory : UInt32)
    (minStrategyAmount : U256) (qs : List (Request Call)) :
    (∀ qs', qs' <+: qs → (Chain.after exec (.init owner agent maxLogHistory minStrategyAmount)
        qs').contract.PositionsBacked) ↔
      TransitionSystem.Along (Chain.step exec) (fun w q => w.contract.Covered q)
        ⟨.init owner agent maxLogHistory minStrategyAmount, []⟩ qs := by
  refine TransitionSystem.forall_prefix_iff_along
    (J := fun w : VaultChain => Custody w.contract w.history)
    (P := fun w : VaultChain => w.contract.PositionsBacked) ?_ ?_ ?_ ?_ qs
  · exact fun w q hI => custody_chain_step hI q
  · exact fun w q hI hb => positionsBacked_step_iff hI hb q
  · exact custody_init owner agent maxLogHistory minStrategyAmount
  · exact Nat.le_refl 0

/-- The init agent opens a position before anything has been deposited. -/
def openedBeforeDeposit : List (Request Call) :=
  [{ env := { caller := .account 2, blockTime := 7, purse := 0 }
     call := .recordStrategyExecution "validator_delegate" "01aa" 60 "tx-1" }]

/-- Not every run keeps its positions backed: the vault accepts `openedBeforeDeposit`. -/
theorem unbacked_position_is_recorded :
    ¬ ∀ (owner agent : Address) (maxLogHistory : UInt32) (minStrategyAmount : U256)
      (w : VaultChain), (vaultSystem owner agent maxLogHistory minStrategyAmount).Reachable w →
        w.contract.PositionsBacked := by
  intro h
  have hb := h (.account 1) (.account 2) 50 1
    (Chain.after exec (.init (.account 1) (.account 2) 50 1) openedBeforeDeposit)
    (Chain.reachable_after _ _)
  revert hb
  decide

end ArwaAgent
