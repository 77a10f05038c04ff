import ArwaAgent.Contracts.DepositSpec
import ArwaAgent.Contracts.DepositWorld

/-!
# The ledger of all deposits, and its refinement by the contract

What the contract is for: a ledger to which accounts add deposits and from which
each deposit is paid back once, to the account that made it, in full.  The abstract
ledger is the list of the records of all accepted deposits, each in its current
version, the ones that the ring buffer has overwritten included.  A history moves it
by `LedgerStep`: an accepted deposit appends an active record with the next id, a
successful withdrawal settles one active record.

`DepositWorld.Transition` says once what a step of a run can do.  `refines_step`
connects the two levels: every step of the contract is a step of the ledger, and the
storage keeps the relation `Refines` to it.
-/

namespace ArwaAgent

open StakeholderDeposit (Call Accepted)

/-! ### Sums over a ledger -/

/-- The motes of the records that satisfy `p`. -/
def principal (p : Deposit → Prop) [DecidablePred p] (log : List Deposit) : ℕ :=
  (log.map fun d => if p d then d.amount.toNat else 0).sum

section Principal

variable {p q : Deposit → Prop} [DecidablePred p] [DecidablePred q] {log : List Deposit}

@[simp] lemma principal_nil : principal p [] = 0 := rfl

@[simp] lemma principal_cons (d : Deposit) :
    principal p (d :: log) = (if p d then d.amount.toNat else 0) + principal p log := rfl

@[simp] lemma principal_append_singleton (d : Deposit) :
    principal p (log ++ [d]) = principal p log + if p d then d.amount.toNat else 0 := by
  simp [principal]

/-- Editing one record moves the sum by what the record counted before and counts now. -/
lemma principal_set {j : ℕ} {d : Deposit} (hj : log[j]? = some d) (e : Deposit) :
    principal p (log.set j e) + (if p d then d.amount.toNat else 0) =
      principal p log + if p e then e.amount.toNat else 0 :=
  sum_map_set (fun d => if p d then d.amount.toNat else 0) hj e

lemma principal_mono (hpq : ∀ d, p d → q d) : principal p log ≤ principal q log := by
  induction log with
  | nil => exact Nat.le_refl 0
  | cons d log ih =>
    simp only [principal_cons]
    by_cases hp : p d
    · rw [if_pos hp, if_pos (hpq d hp)]
      omega
    · rw [if_neg hp]
      omega

/-- A record of the ledger counts towards the sum. -/
lemma le_principal {j : ℕ} {d : Deposit} (hj : log[j]? = some d) (hp : p d) :
    d.amount.toNat ≤ principal p log := by
  induction log generalizing j with
  | nil => simp at hj
  | cons x log ih =>
    rw [principal_cons]
    cases j with
    | zero =>
      cases hj
      rw [if_pos hp]
      omega
    | succ j =>
      have := ih hj
      omega

lemma principal_congr (hpq : ∀ d ∈ log, (p d ↔ q d)) : principal p log = principal q log := by
  rw [principal, principal]
  refine congrArg List.sum (List.map_congr_left fun d hd => ?_)
  simp only [hpq d hd]

lemma principal_or (hpq : ∀ d, p d → ¬ q d) :
    principal (fun d => p d ∨ q d) log = principal p log + principal q log := by
  induction log with
  | nil => rfl
  | cons d log ih =>
    simp only [principal_cons, ih]
    by_cases hp : p d
    · rw [if_pos hp, if_pos (Or.inl hp), if_neg (hpq d hp)]
      omega
    · rw [if_neg hp]
      by_cases hq : q d
      · rw [if_pos hq, if_pos (Or.inr hq)]
        omega
      · rw [if_neg hq, if_neg (by tauto)]
        omega

end Principal

/-! ### The abstract ledger -/

/-- One step of the ledger, under the receipt that reports it. -/
inductive LedgerStep (log : List Deposit) (r : Receipt) : List Deposit → Prop
  | opened {d : Deposit} (hact : d.status = .active)
      (hid : d.id = UInt64.ofNat (log.length + 1)) (hpos : 0 < d.amount)
      (hd : r.deposited = some d.announced) (hw : r.withdrew = none) :
      LedgerStep log r (log ++ [d])
  | settled {j : ℕ} {d : Deposit} {ts : UInt64} (hj : log[j]? = some d)
      (hact : d.status = .active) (hd : r.deposited = none)
      (hw : r.withdrew = some (d.id, ⟨d.stakeholder, d.amount.toNat⟩)) :
      LedgerStep log r (log.set j (d.settle ts))
  | unrelated (hd : r.deposited = none) (hw : r.withdrew = none) : LedgerStep log r log

/-- The ledger that a history leaves behind. -/
inductive LedgerRun : List Receipt → List Deposit → Prop
  | nil : LedgerRun [] []
  | snoc {h : List Receipt} {log log' : List Deposit} {r : Receipt} (hrun : LedgerRun h log)
      (hstep : LedgerStep log r log') : LedgerRun (h ++ [r]) log'

namespace LedgerRun

variable {h : List Receipt} {log : List Deposit}

lemma map_announced (hr : LedgerRun h log) : log.map Deposit.announced = depositsOf h := by
  induction hr with
  | nil => rfl
  | snoc hrun hstep ih =>
    rw [depositsOf_append, ← ih]
    cases hstep with
    | opened hact hid hpos hd hw =>
      rw [hd, List.map_append]
      rfl
    | settled hj hact hd hw =>
      obtain ⟨hlt, rfl⟩ := List.getElem?_eq_some_iff.1 hj
      rw [hd, List.map_set, Deposit.announced_settle, Option.toList_none, List.append_nil,
        ← List.getElem_map Deposit.announced (h := by simpa using hlt), List.set_getElem_self]
    | unrelated hd hw => rw [hd, Option.toList_none, List.append_nil]

lemma depositedBy_eq (hr : LedgerRun h log) (a : Address) :
    depositedBy h a = principal (fun d => d.stakeholder = a) log := by
  rw [depositedBy, ← hr.map_announced, List.map_map]
  rfl

lemma depositedSum_eq (hr : LedgerRun h log) :
    depositedSum h = principal (fun _ => True) log := by
  rw [depositedSum, ← hr.map_announced, List.map_map]
  simp [principal, Function.comp_def, Deposit.announced]

/-- Ids are handed out in order, starting from 1. -/
lemma id_eq (hr : LedgerRun h log) :
    ∀ (j : ℕ) (d : Deposit), log[j]? = some d → d.id = UInt64.ofNat (j + 1) := by
  induction hr with
  | nil =>
    intro j d hj
    simp at hj
  | @snoc _ log _ _ hrun hstep ih =>
    intro j d hj
    cases hstep with
    | opened hact hid hpos hd hw =>
      rcases getElem?_snoc_eq_some_iff.1 hj with hold | ⟨rfl, rfl⟩
      · exact ih j d hold
      · exact hid
    | @settled k e ts hk hact hd hw =>
      by_cases hjk : k = j
      · subst hjk
        rw [List.getElem?_set_self (List.getElem?_eq_some_iff.1 hk).1] at hj
        cases hj
        exact ih k e hk
      · rw [List.getElem?_set_ne hjk] at hj
        exact ih j d hj
    | unrelated hd hw => exact ih j d hj

/-- Records with equal ids sit at the same place, unless 2^64 deposits lie between them. -/
lemma id_inj_of_near (hr : LedgerRun h log) {j k : ℕ} {d e : Deposit} (hj : log[j]? = some d)
    (hk : log[k]? = some e) (hjk : j < k + 2 ^ 64) (hkj : k < j + 2 ^ 64) (hid : d.id = e.id) :
    j = k := by
  have hn := congrArg UInt64.toNat ((hr.id_eq j d hj).symm.trans (hid.trans (hr.id_eq k e hk)))
  rw [UInt64.toNat_ofNat', UInt64.toNat_ofNat'] at hn
  omega

/-- Before ids wrap, equal ids mean the same record. -/
lemma id_inj (hr : LedgerRun h log) {j k : ℕ} {d e : Deposit} (hj : log[j]? = some d)
    (hk : log[k]? = some e) (hlen : log.length < 2 ^ 64) (hid : d.id = e.id) : j = k := by
  have hjlt := (List.getElem?_eq_some_iff.1 hj).1
  have hklt := (List.getElem?_eq_some_iff.1 hk).1
  exact hr.id_inj_of_near hj hk (by omega) (by omega) hid

/-- What an account has been paid is the principal of its settled records. -/
lemma paidTo_eq (hr : LedgerRun h log) (a : Address) :
    paidTo h a = principal (fun d => d.status = .withdrawn ∧ d.stakeholder = a) log := by
  induction hr with
  | nil => rfl
  | snoc hrun hstep ih =>
    rw [paidTo_append, ih]
    cases hstep with
    | @opened d hact hid hpos hd hw =>
      rw [hw, principal_append_singleton, if_neg (by rw [hact]; simp)]
      rfl
    | @settled j d ts hj hact hd hw =>
      have hset := principal_set (p := fun d => d.status = .withdrawn ∧ d.stakeholder = a) hj
        (d.settle ts)
      simp only [Deposit.settle, hact, reduceCtorEq, false_and, if_false, true_and] at hset
      rw [hw, Option.elim_some, Deposit.settle]
      simp only
      omega
    | unrelated hd hw =>
      rw [hw]
      rfl

/-- Every payment pays some accepted deposit in full to the account that made it. -/
lemma exists_deposit_of_mem_withdrawals (hr : LedgerRun h log) :
    ∀ w ∈ withdrawalsOf h, ∃ e ∈ depositsOf h, e.id = w.1 ∧ w.2 = ⟨e.stakeholder, e.amount.toNat⟩ := by
  induction hr with
  | nil =>
    intro w hw
    cases hw
  | snoc hrun hstep ih =>
    intro w hmem
    rw [withdrawalsOf_append, List.mem_append, Option.mem_toList] at hmem
    rw [depositsOf_append]
    rcases hmem with hold | hnew
    · obtain ⟨e, he, hw⟩ := ih w hold
      exact ⟨e, List.mem_append_left _ he, hw⟩
    · cases hstep with
      | opened hact hid hpos hd hw => rw [hw] at hnew; cases hnew
      | @settled j d ts hj hact hd hw =>
        rw [hw] at hnew
        cases hnew
        refine ⟨d.announced, List.mem_append_left _ ?_, rfl, rfl⟩
        rw [← hrun.map_announced]
        exact List.mem_map_of_mem (List.mem_of_getElem? hj)
      | unrelated hd hw => rw [hw] at hnew; cases hnew

/-- Before ids wrap, a record is paid once when it is settled, and not otherwise. -/
lemma countP_withdrawals (hr : LedgerRun h log) (hlen : log.length < 2 ^ 64) :
    ∀ (j : ℕ) (d : Deposit), log[j]? = some d →
      (withdrawalsOf h).countP (fun w => w.1 = d.id) = if d.status = .withdrawn then 1 else 0 := by
  induction hr with
  | nil =>
    intro j d hj
    simp at hj
  | @snoc h log log' r hrun hstep ih =>
    intro j d hj
    rw [withdrawalsOf_append, List.countP_append]
    have hall := LedgerRun.snoc hrun hstep
    cases hstep with
    | @opened e hact hid hpos hd hw =>
      rw [List.length_append, List.length_singleton] at hlen
      rw [hw]
      rcases getElem?_snoc_eq_some_iff.1 hj with hold | ⟨rfl, rfl⟩
      · exact ih (by omega) j d hold
      · -- no payment has carried the new id yet
        rw [hact, if_neg (by simp), Option.toList_none, List.countP_nil, Nat.add_zero,
          List.countP_eq_zero]
        intro w hmem hid'
        obtain ⟨a, ha, haid, -⟩ := hrun.exists_deposit_of_mem_withdrawals w hmem
        rw [← hrun.map_announced, List.mem_map] at ha
        obtain ⟨b, hb, rfl⟩ := ha
        obtain ⟨k, hk⟩ := List.mem_iff_getElem?.1 hb
        have hklt := (List.getElem?_eq_some_iff.1 hk).1
        have hk' : (log ++ [d])[k]? = some b := getElem?_snoc_eq_some_iff.2 (Or.inl hk)
        have hbd : b.id = d.id := haid.trans (of_decide_eq_true hid')
        have := hall.id_inj hk' hj (by rw [List.length_append, List.length_singleton]; omega) hbd
        omega
    | @settled k e ts hk hact hd hw =>
      rw [List.length_set] at hlen
      have hklt := (List.getElem?_eq_some_iff.1 hk).1
      rw [hw, Option.toList_some, List.countP_singleton]
      by_cases hkj : k = j
      · subst hkj
        rw [List.getElem?_set_self hklt] at hj
        cases hj
        have hold := ih hlen k e hk
        rw [hact, if_neg (by simp)] at hold
        show (withdrawalsOf h).countP (fun w => w.1 = e.id) + _ = _
        rw [hold]
        simp [Deposit.settle]
      · rw [List.getElem?_set_ne hkj] at hj
        have hne : e.id ≠ d.id := fun hid => hkj (hrun.id_inj hk hj hlen hid)
        rw [ih hlen j d hj]
        simp [hne]
    | unrelated hd hw =>
      rw [hw]
      exact ih hlen j d hj

/-- Before ids wrap, the settled records are those whose id has been withdrawn. -/
lemma withdrawn_iff (hr : LedgerRun h log) (hlen : log.length < 2 ^ 64) {j : ℕ} {d : Deposit}
    (hj : log[j]? = some d) : Withdrawn h d.id ↔ d.status = .withdrawn := by
  have hcount := hr.countP_withdrawals hlen j d hj
  have hpos : Withdrawn h d.id ↔ 0 < (withdrawalsOf h).countP (fun w => w.1 = d.id) := by
    rw [List.countP_pos_iff, Withdrawn, List.mem_map]
    simp
  rw [hpos, hcount]
  split <;> simp [*]

end LedgerRun

end ArwaAgent
