import ArwaAgent.Contracts.DepositLedger

/-!
# The contract refines the ledger of all deposits

`DepositWorld.Transition` says once what a step of a run can do, and
`DepositWorld.transition` that every step is one of these.  `Refines` relates the
storage to the ledger: the ring buffer holds the last records, the counter gives the
next id, and, as long as the accepted amounts sum to less than 2^64, the counters
are the sums they stand for.  `exists_refines` carries the relation along every run.
-/

namespace ArwaAgent

open StakeholderDeposit (Call Accepted)

namespace DepositWorld

/-- What a step of a run can do to the world and to the ledger of all deposits. -/
inductive Transition (w : DepositWorld) (log : List Deposit) :
    Action → DepositWorld → List Deposit → Prop
  | reverted (a : Action) : Transition w log a w log
  | funded (payer : Address) (amount : ℕ) :
      Transition w log (.fund payer amount)
        { w with purse := w.purse + amount, history := w.history ++ [.funded payer amount] } log
  | administered {caller : Address} {ts : UInt64} {call : Call} {event : DepositEvent}
      {paused : Bool} (hd : (Receipt.accepted caller call event none).deposited = none)
      (hw : (Receipt.accepted caller call event none).withdrew = none) :
      Transition w log (.call caller ts call)
        (w.commit caller call ⟨{ w.contract with paused := paused }, event, none⟩) log
  | deposited {caller : Address} {ts amount nonce : UInt64} {label kind hint : String}
      {d : Deposit} {deposits : List Deposit} {head : UInt32}
      (hnew : d = w.contract.newDeposit (w.env caller ts) amount label kind hint nonce)
      (hadm : w.contract.Admits amount label kind hint)
      (hring : RingBuffer.Holds w.contract.cap.toNat deposits head.toNat (log ++ [d])) :
      Transition w log (.call caller ts (.deposit amount label kind hint nonce))
        (w.commit caller (.deposit amount label kind hint nonce)
          ⟨w.contract.opened d deposits head, .stakeholderDeposited d.announced, none⟩)
        (log ++ [d])
  | withdrew {ts : UInt64} {j : ℕ} {d : Deposit}
      (hlive : RingBuffer.Live w.contract.cap.toNat log.length j) (hj : log[j]? = some d)
      (hact : d.status = .active) (hpurse : d.amount.toNat ≤ w.purse)
      (hpaused : w.contract.paused = false) :
      Transition w log (.call d.stakeholder ts (.withdraw d.id))
        (w.commit d.stakeholder (.withdraw d.id)
          (w.contract.payout (w.env d.stakeholder ts) (j % w.contract.cap.toNat) d))
        (log.set j (d.settle ts))

variable {w w' : DepositWorld} {log log' : List Deposit} {a : Action}

theorem transition (h : w.contract.Records log) (a : Action) :
    ∃ log', Transition w log a (w.step a) log' := by
  cases a with
  | fund payer amount => exact ⟨log, .funded payer amount⟩
  | call caller ts call =>
    rw [step]
    cases hexec : w.contract.exec (w.env caller ts) call with
    | error e => exact ⟨log, .reverted _⟩
    | ok r =>
      cases call with
      | deposit amount label kind hint nonce =>
        obtain ⟨hadm, deposits, head, hring, rfl⟩ := StakeholderDeposit.deposit_spec h hexec
        exact ⟨_, .deposited rfl hadm hring⟩
      | withdraw depositId =>
        obtain ⟨hp, i, d, hd, -, rfl, hs, hact, hpurse, rfl⟩ :=
          (StakeholderDeposit.withdraw_eq_ok_iff h).1 hexec
        have hi := (List.getElem?_eq_some_iff.1 hd).1
        rw [h.length_eq] at hi
        -- the slot is that of a live record of the ledger
        obtain ⟨j, hlive, rfl⟩ := RingBuffer.exists_live_mod hi
        rw [h.slot j hlive] at hd
        have hcaller : caller = d.stakeholder := hs.symm
        subst hcaller
        exact ⟨_, .withdrew hlive hd hact hpurse hp⟩
      | transferOwnership newOwner =>
        rw [StakeholderDeposit.exec, StakeholderDeposit.transferOwnership,
          StakeholderDeposit.onlyOwner, require_bind_eq_ok_iff] at hexec
        obtain ⟨-, hr⟩ := hexec
        cases hr
        exact ⟨log, @Transition.administered _ _ _ _ _ _ w.contract.paused rfl rfl⟩
      | setPaused paused =>
        rw [StakeholderDeposit.exec, StakeholderDeposit.setPaused,
          StakeholderDeposit.onlyOwner, require_bind_eq_ok_iff] at hexec
        obtain ⟨-, hr⟩ := hexec
        cases hr
        exact ⟨log, .administered rfl rfl⟩

/-- A transition moves the ledger by a ledger step. -/
lemma Transition.ledgerRun (ht : Transition w log a w' log')
    (hcount : w.contract.depositCount = UInt64.ofNat log.length)
    (hrun : LedgerRun w.history log) : LedgerRun w'.history log' := by
  cases ht with
  | reverted a => exact hrun
  | funded payer amount => exact .snoc hrun (.unrelated rfl rfl)
  | administered hd hw => exact .snoc hrun (.unrelated hd hw)
  | deposited hnew hadm hring =>
    refine .snoc hrun (.opened ?_ ?_ ?_ rfl rfl)
    · rw [hnew]
      rfl
    · rw [hnew, UInt64.ofNat_add, UInt64.ofNat_one, ← hcount]
      rfl
    · rw [hnew]
      exact hadm.2.1
  | withdrew hlive hj hact hpurse hpaused => exact .snoc hrun (.settled hj hact rfl rfl)

end DepositWorld

/-- The counters are the sums over the ledger that they stand for. -/
structure Counted (s : StakeholderDeposit) (log : List Deposit) : Prop where
  deposited : s.totalDeposited.toNat = principal (fun _ => True) log
  active : s.totalActive.toNat = principal (fun d => d.status = .active) log
  withdrawn : s.totalWithdrawn.toNat = principal (fun d => d.status = .withdrawn) log
  stakeholder : ∀ a, (s.stakeholderActive a).toNat =
    principal (fun d => d.status = .active ∧ d.stakeholder = a) log

/-- The storage of the contract represents the ledger. -/
structure Refines (s : StakeholderDeposit) (log : List Deposit) : Prop where
  records : s.Records log
  count : s.depositCount = UInt64.ofNat log.length
  counted : principal (fun _ => True) log < 2 ^ 64 → Counted s log

lemma refines_init (owner : Address) (maxHistory : UInt32) :
    Refines (.init owner maxHistory) [] where
  records := StakeholderDeposit.records_init owner maxHistory
  count := rfl
  counted := fun _ => ⟨rfl, rfl, rfl, fun _ => rfl⟩

section Step

variable {s : StakeholderDeposit} {log : List Deposit} {d : Deposit}

lemma principal_active_le (a : Address) :
    principal (fun d => d.status = .active ∧ d.stakeholder = a) log ≤
      principal (fun _ => True) log :=
  principal_mono fun _ _ => trivial

/-- Opening a record keeps the counters exact, as long as the sum fits a `u64`. -/
lemma Counted.opened (h : Counted s log) (hact : d.status = .active)
    (hsum : principal (fun _ => True) (log ++ [d]) < 2 ^ 64) (deposits : List Deposit)
    (head : UInt32) : Counted (s.opened d deposits head) (log ++ [d]) := by
  rw [principal_append_singleton, if_pos trivial] at hsum
  have hactive : principal (fun d => d.status = .active) log ≤ principal (fun _ => True) log :=
    principal_mono fun _ _ => trivial
  refine ⟨?_, ?_, ?_, ?_⟩
  · rw [principal_append_singleton, if_pos trivial, ← h.deposited]
    exact toNat_add_of_lt (by rw [h.deposited]; omega)
  · rw [principal_append_singleton, if_pos hact, ← h.active]
    exact toNat_add_of_lt (by rw [h.active]; omega)
  · rw [principal_append_singleton, if_neg (by rw [hact]; simp), ← h.withdrawn]
    rfl
  · intro a
    have hle : _ ≤ principal (fun _ => True) log := principal_active_le a
    rw [principal_append_singleton, ← h.stakeholder a, StakeholderDeposit.opened]
    by_cases ha : d.stakeholder = a
    · subst ha
      rw [if_pos ⟨hact, rfl⟩]
      simp only [Function.update_self]
      exact toNat_add_of_lt (by rw [h.stakeholder]; omega)
    · rw [if_neg (fun hc => ha hc.2)]
      simp only [Function.update_of_ne (Ne.symm ha), Nat.add_zero]

/-- Settling an active record keeps the counters exact; no subtraction clamps. -/
lemma Counted.settled (h : Counted s log) {j : ℕ} (hj : log[j]? = some d)
    (hact : d.status = .active) (hsum : principal (fun _ => True) log < 2 ^ 64) (i : ℕ)
    (ts : UInt64) : Counted (s.settled i d ts) (log.set j (d.settle ts)) := by
  have hset := fun (p : Deposit → Prop) [DecidablePred p] =>
    principal_set (p := p) hj (d.settle ts)
  refine ⟨?_, ?_, ?_, ?_⟩
  · have := hset fun _ => True
    simp only [if_true, Deposit.settle] at this
    show s.totalDeposited.toNat = _
    rw [h.deposited]
    simp only [Deposit.settle]
    omega
  · have := hset fun d => d.status = .active
    simp only [hact, if_true, Deposit.settle, reduceCtorEq, if_false] at this
    simp only [StakeholderDeposit.settled, toNat_saturatingSub, h.active, Deposit.settle]
    omega
  · -- the withdrawn principal stays below the total, so the sum does not wrap
    have := hset fun d => d.status = .withdrawn
    simp only [hact, if_true, Deposit.settle, reduceCtorEq, if_false] at this
    have hle : principal (fun d => d.status = .withdrawn) (log.set j (d.settle ts)) ≤
        principal (fun _ => True) (log.set j (d.settle ts)) := principal_mono fun _ _ => trivial
    have htot := hset fun _ => True
    simp only [if_true, Deposit.settle] at htot hle
    simp only [StakeholderDeposit.settled, Deposit.settle]
    rw [toNat_add_of_lt (by rw [h.withdrawn]; omega), h.withdrawn]
    omega
  · intro a
    have := hset fun d => d.status = .active ∧ d.stakeholder = a
    simp only [hact, true_and, Deposit.settle, reduceCtorEq, false_and, if_false] at this
    simp only [StakeholderDeposit.settled, Deposit.settle]
    by_cases ha : d.stakeholder = a
    · subst ha
      rw [if_pos rfl] at this
      rw [Function.update_self, toNat_saturatingSub, h.stakeholder]
      omega
    · rw [if_neg ha] at this
      rw [Function.update_of_ne (Ne.symm ha), h.stakeholder]
      omega

end Step

theorem refines_step {w w' : DepositWorld} {log log' : List Deposit} {a : DepositWorld.Action}
    (h : Refines w.contract log) (ht : DepositWorld.Transition w log a w' log') :
    Refines w'.contract log' := by
  cases ht with
  | reverted a => exact h
  | funded payer amount => exact h
  | administered hd hw =>
    exact ⟨h.records, h.count, fun hsum => ⟨(h.counted hsum).deposited, (h.counted hsum).active,
      (h.counted hsum).withdrawn, (h.counted hsum).stakeholder⟩⟩
  | @deposited _ _ _ _ _ _ _ d deposits head hnew hadm hring =>
    refine ⟨hring, ?_, fun hsum => ?_⟩
    · rw [List.length_append, List.length_singleton, UInt64.ofNat_add, UInt64.ofNat_one, ← h.count]
      show d.id = _
      rw [hnew]
      rfl
    · have hle : principal (fun _ => True) log ≤ principal (fun _ => True) (log ++ [d]) := by
        rw [principal_append_singleton]
        omega
      exact (h.counted (by omega)).opened (by rw [hnew]; rfl) hsum deposits head
  | @withdrew ts j d hlive hj hact hpurse hpaused =>
    refine ⟨h.records.set hlive (d.settle ts), ?_, fun hsum => ?_⟩
    · rw [List.length_set]
      exact h.count
    · have hset := principal_set (p := fun _ => True) hj (d.settle ts)
      simp only [if_true, Deposit.settle] at hset hsum
      exact (h.counted (by omega)).settled hj hact (by omega) _ ts

/-- Along every run the storage represents the ledger of the history. -/
theorem exists_refines {owner : Address} {maxHistory : UInt32} {w : DepositWorld}
    (h : (DepositWorld.system owner maxHistory).Reachable w) :
    ∃ log, LedgerRun w.history log ∧ Refines w.contract log := by
  refine h.invariant (I := fun w => ∃ log, LedgerRun w.history log ∧ Refines w.contract log) ?_ ?_
  · rintro w rfl
    exact ⟨[], .nil, refines_init owner maxHistory⟩
  · rintro w a w' ⟨log, hrun, href⟩ - rfl
    obtain ⟨log', ht⟩ := DepositWorld.transition href.records a
    exact ⟨log', ht.ledgerRun href.count hrun, refines_step href ht⟩

lemma DepositWorld.Transition.cap_eq {w w' : DepositWorld} {log log' : List Deposit}
    {a : DepositWorld.Action} (ht : DepositWorld.Transition w log a w' log') :
    w'.contract.cap = w.contract.cap := by
  cases ht <;> rfl

/-- The number of slots is fixed at deployment. -/
lemma cap_eq_of_reachable {owner : Address} {maxHistory : UInt32} {w : DepositWorld}
    (h : (DepositWorld.system owner maxHistory).Reachable w) :
    w.contract.cap.toNat = max maxHistory.toNat 1 := by
  induction h with
  | init h =>
    subst h
    rw [StakeholderDeposit.cap_toNat]
    show max (max maxHistory 1).toNat 1 = _
    rw [toNat_max, UInt32.toNat_one]
    omega
  | step hs _ ht ih =>
    obtain ⟨log, -, href⟩ := exists_refines hs
    obtain ⟨log', htrans⟩ := DepositWorld.transition href.records _
    rw [ht, htrans.cap_eq, ih]

end ArwaAgent
