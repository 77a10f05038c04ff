import ArwaAgent.Contracts.DepositRefinement

/-!
# Which deposits can be withdrawn, and by whom

A record that a later deposit has overwritten is gone: `withdraw` scans the slots
only, while the balances keep counting the deposit.  `withdraw_succeeds_iff` says
exactly when an accepted deposit that has not been withdrawn can be taken back:
when it is among the last `cap` accepted deposits (or, once the 64-bit ids have
wrapped around, when a deposit under the same id, by the same account and of the
same amount, is).

The records in the slots carry pairwise different ids (`live_id_inj`), since fewer
than 2^32 of the consecutive ids are there at a time.  Hence a call by one account
never touches the records and the balance of another one.
-/

namespace ArwaAgent

open StakeholderDeposit (Call Accepted)

section

variable {owner : Address} {maxHistory : UInt32} {w : DepositWorld} {log : List Deposit}

/-- Live records carry different ids, however many deposits there have been. -/
lemma live_id_inj {h : List Receipt} (hrun : LedgerRun h log) {cap j k : ℕ} {d e : Deposit}
    (hcap : cap < 2 ^ 32) (hj : RingBuffer.Live cap log.length j)
    (hk : RingBuffer.Live cap log.length k) (hd : log[j]? = some d) (he : log[k]? = some e)
    (hid : d.id = e.id) : j = k := by
  obtain ⟨hj1, hj2⟩ := hj
  obtain ⟨hk1, hk2⟩ := hk
  exact hrun.id_inj_of_near hd he (by omega) (by omega) hid

/-- The records opened from some deposit on are active unless their id has been withdrawn
since. -/
lemma active_of_not_withdrawn {h : List Receipt} (hrun : LedgerRun h log) :
    ∀ (before after : List Receipt) (r : Receipt) (e : StakeholderDeposited),
      h = before ++ r :: after → r.deposited = some e →
      ∀ (j : ℕ) (d : Deposit), (depositsOf before).length ≤ j → log[j]? = some d →
        ¬ Withdrawn after d.id → d.status = .active := by
  induction hrun with
  | nil =>
    intro before after r e _ _ j d _ hj
    simp at hj
  | @snoc h log log' r' hrun hstep ih =>
    intro before after r e hsplit hr j d hle hj hopen
    have hlen := congrArg List.length hrun.map_announced
    rw [List.length_map] at hlen
    rcases snoc_eq_append_cons_iff.1 hsplit with ⟨rfl, rfl, rfl⟩ | ⟨rest, rfl, hrest⟩
    · -- the deposit is the last step, and its record the last one
      cases hstep with
      | @opened d' hact hid hpos hd hw =>
        rcases getElem?_snoc_eq_some_iff.1 hj with hold | ⟨-, rfl⟩
        · have := (List.getElem?_eq_some_iff.1 hold).1
          omega
        · exact hact
      | settled hk hact hd hw => rw [hd] at hr; cases hr
      | unrelated hd hw => rw [hd] at hr; cases hr
    · -- the deposit is an earlier step
      rw [withdrawn_append_iff, not_or] at hopen
      cases hstep with
      | @opened d' hact hid hpos hd hw =>
        rcases getElem?_snoc_eq_some_iff.1 hj with hold | ⟨-, rfl⟩
        · exact ih before rest r e hrest hr j d hle hold hopen.1
        · exact hact
      | @settled k d' ts hk hact hd hw =>
        by_cases hkj : k = j
        · subst hkj
          rw [List.getElem?_set_self (List.getElem?_eq_some_iff.1 hk).1] at hj
          cases hj
          -- a record that has just been settled has just been withdrawn
          exact absurd ⟨_, hw⟩ hopen.2
        · rw [List.getElem?_set_ne hkj] at hj
          exact ih before rest r e hrest hr j d hle hj hopen.1
      | unrelated hd hw => exact ih before rest r e hrest hr j d hle hj hopen.1

/-- A withdrawal pays `amount` to the caller exactly when a live record has the id, is the
caller's, is active and has that amount. -/
lemma withdraw_pays_iff_live {h : List Receipt} (hrun : LedgerRun h log)
    (href : Refines w.contract log) (hpaused : w.contract.paused = false) {caller : Address}
    {ts depositId amount : UInt64} (hpurse : amount.toNat ≤ w.purse) :
    (∃ r, w.contract.exec (w.env caller ts) (.withdraw depositId) = .ok r ∧
        r.transfer = some ⟨caller, amount.toNat⟩) ↔
      ∃ j d, RingBuffer.Live w.contract.cap.toNat log.length j ∧ log[j]? = some d ∧
        d.id = depositId ∧ d.stakeholder = caller ∧ d.status = .active ∧ d.amount = amount := by
  have hcap := w.contract.cap_toNat_lt
  constructor
  · rintro ⟨r, hexec, htr⟩
    obtain ⟨-, i, d, hd, -, hid, hs, hact, -, rfl⟩ :=
      (StakeholderDeposit.withdraw_eq_ok_iff href.records).1 hexec
    have hi := (List.getElem?_eq_some_iff.1 hd).1
    rw [href.records.length_eq] at hi
    obtain ⟨j, hlive, rfl⟩ := RingBuffer.exists_live_mod hi
    rw [href.records.slot j hlive] at hd
    refine ⟨j, d, hlive, hd, hid, hs, hact, ?_⟩
    simp only [StakeholderDeposit.payout, Option.some.injEq, Transfer.mk.injEq] at htr
    exact UInt64.toNat_inj.1 htr.2
  · rintro ⟨j, d, hlive, hd, hid, hs, hact, rfl⟩
    refine ⟨_, (StakeholderDeposit.withdraw_eq_ok_iff href.records).2
      ⟨hpaused, j % w.contract.cap.toNat, d, ?_, ?_, hid, hs, hact, hpurse, rfl⟩, ?_⟩
    · rw [href.records.slot j hlive]
      exact hd
    · -- an earlier slot with the same id would hold the same record
      intro i hi e he heid
      have hilt := (List.getElem?_eq_some_iff.1 he).1
      rw [href.records.length_eq] at hilt
      obtain ⟨k, hk, rfl⟩ := RingBuffer.exists_live_mod hilt
      rw [href.records.slot k hk] at he
      have := live_id_inj hrun hcap hk hlive he hd (heid.trans hid.symm)
      subst this
      omega
    · rw [StakeholderDeposit.payout, hs]

/-- The record of a deposit sits in the ledger at the number of deposits before it. -/
lemma exists_record {h : List Receipt} (hrun : LedgerRun h log) {before after : List Receipt}
    {r : Receipt} {e : StakeholderDeposited} (hsplit : h = before ++ r :: after)
    (hr : r.deposited = some e) :
    (∃ d, log[(depositsOf before).length]? = some d ∧ d.announced = e) ∧
      log.length = (depositsOf before).length + 1 + (depositsOf after).length := by
  have hmap := hrun.map_announced
  have hdep : depositsOf h = depositsOf before ++ e :: depositsOf after := by
    rw [hsplit, depositsOf, List.filterMap_append, List.filterMap_cons_some hr]
    rfl
  rw [hdep] at hmap
  constructor
  · have hget := congrArg (fun l => l[(depositsOf before).length]?) hmap
    simp only [List.getElem?_map, List.getElem?_append_right (Nat.le_refl _), Nat.sub_self,
      List.getElem?_cons_zero, Option.map_eq_some_iff] at hget
    exact hget
  · have hlen := congrArg List.length hmap
    rw [List.length_map, List.length_append, List.length_cons] at hlen
    omega

/-- A record under the id of a deposit that has not been withdrawn can be withdrawn exactly
when it is live: no live record under that id is older than the deposit, and those opened
since are active. -/
lemma withdraw_pays_iff_announced (h : (DepositWorld.system owner maxHistory).Reachable w)
    (hrun : LedgerRun w.history log) (href : Refines w.contract log)
    {before after : List Receipt} {r : Receipt} {e : StakeholderDeposited}
    (hsplit : w.history = before ++ r :: after) (hr : r.deposited = some e)
    (hopen : ¬ Withdrawn after e.id) (hpaused : w.contract.paused = false)
    (hpurse : e.amount.toNat ≤ w.purse) (ts : UInt64) :
    (∃ acc, w.contract.exec (w.env e.stakeholder ts) (.withdraw e.id) = .ok acc ∧
        acc.transfer = some ⟨e.stakeholder, e.amount.toNat⟩) ↔
      ∃ j d, RingBuffer.Live (max maxHistory.toNat 1) log.length j ∧ log[j]? = some d ∧
        d.id = e.id ∧ d.stakeholder = e.stakeholder ∧ d.amount = e.amount := by
  rw [withdraw_pays_iff_live hrun href hpaused hpurse, cap_eq_of_reachable h]
  constructor
  · rintro ⟨j, d, hlive, hd, hid, hs, -, ham⟩
    exact ⟨j, d, hlive, hd, hid, hs, ham⟩
  · rintro ⟨j, d, hlive, hd, hid, hs, ham⟩
    refine ⟨j, d, hlive, hd, hid, hs, ?_, ham⟩
    obtain ⟨⟨d₀, hd₀, hann⟩, hlen⟩ := exists_record hrun hsplit hr
    have hge : (depositsOf before).length ≤ j := by
      by_contra hlt
      -- the deposit itself would then be live too, under the same id
      have hlive₀ : RingBuffer.Live (max maxHistory.toNat 1) log.length
          (depositsOf before).length := ⟨by omega, by have := hlive.2; omega⟩
      have hid₀ : d.id = d₀.id := by rw [hid, ← hann]; rfl
      have hcap := cap_eq_of_reachable h ▸ w.contract.cap_toNat_lt
      have := live_id_inj hrun hcap hlive hlive₀ hd hd₀ hid₀
      omega
    exact active_of_not_withdrawn hrun before after r e hsplit hr j d hge hd (by rw [hid]; exact hopen)

/-- The account that takes a step. -/
def DepositWorld.Action.actor : DepositWorld.Action → Address
  | .call caller _ _ => caller
  | .fund payer _ => payer

lemma record_of_other {w' : DepositWorld} {log' : List Deposit} {act : DepositWorld.Action}
    (ht : DepositWorld.Transition w log act w' log') {j : ℕ} {d : Deposit}
    (hj : log[j]? = some d) (hd : act.actor ≠ d.stakeholder) :
    log'[j]? = some d ∧ log'.length ≤ log.length + 1 := by
  cases ht with
  | reverted act => exact ⟨hj, by omega⟩
  | funded payer amount => exact ⟨hj, by omega⟩
  | administered _ _ => exact ⟨hj, by omega⟩
  | deposited hnew hadm hring =>
    rw [List.getElem?_append_left (List.getElem?_eq_some_iff.1 hj).1]
    exact ⟨hj, by simp⟩
  | @withdrew ts k e hlive hk hact hpurse hpaused =>
    have hkj : k ≠ j := by
      rintro rfl
      rw [hk] at hj
      cases hj
      exact hd rfl
    rw [List.getElem?_set_ne hkj, List.length_set]
    exact ⟨hj, by omega⟩

/-- A step leaves the balance of the other accounts as it is. -/
lemma balance_of_other {w' : DepositWorld} {log' : List Deposit} {act : DepositWorld.Action}
    (ht : DepositWorld.Transition w log act w' log') {b : Address} (hb : act.actor ≠ b) :
    w'.contract.getStakeholderBalance b = w.contract.getStakeholderBalance b := by
  cases ht with
  | reverted act => rfl
  | funded payer amount => rfl
  | administered _ _ => rfl
  | deposited hnew hadm hring =>
    subst hnew
    exact Function.update_of_ne (Ne.symm hb) _ _
  | withdrew hlive hj hact hpurse hpaused => exact Function.update_of_ne (Ne.symm hb) _ _

/-- A step of one account changes neither the balance of another one nor the status of its
records that stay in the ring. -/
lemma step_frame (h : (DepositWorld.system owner maxHistory).Reachable w)
    (act : DepositWorld.Action) {b : Address} (hb : act.actor ≠ b) :
    (w.step act).contract.getStakeholderBalance b = w.contract.getStakeholderBalance b ∧
      ∀ d ∈ w.contract.deposits, d.stakeholder = b →
        ∀ d' ∈ (w.step act).contract.deposits, d'.id = d.id → d'.status = d.status := by
  obtain ⟨log, hrun, href⟩ := exists_refines h
  obtain ⟨log', htrans⟩ := DepositWorld.transition href.records act
  refine ⟨balance_of_other htrans hb, ?_⟩
  intro d hd hs d' hd' hid
  have hrun' := htrans.ledgerRun href.count hrun
  obtain ⟨j, hlive, hj⟩ := href.records.mem_slots_iff.1 hd
  obtain ⟨k, hlive', hk⟩ := (refines_step href htrans).records.mem_slots_iff.1 hd'
  obtain ⟨hj', hlen⟩ := record_of_other htrans hj (by rw [hs]; exact hb)
  -- the record may just have left the ring, but then it is still too close for its id to be reused
  have hjk : j = k := by
    rw [htrans.cap_eq] at hlive'
    have hcap := w.contract.cap_toNat_lt
    obtain ⟨hj1, hj2⟩ := hlive
    obtain ⟨hk1, hk2⟩ := hlive'
    have hjlt := (List.getElem?_eq_some_iff.1 hj').1
    exact hrun'.id_inj_of_near hj' hk (by omega) (by omega) hid.symm
  subst hjk
  rw [hj'] at hk
  cases hk
  rfl

/-- As long as fewer than 2^64 deposits have been made, no id is withdrawn twice; every
withdrawal pays the deposit with its id, in full, to the account that made it; and a step
of one account changes neither the balance nor a record in the ring of another one. -/
theorem withdraw_once_to_depositor (h : (DepositWorld.system owner maxHistory).Reachable w)
    (hn : (depositsOf w.history).length < 2 ^ 64) :
    (∀ id, (withdrawalsOf w.history).countP (fun p => p.1 = id) ≤ 1) ∧
    (∀ p ∈ withdrawalsOf w.history, ∃ e ∈ depositsOf w.history,
      e.id = p.1 ∧ p.2 = ⟨e.stakeholder, e.amount.toNat⟩ ∧
        ∀ e' ∈ depositsOf w.history, e'.id = p.1 → e' = e) ∧
    (∀ (act : DepositWorld.Action) (b : Address), act.actor ≠ b →
      (w.step act).contract.getStakeholderBalance b = w.contract.getStakeholderBalance b ∧
        ∀ d ∈ w.contract.deposits, d.stakeholder = b →
          ∀ d' ∈ (w.step act).contract.deposits, d'.id = d.id → d'.status = d.status) := by
  refine ⟨?_, ?_, fun act b hb => step_frame h act hb⟩
  all_goals obtain ⟨log, hrun, href⟩ := exists_refines h
  all_goals have hmap := hrun.map_announced
  all_goals have hlen : log.length < 2 ^ 64 := by rw [← hmap, List.length_map] at hn; exact hn
  · intro id
    rcases Nat.eq_zero_or_pos ((withdrawalsOf w.history).countP fun p => p.1 = id) with h0 | hpos
    · omega
    · -- some withdrawal has the id, so some record has it too
      obtain ⟨p, hp, hpid⟩ := List.countP_pos_iff.1 hpos
      obtain ⟨e, he, heid, -⟩ := hrun.exists_deposit_of_mem_withdrawals p hp
      rw [← hmap, List.mem_map] at he
      obtain ⟨d, hd, rfl⟩ := he
      obtain ⟨j, hj⟩ := List.mem_iff_getElem?.1 hd
      have hid : d.id = id := heid.trans (of_decide_eq_true hpid)
      have hcount := hrun.countP_withdrawals hlen j d hj
      rw [← hid, hcount]
      split <;> omega
  · intro p hp
    obtain ⟨e, he, heid, ht⟩ := hrun.exists_deposit_of_mem_withdrawals p hp
    refine ⟨e, he, heid, ht, ?_⟩
    intro e' he' hid'
    rw [← hmap, List.mem_map] at he he'
    obtain ⟨d, hd, rfl⟩ := he
    obtain ⟨d', hd', rfl⟩ := he'
    obtain ⟨j, hj⟩ := List.mem_iff_getElem?.1 hd
    obtain ⟨k, hk⟩ := List.mem_iff_getElem?.1 hd'
    have hjk := hrun.id_inj hk hj hlen (hid'.trans heid.symm)
    subst hjk
    rw [hj] at hk
    cases hk
    rfl

/-- The theorem at work after account 1 has taken its deposit back. -/
theorem withdraw_once_to_depositor_after_withdrawal :
    (withdrawalsOf (DepositWorld.after 2
      (twoDeposits ++ [.call (.account 1) 20 (.withdraw 1)])).history).countP (fun p => p.1 = 1) ≤ 1 ∧
    withdrawalsOf (DepositWorld.after 2
      (twoDeposits ++ [.call (.account 1) 20 (.withdraw 1)])).history = [(1, ⟨.account 1, 100⟩)] :=
  ⟨(withdraw_once_to_depositor (DepositWorld.reachable_after 2 _) (by decide)).1 1, by decide⟩

end

end ArwaAgent
