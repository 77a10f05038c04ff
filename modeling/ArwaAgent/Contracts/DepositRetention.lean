import ArwaAgent.Contracts.DepositWithdrawal

/-!
# Which deposits the ring buffer holds

With `n` deposits so far, the slots hold the deposits `n - cap + 1`, ..., `n` and no
others, deposit `k` in slot `(k - 1) % cap`, and `get_deposit` finds exactly these.
What it returns for such an id is what the account passed to `deposit`; the status is
the only thing that `withdraw` changes that anybody reads.

The arguments are read off the calls in the history (`depositCallsOf`), not off the
events: `depositCallsOf_eq` says that the two agree.
-/

namespace ArwaAgent

open StakeholderDeposit (Call Accepted)

/-- The accepted call of `deposit` that this entry reports, with the account that made it. -/
def Receipt.depositCall : Receipt → Option (Address × Call)
  | accepted caller (.deposit amount sourceLabel sourceKind strategyHint nonce) _ _ =>
    some (caller, .deposit amount sourceLabel sourceKind strategyHint nonce)
  | _ => none

/-- The accepted calls of `deposit`, in order. -/
def depositCallsOf (history : List Receipt) : List (Address × Call) :=
  history.filterMap Receipt.depositCall

/-- The call that an event announces. -/
def StakeholderDeposited.call (e : StakeholderDeposited) : Address × Call :=
  (e.stakeholder, .deposit e.amount e.sourceLabel e.sourceKind e.strategyHint e.nonce)

/-- The call that opened a record. -/
def Deposit.call (d : Deposit) : Address × Call := d.announced.call

/-- The record that `get_deposit` returns for an id it does not find. -/
def Deposit.zeroed : Deposit where
  id := 0
  stakeholder := zeroAddress
  amount := 0
  sourceLabel := ""
  sourceKind := ""
  strategyHint := ""
  ts := 0
  status := .active
  withdrawalTs := 0
  withdrawalAmount := 0
  nonce := 0

section

variable {owner : Address} {maxHistory : UInt32} {w : DepositWorld} {log : List Deposit}

/-! ### The calls behind the events -/

/-- An accepted call announces a deposit exactly when it is one, and then with its own
arguments. -/
lemma depositCall_of_exec {s : StakeholderDeposit} (h : s.Records log) {env : Env} {call : Call}
    {acc : Accepted} (hexec : s.exec env call = .ok acc) :
    (Receipt.accepted env.caller call acc.event acc.transfer).depositCall =
      (Receipt.accepted env.caller call acc.event acc.transfer).deposited.map
        StakeholderDeposited.call := by
  cases call with
  | deposit amount label kind hint nonce =>
    obtain ⟨-, deposits, head, -, rfl⟩ := StakeholderDeposit.deposit_spec h hexec
    rfl
  | withdraw depositId =>
    obtain ⟨-, i, d, -, -, -, -, -, -, rfl⟩ := (StakeholderDeposit.withdraw_eq_ok_iff h).1 hexec
    rfl
  | transferOwnership newOwner =>
    rw [StakeholderDeposit.exec, StakeholderDeposit.transferOwnership,
      StakeholderDeposit.onlyOwner, require_bind_eq_ok_iff] at hexec
    obtain ⟨-, hr⟩ := hexec
    cases hr
    rfl
  | setPaused paused =>
    rw [StakeholderDeposit.exec, StakeholderDeposit.setPaused, StakeholderDeposit.onlyOwner,
      require_bind_eq_ok_iff] at hexec
    obtain ⟨-, hr⟩ := hexec
    cases hr
    rfl

/-- Along every run the events announce the accepted calls of `deposit`, one for one. -/
lemma depositCallsOf_eq (h : (DepositWorld.system owner maxHistory).Reachable w) :
    depositCallsOf w.history = (depositsOf w.history).map StakeholderDeposited.call := by
  induction h with
  | init h =>
    subst h
    rfl
  | @step w w' act hs _ ht ih =>
    obtain ⟨log, -, href⟩ := exists_refines hs
    subst ht
    cases act with
    | fund payer amount =>
      rw [DepositWorld.step, depositCallsOf, filterMap_snoc, depositsOf_append, List.map_append]
      exact congrArg (· ++ []) ih
    | call caller ts call =>
      rw [DepositWorld.step]
      cases hexec : w.contract.exec (w.env caller ts) call with
      | error e => exact ih
      | ok acc =>
        have hcall := depositCall_of_exec href.records hexec
        simp only [DepositWorld.commit, DepositWorld.env] at hcall ⊢
        rw [depositCallsOf, filterMap_snoc, depositsOf_append, List.map_append, hcall]
        refine congrArg₂ (· ++ ·) ih ?_
        cases (Receipt.accepted caller call acc.event acc.transfer).deposited <;> rfl

/-! ### Looking a record up -/

/-- All filled slots are searched. -/
lemma getDeposit_eq {s : StakeholderDeposit} (h : s.Records log) (id : UInt64) :
    s.getDeposit id = (s.deposits.find? fun d => d.id = id).getD Deposit.zeroed := by
  have hlen := h.length_eq
  have hn : (min (UInt32.ofNat s.deposits.length) s.cap).toNat = s.deposits.length := by
    rw [toNat_min, h.length_toNat]
    omega
  rw [StakeholderDeposit.getDeposit, hn, List.take_length]
  cases s.deposits.find? fun d => d.id = id <;> rfl

/-- A live record is found under its id. -/
lemma getDeposit_of_live {h : List Receipt} {s : StakeholderDeposit} (hrun : LedgerRun h log)
    (href : Refines s log) {j : ℕ} {d : Deposit}
    (hlive : RingBuffer.Live s.cap.toNat log.length j) (hj : log[j]? = some d) :
    s.getDeposit d.id = d := by
  rw [getDeposit_eq href.records]
  have hmem : d ∈ s.deposits := href.records.mem_slots_iff.2 ⟨j, hlive, hj⟩
  cases hfind : s.deposits.find? fun e => e.id = d.id with
  | none => exact absurd (List.find?_eq_none.1 hfind d hmem) (by simp)
  | some e =>
    -- no two records in the slots carry one id
    obtain ⟨k, hlive', hk⟩ := href.records.mem_slots_iff.1 (List.mem_of_find?_eq_some hfind)
    have hid : e.id = d.id := by simpa using List.find?_some hfind
    obtain rfl := live_id_inj hrun s.cap_toNat_lt hlive' hlive hk hj hid
    rw [hj] at hk
    cases hk
    rfl

lemma getDeposit_of_forall_ne {s : StakeholderDeposit} (h : s.Records log) {id : UInt64}
    (hid : ∀ d ∈ s.deposits, d.id ≠ id) : s.getDeposit id = Deposit.zeroed := by
  rw [getDeposit_eq h, List.find?_eq_none.2 (by simpa using hid)]
  rfl

/-- With `n < 2^64` deposits, the ids in the slots are the last ones of `1, ..., n`. -/
lemma exists_mem_slots_iff {h : List Receipt} {s : StakeholderDeposit} (hrun : LedgerRun h log)
    (hrec : s.Records log) (hn : log.length < 2 ^ 64) (id : UInt64) :
    (∃ d ∈ s.deposits, d.id = id) ↔
      max 1 (log.length - s.cap.toNat + 1) ≤ id.toNat ∧ id.toNat ≤ log.length := by
  constructor
  · rintro ⟨d, hd, rfl⟩
    obtain ⟨j, ⟨hlt, hle⟩, hj⟩ := hrec.mem_slots_iff.1 hd
    rw [hrun.id_eq j d hj, UInt64.toNat_ofNat_of_lt' (by show _ < 2 ^ 64; omega)]
    omega
  · rintro ⟨hlow, hhigh⟩
    have hlt : id.toNat - 1 < log.length := by omega
    have hj : log[id.toNat - 1]? = some log[id.toNat - 1] := List.getElem?_eq_getElem hlt
    refine ⟨_, hrec.mem_slots_iff.2 ⟨_, ⟨hlt, by omega⟩, hj⟩, ?_⟩
    rw [hrun.id_eq _ _ hj, Nat.sub_add_cancel (by omega), UInt64.ofNat_toNat]

/-- With `n < 2^64` deposits so far, the slots hold the deposits `n - cap + 1`, ..., `n`, each
once; deposit `k` sits in slot `(k - 1) % cap`, where `get_deposit` finds it with the
arguments of its call, withdrawn exactly if a withdrawal of it has succeeded; and
`get_deposit` finds nothing under any other id. -/
theorem ring_retains (h : (DepositWorld.system owner maxHistory).Reachable w)
    (hn : (depositCallsOf w.history).length < 2 ^ 64) :
    let n := (depositCallsOf w.history).length
    let cap := max maxHistory.toNat 1
    w.contract.deposits.length = min n cap ∧
    (∀ id : UInt64, (∃ d ∈ w.contract.deposits, d.id = id) ↔
      max 1 (n - cap + 1) ≤ id.toNat ∧ id.toNat ≤ n) ∧
    (∀ k : UInt64, max 1 (n - cap + 1) ≤ k.toNat → k.toNat ≤ n →
      w.contract.deposits[(k.toNat - 1) % cap]? = some (w.contract.getDeposit k) ∧
      (w.contract.getDeposit k).id = k ∧
      (depositCallsOf w.history)[k.toNat - 1]? =
        some ((w.contract.getDeposit k).stakeholder,
          .deposit (w.contract.getDeposit k).amount (w.contract.getDeposit k).sourceLabel
            (w.contract.getDeposit k).sourceKind (w.contract.getDeposit k).strategyHint
            (w.contract.getDeposit k).nonce) ∧
      ((w.contract.getDeposit k).status = .withdrawn ↔ Withdrawn w.history k)) ∧
    (∀ id : UInt64, ¬ (max 1 (n - cap + 1) ≤ id.toNat ∧ id.toNat ≤ n) →
      w.contract.getDeposit id = Deposit.zeroed) := by
  obtain ⟨log, hrun, href⟩ := exists_refines h
  have hcap := cap_eq_of_reachable h
  have hcalls : depositCallsOf w.history = log.map Deposit.call := by
    rw [depositCallsOf_eq h, ← hrun.map_announced, List.map_map]
    rfl
  rw [hcalls, List.length_map] at hn ⊢
  rw [← hcap]
  have hids := exists_mem_slots_iff hrun href.records hn
  refine ⟨href.records.length_eq, hids, ?_, ?_⟩
  · intro k hlow hhigh
    have hlt : k.toNat - 1 < log.length := by omega
    have hlive : RingBuffer.Live w.contract.cap.toNat log.length (k.toNat - 1) :=
      ⟨hlt, by omega⟩
    have hj : log[k.toNat - 1]? = some log[k.toNat - 1] := List.getElem?_eq_getElem hlt
    have hid : log[k.toNat - 1].id = k := by
      rw [hrun.id_eq _ _ hj, Nat.sub_add_cancel (by omega), UInt64.ofNat_toNat]
    have hget : w.contract.getDeposit k = log[k.toNat - 1] := by
      have hfound := getDeposit_of_live hrun href hlive hj
      rwa [hid] at hfound
    have hwithdrawn := hrun.withdrawn_iff hn hj
    rw [hid] at hwithdrawn
    rw [hget]
    refine ⟨?_, hid, ?_, hwithdrawn.symm⟩
    · rw [href.records.slot _ hlive, hj]
    · rw [List.getElem?_map, hj]
      rfl
  · intro id hout
    refine getDeposit_of_forall_ne href.records ?_
    intro d hd hid
    exact hout ((hids id).1 ⟨d, hd, hid⟩)

/-- The theorem at work on one slot and two deposits: the first one is gone, and the second
one sits in the slot with the arguments of its call. -/
theorem ring_retains_after_overwrite :
    (DepositWorld.after 1 twoDeposits).contract.deposits[0]? =
        some ((DepositWorld.after 1 twoDeposits).contract.getDeposit 2) ∧
      (DepositWorld.after 1 twoDeposits).contract.getDeposit 1 = Deposit.zeroed :=
  have hret := ring_retains (DepositWorld.reachable_after 1 twoDeposits) (by decide)
  ⟨(hret.2.2.1 2 (by decide) (by decide)).1, hret.2.2.2 1 (by decide)⟩

end

end ArwaAgent
