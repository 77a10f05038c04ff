import ArwaAgent.Contracts.StakeholderDeposit
import ArwaAgent.Lib.RingBuffer

/-!
# What the entry points of StakeholderDeposit do

One lemma for each entry point, stated over the log of all deposits whose last
records the ring buffer holds.  Later files cite these lemmas and never unfold an
entry point again.  `deposit` appends a record to the log; `withdraw` succeeds
exactly when some record still in a slot carries the id, belongs to the caller and
is active, and the purse covers it.
-/

namespace ArwaAgent

/-- The event that announces a record. -/
def Deposit.announced (d : Deposit) : StakeholderDeposited where
  id := d.id
  stakeholder := d.stakeholder
  amount := d.amount
  sourceLabel := d.sourceLabel
  sourceKind := d.sourceKind
  strategyHint := d.strategyHint
  nonce := d.nonce
  timestamp := d.ts

/-- A record after it has been paid back at time `ts`. -/
def Deposit.settle (d : Deposit) (ts : UInt64) : Deposit :=
  { d with status := .withdrawn, withdrawalTs := ts, withdrawalAmount := d.amount }

@[simp] lemma Deposit.announced_settle (d : Deposit) (ts : UInt64) :
    (d.settle ts).announced = d.announced := rfl

namespace StakeholderDeposit

variable {self : StakeholderDeposit} {log : List Deposit} {env : Env} {r : Accepted}

/-- The ring buffer of the contract holds the last records of `log`. -/
def Records (self : StakeholderDeposit) (log : List Deposit) : Prop :=
  RingBuffer.Holds self.cap.toNat self.deposits self.head.toNat log

lemma cap_toNat (self : StakeholderDeposit) : self.cap.toNat = max self.maxHistory.toNat 1 := by
  rw [cap, toNat_max]
  rfl

lemma cap_toNat_lt (self : StakeholderDeposit) : self.cap.toNat < 2 ^ 32 := self.cap.toNat_lt

lemma records_init (owner : Address) (maxHistory : UInt32) : Records (init owner maxHistory) [] := by
  refine RingBuffer.holds_nil ?_
  rw [cap_toNat]
  omega

lemma Records.length_toNat (h : self.Records log) :
    (UInt32.ofNat self.deposits.length).toNat = self.deposits.length := by
  have hlen := h.length_eq
  have hcap := self.cap_toNat_lt
  exact UInt32.toNat_ofNat_of_lt' (by show _ < 2 ^ 32; omega)

/-! ### The ring-buffer write -/

lemma appendDeposit_spec (h : self.Records log) (d : Deposit) :
    ∃ deposits head, self.appendDeposit d = .ok { self with deposits := deposits, head := head } ∧
      RingBuffer.Holds self.cap.toNat deposits head.toNat (log ++ [d]) := by
  have hpush := h.push d
  rw [RingBuffer.push, RingBuffer.pushHead] at hpush
  by_cases hlt : self.deposits.length < self.cap.toNat
  · rw [if_pos hlt, if_pos hlt] at hpush
    refine ⟨self.deposits ++ [d], self.head, ?_, hpush⟩
    rw [appendDeposit, if_pos (by rw [UInt32.lt_iff_toNat_lt, h.length_toNat]; exact hlt)]
    rfl
  · rw [if_neg hlt, if_neg hlt] at hpush
    refine ⟨self.deposits.set self.head.toNat d, (self.head + 1) % self.cap, ?_, ?_⟩
    · rw [appendDeposit, if_neg (by rw [UInt32.lt_iff_toNat_lt, h.length_toNat]; exact hlt),
        listReplace, if_pos (by have := h.head_lt; omega)]
      rfl
    · -- the head stays below the capacity, so its successor does not wrap
      have hhead := h.head_lt
      have hcap := self.cap_toNat_lt
      have hsucc : (self.head + 1).toNat = self.head.toNat + 1 := by
        rw [UInt32.toNat_add, UInt32.toNat_one, Nat.mod_eq_of_lt (by omega)]
      rw [UInt32.toNat_mod, hsucc]
      exact hpush

/-! ### Deposits -/

/-- The record that an accepted deposit writes. -/
def newDeposit (self : StakeholderDeposit) (env : Env) (amount : UInt64)
    (sourceLabel sourceKind strategyHint : String) (nonce : UInt64) : Deposit where
  id := self.depositCount + 1
  stakeholder := env.caller
  amount := amount
  sourceLabel := sourceLabel
  sourceKind := sourceKind
  strategyHint := strategyHint
  ts := env.blockTime
  status := .active
  withdrawalTs := 0
  withdrawalAmount := 0
  nonce := nonce

/-- The storage after the record `d` has been written into the slots. -/
def opened (self : StakeholderDeposit) (d : Deposit) (deposits : List Deposit) (head : UInt32) :
    StakeholderDeposit :=
  { self with
    deposits := deposits
    head := head
    depositCount := d.id
    stakeholderActive := Function.update self.stakeholderActive d.stakeholder
      (self.stakeholderActive d.stakeholder + d.amount)
    totalDeposited := self.totalDeposited + d.amount
    totalActive := self.totalActive + d.amount }

/-- The checks of `deposit`. -/
def Admits (self : StakeholderDeposit) (amount : UInt64)
    (sourceLabel sourceKind strategyHint : String) : Prop :=
  self.paused = false ∧ 0 < amount ∧ sourceLabel.utf8ByteSize ≤ 64 ∧
    sourceKind.utf8ByteSize ≤ 32 ∧ strategyHint.utf8ByteSize ≤ 32

/-- An accepted deposit passed every check, appended its record to the log, and credited
its amount to the caller and to the aggregates. -/
lemma deposit_spec (h : self.Records log) {amount nonce : UInt64} {label kind hint : String}
    (hr : self.deposit env amount label kind hint nonce = .ok r) :
    self.Admits amount label kind hint ∧ ∃ deposits head,
      RingBuffer.Holds self.cap.toNat deposits head.toNat
        (log ++ [self.newDeposit env amount label kind hint nonce]) ∧
      r = { contract := self.opened (self.newDeposit env amount label kind hint nonce) deposits head
            event := .stakeholderDeposited
              (self.newDeposit env amount label kind hint nonce).announced
            transfer := none } := by
  rw [deposit, require_bind_eq_ok_iff, require_bind_eq_ok_iff, require_bind_eq_ok_iff,
    require_bind_eq_ok_iff, require_bind_eq_ok_iff] at hr
  obtain ⟨hp, ha, hl, hk, hs, hr⟩ := hr
  refine ⟨⟨hp, ha, hl, hk, hs⟩, ?_⟩
  rw [bind_eq_ok_iff] at hr
  obtain ⟨contract, hc, hr⟩ := hr
  obtain ⟨deposits, head, hdep, hholds⟩ := @appendDeposit_spec
    { self with
      depositCount := self.depositCount + 1
      stakeholderActive := Function.update self.stakeholderActive env.caller
        (self.stakeholderActive env.caller + amount)
      totalDeposited := self.totalDeposited + amount
      totalActive := self.totalActive + amount }
    log h (self.newDeposit env amount label kind hint nonce)
  refine ⟨deposits, head, hholds, ?_⟩
  have hc' := hc.symm.trans hdep
  cases hc'
  cases hr
  rfl

lemma exists_deposit (h : self.Records log) {amount : UInt64} {label kind hint : String}
    (hadm : self.Admits amount label kind hint) (nonce : UInt64) :
    ∃ r, self.deposit env amount label kind hint nonce = .ok r := by
  obtain ⟨hp, ha, hl, hk, hs⟩ := hadm
  obtain ⟨deposits, head, hdep, -⟩ := @appendDeposit_spec
    { self with
      depositCount := self.depositCount + 1
      stakeholderActive := Function.update self.stakeholderActive env.caller
        (self.stakeholderActive env.caller + amount)
      totalDeposited := self.totalDeposited + amount
      totalActive := self.totalActive + amount }
    log h (self.newDeposit env amount label kind hint nonce)
  refine ⟨{
    contract := self.opened (self.newDeposit env amount label kind hint nonce) deposits head
    event := .stakeholderDeposited (self.newDeposit env amount label kind hint nonce).announced
    transfer := none }, ?_⟩
  rw [deposit, require_bind_eq_ok_iff, require_bind_eq_ok_iff, require_bind_eq_ok_iff,
    require_bind_eq_ok_iff, require_bind_eq_ok_iff]
  exact ⟨hp, ha, hl, hk, hs, bind_eq_ok_iff.2 ⟨_, hdep, rfl⟩⟩

/-! ### Withdrawals -/

/-- The scan finds a record exactly when the first record with the id, counted from the
first slot scanned, passes both checks. -/
lemma scan_eq_some_iff {caller : Address} {depositId foundAmount : UInt64} {ds : List Deposit}
    {start idx : ℕ} :
    scan caller depositId ds start = .ok (some (idx, foundAmount)) ↔
      ∃ i d, idx = start + i ∧ ds[i]? = some d ∧ (∀ k < i, ∀ e, ds[k]? = some e → e.id ≠ depositId) ∧
        d.id = depositId ∧ d.stakeholder = caller ∧ d.status = .active ∧ foundAmount = d.amount := by
  induction ds generalizing start with
  | nil =>
    constructor
    · intro h
      cases h
    · rintro ⟨i, d, -, hd, -⟩
      simp at hd
  | cons d ds ih =>
    by_cases hid : d.id = depositId
    · rw [scan, if_pos hid, require_bind_eq_ok_iff, require_bind_eq_ok_iff]
      constructor
      · rintro ⟨hs, ha, h⟩
        cases h
        exact ⟨0, d, rfl, rfl, fun k hk => absurd hk (by omega), hid, hs, ha, rfl⟩
      · rintro ⟨i, e, rfl, he, hfirst, -, hs, ha, rfl⟩
        cases i with
        | zero =>
          cases he
          exact ⟨hs, ha, rfl⟩
        | succ i => exact absurd hid (hfirst 0 (by omega) d rfl)
    · rw [scan, if_neg hid, ih]
      constructor
      · rintro ⟨i, e, rfl, he, hfirst, hrest⟩
        refine ⟨i + 1, e, by omega, he, ?_, hrest⟩
        intro k hk e' he'
        cases k with
        | zero =>
          cases he'
          exact hid
        | succ k => exact hfirst k (by omega) e' he'
      · rintro ⟨i, e, rfl, he, hfirst, hrest⟩
        cases i with
        | zero =>
          cases he
          exact absurd hrest.1 hid
        | succ i =>
          exact ⟨i, e, by omega, he, fun k hk e' he' => hfirst (k + 1) (by omega) e' he', hrest⟩

/-- The storage after the record `d` in slot `i` has been paid back. -/
def settled (self : StakeholderDeposit) (i : ℕ) (d : Deposit) (ts : UInt64) : StakeholderDeposit :=
  { self with
    deposits := self.deposits.set i (d.settle ts)
    stakeholderActive := Function.update self.stakeholderActive d.stakeholder
      (saturatingSub (self.stakeholderActive d.stakeholder) d.amount)
    totalActive := saturatingSub self.totalActive d.amount
    totalWithdrawn := self.totalWithdrawn + d.amount }

/-- What a successful withdrawal of the record `d` in slot `i` leaves behind. -/
def payout (self : StakeholderDeposit) (env : Env) (i : ℕ) (d : Deposit) : Accepted where
  contract := self.settled i d env.blockTime
  event := .stakeholderWithdrew
    { id := d.id, stakeholder := d.stakeholder, amount := d.amount, timestamp := env.blockTime }
  transfer := some ⟨d.stakeholder, d.amount.toNat⟩

/-- `withdraw` succeeds exactly when the first slot with the id holds an active record of
the caller and the purse covers it; it then pays that record back. -/
lemma withdraw_eq_ok_iff (h : self.Records log) {depositId : UInt64} :
    self.withdraw env depositId = .ok r ↔
      self.paused = false ∧ ∃ i d, self.deposits[i]? = some d ∧
        (∀ k < i, ∀ e, self.deposits[k]? = some e → e.id ≠ depositId) ∧
        d.id = depositId ∧ d.stakeholder = env.caller ∧ d.status = .active ∧
        d.amount.toNat ≤ env.purse ∧ r = self.payout env i d := by
  have hlen := h.length_eq
  have hn : (min (UInt32.ofNat self.deposits.length) self.cap).toNat = self.deposits.length := by
    rw [toNat_min, h.length_toNat]
    omega
  rw [withdraw, require_bind_eq_ok_iff, require_bind_eq_ok_iff, hn, List.take_length,
    bind_eq_ok_iff]
  refine and_congr_right fun _ => ?_
  constructor
  · rintro ⟨-, found, hscan, hr⟩
    rw [bind_eq_ok_iff] at hr
    obtain ⟨⟨idx, foundAmount⟩, hfound, hr⟩ := hr
    cases found with
    | none => cases hfound
    | some f =>
      cases hfound
      rw [scan_eq_some_iff] at hscan
      obtain ⟨i, d, rfl, hd, hfirst, hid, hs, ha, rfl⟩ := hscan
      rw [Nat.zero_add] at hr
      simp only [bind_eq_ok_iff, listReplace_eq_ok_iff, transferTokens_eq_ok_iff, hd] at hr
      obtain ⟨_, he, _, ⟨-, rfl⟩, _, ⟨hpurse, rfl⟩, hr⟩ := hr
      cases he
      cases hr
      subst hid
      refine ⟨i, d, hd, hfirst, rfl, hs, ha, hpurse, ?_⟩
      simp only [payout, settled, Deposit.settle, hs]
  · rintro ⟨i, d, hd, hfirst, hid, hs, ha, hpurse, rfl⟩
    have hi := (List.getElem?_eq_some_iff.1 hd).1
    refine ⟨?_, some (i, d.amount), ?_, ?_⟩
    · rw [UInt32.lt_iff_toNat_lt, hn, UInt32.toNat_zero]
      omega
    · exact scan_eq_some_iff.2 ⟨i, d, by omega, hd, hfirst, hid, hs, ha, rfl⟩
    · subst hid
      simp only [bind_eq_ok_iff, listReplace_eq_ok_iff, transferTokens_eq_ok_iff]
      refine ⟨_, rfl, d, by rw [hd]; rfl, _, ⟨hi, rfl⟩, _, ⟨hpurse, rfl⟩, ?_⟩
      simp only [payout, settled, Deposit.settle, hs]
      rfl

end StakeholderDeposit

end ArwaAgent
