import ArwaAgent.Contracts.DepositConservation

/-!
# When a deposit wraps a counter

`deposit` checks its amount against 0 only, and its three sums are those of the release
build: a sum that reaches 2^64 starts again from 0.  `adds_exactly_iff` says for every
reachable state which deposits are counted exactly; `adds_exactly_iff_depositedSum`
says it by the history: as long as nothing has wrapped, it is the sum of all accepted
deposits, withdrawn ones included, that has to stay below 2^64.
-/

namespace ArwaAgent

open StakeholderDeposit (Call Accepted)

namespace StakeholderDeposit

variable {self : StakeholderDeposit} {log : List Deposit}

/-- A call of `deposit` is rejected exactly when a check fails. -/
lemma deposit_eq_error_iff (h : self.Records log) (env : Env) {amount : UInt64} (nonce : UInt64)
    {label kind hint : String} :
    (∃ e, self.deposit env amount label kind hint nonce = .error e) ↔
      ¬ self.Admits amount label kind hint := by
  constructor
  · rintro ⟨e, he⟩ hadm
    obtain ⟨r, hr⟩ := exists_deposit h hadm nonce
    rw [hr] at he
    cases he
  · intro hadm
    cases hr : self.deposit env amount label kind hint nonce with
    | error e => exact ⟨e, rfl⟩
    | ok r => exact absurd (deposit_spec h hr).1 hadm

end StakeholderDeposit

lemma toNat_add_eq_iff {a b : UInt64} :
    (a + b).toNat = a.toNat + b.toNat ↔ a.toNat + b.toNat < 2 ^ 64 := by
  refine ⟨fun h => ?_, toNat_add_of_lt⟩
  rw [← h]
  exact (a + b).toNat_lt

namespace DepositWorld

/-- The call reverts and changes nothing, or the balance of the caller and both totals grow by
exactly the amount. -/
def AddsExactly (w : DepositWorld) (caller : Address) (ts amount : UInt64)
    (label kind hint : String) (nonce : UInt64) : Prop :=
  let call := Call.deposit amount label kind hint nonce
  let w' := w.step (.call caller ts call)
  ((∃ e, w.contract.exec (w.env caller ts) call = .error e) ∧ w' = w) ∨
    ((w'.contract.getStakeholderBalance caller).toNat =
        (w.contract.getStakeholderBalance caller).toNat + amount.toNat ∧
      w'.contract.getTotalDeposited.toNat = w.contract.getTotalDeposited.toNat + amount.toNat ∧
      w'.contract.getTotalActive.toNat = w.contract.getTotalActive.toNat + amount.toNat)

end DepositWorld

section

variable {owner : Address} {maxHistory : UInt32} {w : DepositWorld}

lemma adds_exactly_of_admits {log : List Deposit} (href : Refines w.contract log)
    (caller : Address) (ts : UInt64) {amount : UInt64} (nonce : UInt64) {label kind hint : String}
    (hadm : w.contract.Admits amount label kind hint) :
    w.AddsExactly caller ts amount label kind hint nonce ↔
      (w.contract.stakeholderActive caller).toNat + amount.toNat < 2 ^ 64 ∧
        w.contract.totalDeposited.toNat + amount.toNat < 2 ^ 64 ∧
        w.contract.totalActive.toNat + amount.toNat < 2 ^ 64 := by
  obtain ⟨r, hr⟩ : ∃ r, w.contract.deposit (w.env caller ts) amount label kind hint nonce = .ok r :=
    StakeholderDeposit.exists_deposit href.records hadm nonce
  have hexec : w.contract.exec (w.env caller ts) (.deposit amount label kind hint nonce) = .ok r :=
    hr
  obtain ⟨-, deposits, head, -, hspec⟩ := StakeholderDeposit.deposit_spec href.records hr
  have hself : r.contract.getStakeholderBalance caller =
      w.contract.stakeholderActive caller + amount := by
    rw [hspec]
    exact Function.update_self caller _ _
  rw [DepositWorld.AddsExactly, DepositWorld.step, hexec]
  simp only [DepositWorld.commit, hself]
  subst hspec
  constructor
  · rintro (⟨⟨e, he⟩, -⟩ | ⟨hbalance, hdeposited, hactive⟩)
    · cases he
    · exact ⟨toNat_add_eq_iff.1 hbalance, toNat_add_eq_iff.1 hdeposited,
        toNat_add_eq_iff.1 hactive⟩
  · rintro ⟨hbalance, hdeposited, hactive⟩
    exact Or.inr ⟨toNat_add_of_lt hbalance, toNat_add_of_lt hdeposited, toNat_add_of_lt hactive⟩

lemma adds_exactly_of_not_admits {log : List Deposit} (href : Refines w.contract log)
    (caller : Address) (ts : UInt64) {amount : UInt64} (nonce : UInt64) {label kind hint : String}
    (hadm : ¬ w.contract.Admits amount label kind hint) :
    w.AddsExactly caller ts amount label kind hint nonce := by
  obtain ⟨e, he⟩ := (StakeholderDeposit.deposit_eq_error_iff href.records (w.env caller ts)
    nonce).2 hadm
  have hexec : w.contract.exec (w.env caller ts) (.deposit amount label kind hint nonce) = .error e :=
    he
  refine Or.inl ⟨⟨e, hexec⟩, ?_⟩
  rw [DepositWorld.step, hexec]

/-- Before anything has wrapped, no counter exceeds the sum of the accepted deposits. -/
lemma counters_le_depositedSum {log : List Deposit} (hrun : LedgerRun w.history log)
    (href : Refines w.contract log) (hsum : depositedSum w.history < 2 ^ 64) (caller : Address) :
    (w.contract.stakeholderActive caller).toNat ≤ depositedSum w.history ∧
      w.contract.totalDeposited.toNat = depositedSum w.history ∧
      w.contract.totalActive.toNat ≤ depositedSum w.history := by
  rw [hrun.depositedSum_eq] at hsum ⊢
  have hcounted := href.counted hsum
  rw [hcounted.stakeholder, hcounted.deposited, hcounted.active]
  exact ⟨principal_mono fun _ _ => trivial, rfl, principal_mono fun _ _ => trivial⟩

/-- In every reachable state, a call of `deposit` is counted exactly if and only if a check
rejects it or none of its three sums reaches 2^64; and as long as the accepted deposits sum
to less than 2^64, if and only if a check rejects it or they still do with it. -/
theorem adds_exactly_iff (h : (DepositWorld.system owner maxHistory).Reachable w)
    (caller : Address) (ts amount nonce : UInt64) (label kind hint : String) :
    (w.AddsExactly caller ts amount label kind hint nonce ↔
      (w.contract.Admits amount label kind hint →
        (w.contract.stakeholderActive caller).toNat + amount.toNat < 2 ^ 64 ∧
          w.contract.totalDeposited.toNat + amount.toNat < 2 ^ 64 ∧
          w.contract.totalActive.toNat + amount.toNat < 2 ^ 64)) ∧
    (depositedSum w.history < 2 ^ 64 →
      (w.AddsExactly caller ts amount label kind hint nonce ↔
        (w.contract.Admits amount label kind hint →
          depositedSum w.history + amount.toNat < 2 ^ 64))) := by
  obtain ⟨log, hrun, href⟩ := exists_refines h
  by_cases hadm : w.contract.Admits amount label kind hint
  · have hiff := adds_exactly_of_admits href caller ts nonce hadm
    refine ⟨hiff.trans ⟨fun hsums _ => hsums, fun hsums => hsums hadm⟩, fun hsum => ?_⟩
    obtain ⟨hbalance, hdeposited, hactive⟩ := counters_le_depositedSum hrun href hsum caller
    rw [hiff]
    constructor
    · rintro ⟨-, hfits, -⟩ -
      omega
    · intro hfits
      have := hfits hadm
      exact ⟨by omega, by omega, by omega⟩
  · have hexact := adds_exactly_of_not_admits href caller ts nonce hadm
    exact ⟨iff_of_true hexact fun hc => absurd hc hadm,
      fun _ => iff_of_true hexact fun hc => absurd hc hadm⟩

end

/-- One account deposits `2^64 - 1` motes. -/
def fullDeposit : List DepositWorld.Action :=
  [.call (.account 1) 10 (.deposit 18446744073709551615 "Mall XYZ Operator" "parking" "auto" 1)]

/-- Two accounts deposit seven and five motes. -/
def smallDeposits : List DepositWorld.Action :=
  [.call (.account 1) 10 (.deposit 7 "Mall XYZ Operator" "parking" "auto" 1),
    .call (.account 2) 11 (.deposit 5 "Hotel ABC" "parking" "auto" 2)]

/-- A deposit after these is counted that fills the counters to the brim. -/
theorem adds_exactly_third_deposit :
    (DepositWorld.after 8 smallDeposits).AddsExactly (.account 1) 12 18446744073709551603
      "Mall XYZ Operator" "parking" "auto" 3 :=
  ((adds_exactly_iff (DepositWorld.reachable_after 8 smallDeposits) (.account 1) 12
    18446744073709551603 3 "Mall XYZ Operator" "parking" "auto").2 (by decide)).2 fun _ => by decide

/-- Not every deposit is counted exactly: one mote more sets the counters back to 0. -/
theorem one_more_mote_wraps :
    ¬ ∀ (owner : Address) (maxHistory : UInt32) (w : DepositWorld),
      (DepositWorld.system owner maxHistory).Reachable w →
        ∀ (caller : Address) (ts amount nonce : UInt64) (label kind hint : String),
          w.AddsExactly caller ts amount label kind hint nonce := by
  intro h
  rcases h (.account 9) 8 (DepositWorld.after 8 fullDeposit)
    (DepositWorld.reachable_after 8 fullDeposit) (.account 1) 11 1 2 "Mall XYZ Operator" "parking"
    "auto" with ⟨⟨e, he⟩, -⟩ | ⟨-, hdeposited, -⟩
  · have hok : ((DepositWorld.after 8 fullDeposit).contract.exec
        ((DepositWorld.after 8 fullDeposit).env (.account 1) 11)
        (.deposit 1 "Mall XYZ Operator" "parking" "auto" 2)).isOk = true := by decide
    rw [he] at hok
    cases hok
  · exact absurd hdeposited (by decide)

end ArwaAgent
