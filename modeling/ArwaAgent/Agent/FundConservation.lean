import ArwaAgent.Agent.FundTexts

/-!
# When the counters of the stakeholders balance

What the stakeholders have deposited should be what is active and what they have withdrawn.
A deposit may come with motes that count as withdrawn without having been active, and a
withdrawal beyond what is active counts in full while the active motes stop at zero.  The
difference, `surplus`, only changes by these two, so the counters balance all along a run
exactly when it has neither.
-/

namespace ArwaAgent

open Js

/-- The calls that count deposits and withdrawals of stakeholders. -/
inductive StakeholderCall
  | deposit (amountMotes : String) (withdrawn : Option String)
  | withdrawal (amountMotes : String)

namespace StakeholderCall

/-- The record of a call; nothing has been withdrawn of a deposit by default. -/
def toRecord : StakeholderCall → FundRecord
  | .deposit amountMotes withdrawn => .stakeholderDeposit amountMotes (withdrawn.getD "0")
  | .withdrawal amountMotes => .stakeholderWithdrawal amountMotes

/-- The amounts of a call. -/
def amounts : StakeholderCall → List String
  | .deposit amountMotes withdrawn => amountMotes :: withdrawn.toList
  | .withdrawal amountMotes => [amountMotes]

end StakeholderCall

namespace FundTexts

/-- A call at a time; one that throws leaves the cache as it is. -/
def call (cache : FundTexts) (c : ℕ × StakeholderCall) : FundTexts :=
  match cache.record c.1 c.2.toRecord with
  | .ok cache' => cache'
  | .error _ => cache

/-- `stakeholderTotalMotes` is the sum of the active motes and those withdrawn. -/
def Balanced (cache : FundTexts) : Prop :=
  ∃ total active withdrawn, Value.bigIntOfString cache.stakeholderTotalMotes = .ok total ∧
    Value.bigIntOfString cache.stakeholderActiveMotes = .ok active ∧
    Value.bigIntOfString cache.stakeholderWithdrawnMotes = .ok withdrawn ∧
    total = active + withdrawn

/-- A deposit of which nothing counts as withdrawn, or a withdrawal of active motes. -/
def Covers (cache : FundTexts) (c : ℕ × StakeholderCall) : Prop :=
  match c.2 with
  | .deposit amountMotes withdrawn =>
    ∀ amount out, Value.bigIntOfString amountMotes = .ok amount →
      Value.bigIntOfString (withdrawn.getD "0") = .ok out → out = 0
  | .withdrawal amountMotes =>
    ∀ amount active, Value.bigIntOfString amountMotes = .ok amount →
      Value.bigIntOfString cache.stakeholderActiveMotes = .ok active → amount ≤ active

end FundTexts

/-- What the counters have as active or withdrawn beyond the deposits. -/
def FundState.surplus (s : FundState) : ℤ :=
  s.stakeholderActiveMotes + s.stakeholderWithdrawnMotes - s.stakeholderTotalMotes

section

variable {s : FundState} {now : ℕ} {c : ℕ × StakeholderCall}

lemma surplus_deposit (s : FundState) (amount out : ℤ) :
    ((FundChange.stakeholderDeposit amount out).apply s).surplus = s.surplus + out := by
  simp only [FundState.surplus, FundChange.apply]
  ring

/-- A withdrawal adds what it takes beyond the active motes. -/
lemma surplus_withdrawal (s : FundState) (amount : ℤ) :
    ((FundChange.stakeholderWithdrawal amount).apply s).surplus =
      s.surplus + (amount - s.stakeholderActiveMotes) ⊔ 0 := by
  simp only [FundState.surplus, FundChange.apply, FundState.subOrZero]
  split_ifs with h
  · rw [sup_of_le_right (by omega)]
    omega
  · rw [sup_of_le_left (by omega)]
    omega

lemma balanced_texts_iff : s.texts.Balanced ↔ s.surplus = 0 := by
  simp only [FundTexts.Balanced, FundState.texts, bigIntOfString_toString, Except.ok.injEq,
    FundState.surplus]
  constructor
  · rintro ⟨_, _, _, rfl, rfl, rfl, h⟩
    omega
  · exact fun h => ⟨_, _, _, rfl, rfl, rfl, by omega⟩

lemma call_texts (s : FundState) (now : ℕ) (k : StakeholderCall) :
    s.texts.call (now, k) = match k.toRecord.parse with
      | .ok change => FundState.texts { change.apply s with lastUpdated := now }
      | .error _ => s.texts := by
  rw [FundTexts.call, FundTexts.record_texts, record_eq]
  cases k.toRecord.parse <;> rfl

/-- From balanced counters, a call leads to balanced ones exactly when it is covered. -/
lemma balanced_call_iff (hs : s.surplus = 0) :
    (s.texts.call c).Balanced ↔ s.texts.Covers c := by
  obtain ⟨now, k⟩ := c
  rw [call_texts]
  cases k with
  | deposit amountMotes withdrawn =>
    simp only [StakeholderCall.toRecord, FundRecord.parse, FundTexts.Covers]
    cases Value.bigIntOfString amountMotes with
    | error e => exact iff_of_true (balanced_texts_iff.2 hs) (by simp)
    | ok amount =>
      cases Value.bigIntOfString (withdrawn.getD "0") with
      | error e => exact iff_of_true (balanced_texts_iff.2 hs) (by simp)
      | ok out =>
        have hsurplus := surplus_deposit s amount out
        rw [hs, zero_add] at hsurplus
        show FundTexts.Balanced (FundState.texts _) ↔ _
        rw [balanced_texts_iff]
        show ((FundChange.stakeholderDeposit amount out).apply s).surplus = 0 ↔ _
        rw [hsurplus]
        simp
  | withdrawal amountMotes =>
    simp only [StakeholderCall.toRecord, FundRecord.parse, FundTexts.Covers]
    cases Value.bigIntOfString amountMotes with
    | error e => exact iff_of_true (balanced_texts_iff.2 hs) (by simp)
    | ok amount =>
      have hsurplus := surplus_withdrawal s amount
      rw [hs, zero_add] at hsurplus
      show FundTexts.Balanced (FundState.texts _) ↔ _
      rw [balanced_texts_iff]
      show ((FundChange.stakeholderWithdrawal amount).apply s).surplus = 0 ↔ _
      rw [hsurplus]
      simp only [FundState.texts, bigIntOfString_toString, Except.ok.injEq, sup_eq_right,
        tsub_le_iff_right, zero_add]
      constructor
      · rintro hle _ _ rfl rfl
        exact hle
      · exact fun h => h _ _ rfl rfl

end

/-- The counters of the stakeholders balance after every call of a sequence exactly when no
deposit of it comes with withdrawn motes and no withdrawal of it exceeds the active motes. -/
theorem stakeholder_counters_balance_iff (now : ℕ) (calls : List (ℕ × StakeholderCall)) :
    (∀ calls', calls' <+: calls →
        (calls'.foldl FundTexts.call (FundTexts.defaultState now)).Balanced) ↔
      TransitionSystem.Along FundTexts.call FundTexts.Covers (FundTexts.defaultState now) calls := by
  refine TransitionSystem.forall_prefix_iff_along
    (J := fun cache : FundTexts => ∃ s : FundState, cache = s.texts) ?_ ?_
    ⟨_, FundTexts.defaultState_eq now⟩ ?_ calls
  · rintro _ ⟨now, k⟩ ⟨s, rfl⟩
    rw [call_texts]
    cases k.toRecord.parse with
    | ok change => exact ⟨_, rfl⟩
    | error e => exact ⟨s, rfl⟩
  · rintro _ c ⟨s, rfl⟩ hs
    exact balanced_call_iff (balanced_texts_iff.1 hs)
  · exact (FundTexts.defaultState_eq now).symm ▸ balanced_texts_iff.2 rfl

/-- A withdrawal of more than has been deposited counts in full. -/
theorem overdrawn_counters_do_not_balance :
    ¬ ∀ (now : ℕ) (calls : List (ℕ × StakeholderCall)),
      (∀ c ∈ calls, ∀ amount ∈ c.2.amounts, amount ≠ "" ∧ amount.toList.all Char.isDigit = true) →
        (calls.foldl FundTexts.call (FundTexts.defaultState now)).Balanced := by
  intro h
  have hbalanced := h 0 [(1, .deposit "10000000000" none), (2, .withdrawal "50000000000")]
    (by decide)
  have hstate : [(1, StakeholderCall.deposit "10000000000" none),
      (2, .withdrawal "50000000000")].foldl FundTexts.call (FundTexts.defaultState 0) =
        FundState.texts ⟨0, 0, 0, 0, 1, 0, 10000000000, 50000000000, 2⟩ := by decide
  rw [hstate, balanced_texts_iff] at hbalanced
  revert hbalanced
  decide

end ArwaAgent
