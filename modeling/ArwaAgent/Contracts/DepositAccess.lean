import ArwaAgent.Contracts.DepositRefinement

/-!
# Who may do what with a StakeholderDeposit

The owner is the one of the deployment for good: `transferOwnership` only announces another one.
Whether the contract is paused is read off the history, as what the owner has said last.  A paused
contract is frozen (`frozen_run`): whatever is called, and by whomever, its records, balances and
counters stay as they are and nothing is paid, until the owner ends the pause.
-/

namespace ArwaAgent

open StakeholderDeposit (Call Accepted)

namespace StakeholderDeposit

/-- The calls that only the owner may make. -/
def Call.administers : Call → Bool
  | .transferOwnership _ | .setPaused _ => true
  | _ => false

/-- Whether the contract is paused after a call that was accepted. -/
def Call.pauses (paused : Bool) : Call → Bool
  | .setPaused paused => paused
  | _ => paused

/-- What an accepted call has asked for, and what it leaves of owner and pause; the calls of the
owner leave everything else too. -/
lemma exec_access {self : StakeholderDeposit} {log : List Deposit} {env : Env} {call : Call}
    {r : Accepted} (h : self.Records log) (hr : self.exec env call = .ok r) :
    (if call.administers then env.caller = self.owner else self.paused = false) ∧
      r.contract.owner = self.owner ∧ r.contract.paused = call.pauses self.paused ∧
      (call.administers = true →
        r.contract = { self with paused := r.contract.paused } ∧ r.transfer = none) := by
  cases call with
  | deposit amount label kind hint nonce =>
    obtain ⟨hadm, deposits, head, -, rfl⟩ := deposit_spec h hr
    exact ⟨hadm.1, rfl, rfl, nofun⟩
  | withdraw depositId =>
    obtain ⟨hp, i, d, -, -, -, -, -, -, rfl⟩ := (withdraw_eq_ok_iff h).1 hr
    exact ⟨hp, rfl, rfl, nofun⟩
  | transferOwnership newOwner =>
    rw [exec, transferOwnership, onlyOwner, require_bind_eq_ok_iff] at hr
    obtain ⟨howner, hr⟩ := hr
    cases hr
    exact ⟨howner, rfl, rfl, fun _ => ⟨rfl, rfl⟩⟩
  | setPaused paused =>
    rw [exec, setPaused, onlyOwner, require_bind_eq_ok_iff] at hr
    obtain ⟨howner, hr⟩ := hr
    cases hr
    exact ⟨howner, rfl, rfl, fun _ => ⟨rfl, rfl⟩⟩

end StakeholderDeposit

/-! ### Reading a history -/

/-- Whether the contract has been paused last. -/
def pauseOf (h : List Receipt) : Bool :=
  h.foldl (fun paused r => match r with
    | .accepted _ call _ _ => call.pauses paused
    | .funded _ _ => paused) false

/-- The caller of an accepted call had the right to make it after `before`. -/
def Receipt.Authorised (owner : Address) (before : List Receipt) : Receipt → Prop
  | .accepted caller call _ _ =>
    if call.administers then caller = owner else pauseOf before = false
  | .funded _ _ => True

/-- What the storage says about the history, and the history about its callers. -/
structure DepositWorld.Governed (owner : Address) (w : DepositWorld) : Prop where
  owner_eq : w.contract.owner = owner
  paused_eq : w.contract.paused = pauseOf w.history
  authorised : ∀ before r after, w.history = before ++ r :: after → r.Authorised owner before

/-- An action that does not end a pause: neither does anyone but the owner. -/
def DepositWorld.Action.KeepsPause (owner : Address) : DepositWorld.Action → Prop
  | .call caller _ (.setPaused false) => caller ≠ owner
  | _ => True

namespace DepositWorld

section

variable {owner : Address} {maxHistory : UInt32} {w : DepositWorld} {log : List Deposit}
  {a : Action}

@[simp] lemma pauseOf_append (h : List Receipt) (r : Receipt) : pauseOf (h ++ [r]) =
    match r with
    | .accepted _ call _ _ => call.pauses (pauseOf h)
    | .funded _ _ => pauseOf h := by
  simp [pauseOf]

lemma Governed.append {h : List Receipt} {r : Receipt}
    (hall : ∀ before r after, h = before ++ r :: after → r.Authorised owner before)
    (hr : r.Authorised owner h) (before : List Receipt) (s : Receipt) (after : List Receipt)
    (hsplit : h ++ [r] = before ++ s :: after) : s.Authorised owner before := by
  rcases snoc_eq_append_cons_iff.1 hsplit with ⟨rfl, rfl, -⟩ | ⟨rest, -, hrest⟩
  · exact hr
  · exact hall before s rest hrest

/-- A step either reverts, or accepts a call, or fills the purse. -/
lemma step_cases (w : DepositWorld) (a : Action) :
    w.step a = w ∨
      (∃ caller ts call r, a = .call caller ts call ∧
        w.contract.exec (w.env caller ts) call = .ok r ∧ w.step a = w.commit caller call r) ∨
      ∃ payer amount, a = .fund payer amount ∧ w.step a =
        { w with purse := w.purse + amount, history := w.history ++ [.funded payer amount] } := by
  cases a with
  | fund payer amount => exact Or.inr (Or.inr ⟨payer, amount, rfl, rfl⟩)
  | call caller ts call =>
    rw [step]
    cases hexec : w.contract.exec (w.env caller ts) call with
    | error e => exact Or.inl rfl
    | ok r => exact Or.inr (Or.inl ⟨caller, ts, call, r, rfl, hexec, rfl⟩)

/-- Every step keeps what the storage and the history say about each other. -/
lemma Governed.step (hI : w.Governed owner) (h : w.contract.Records log) (a : Action) :
    (w.step a).Governed owner := by
  rcases w.step_cases a with hstep | ⟨caller, ts, call, r, -, hexec, hstep⟩ | ⟨payer, amount, -, hstep⟩
  · rw [hstep]
    exact hI
  · obtain ⟨hauth, howner, hpaused, -⟩ := StakeholderDeposit.exec_access h hexec
    rw [hstep]
    refine ⟨howner.trans hI.owner_eq, ?_, Governed.append hI.authorised ?_⟩
    · show r.contract.paused = pauseOf (w.history ++ [_])
      rw [pauseOf_append, hpaused, hI.paused_eq]
    · rw [hI.owner_eq, hI.paused_eq] at hauth
      exact hauth
  · rw [hstep]
    refine ⟨hI.owner_eq, ?_, Governed.append hI.authorised trivial⟩
    show w.contract.paused = pauseOf (w.history ++ [_])
    rw [pauseOf_append, hI.paused_eq]

theorem governed_of_reachable (h : (system owner maxHistory).Reachable w) : w.Governed owner := by
  induction h with
  | init h =>
    subst h
    refine ⟨rfl, rfl, fun before r after hsplit => ?_⟩
    simp [deployed] at hsplit
  | step hs _ ht ih =>
    obtain ⟨log, -, href⟩ := exists_refines hs
    rw [ht]
    exact ih.step href.records _

/-! ### The pause -/

/-- What a pause leaves as it is: the storage, and what has been paid; the purse may be filled. -/
structure Frozen (w w' : DepositWorld) : Prop where
  contract : w'.contract = w.contract
  paid : withdrawalsOf w'.history = withdrawalsOf w.history
  purse : w.purse ≤ w'.purse

/-- In a pause, nothing but its end is accepted that changes anything. -/
lemma frozen_step (hI : w.Governed owner) (h : w.contract.Records log)
    (hp : w.contract.paused = true) (ha : a.KeepsPause owner) : w.Frozen (w.step a) := by
  rcases w.step_cases a with hstep | ⟨caller, ts, call, r, rfl, hexec, hstep⟩ | ⟨payer, amount, -, hstep⟩
  · rw [hstep]
    exact ⟨rfl, rfl, Nat.le_refl _⟩
  · obtain ⟨hauth, -, hpaused, hadmin⟩ := StakeholderDeposit.exec_access h hexec
    have hadministers : call.administers = true := by
      by_contra hne
      rw [if_neg hne, hp] at hauth
      cases hauth
    rw [if_pos hadministers] at hauth
    obtain ⟨hcontract, htransfer⟩ := hadmin hadministers
    have hkeeps : r.contract.paused = true := by
      rw [hpaused, hp]
      cases call with
      | setPaused paused =>
        cases paused with
        | true => rfl
        | false => exact absurd (hauth.trans hI.owner_eq) ha
      | _ => rfl
    have hsame : r.contract = w.contract := by
      rw [hcontract, hkeeps, ← hp]
    rw [hstep]
    refine ⟨hsame, ?_, ?_⟩
    · show withdrawalsOf (w.history ++ [_]) = _
      rw [withdrawalsOf_append, htransfer]
      cases call <;> simp [Receipt.withdrew]
    · show w.purse ≤ w.purse - _
      rw [htransfer]
      exact Nat.le_refl _
  · rw [hstep]
    refine ⟨rfl, ?_, Nat.le_add_right _ _⟩
    show withdrawalsOf (w.history ++ [_]) = _
    rw [withdrawalsOf_append]
    simp [Receipt.withdrew]

/-- A pause that nobody ends freezes the contract. -/
theorem frozen_run (h : (system owner maxHistory).Reachable w) (hp : w.contract.paused = true)
    {as : List Action} (has : ∀ a ∈ as, a.KeepsPause owner) : w.Frozen (as.foldl step w) := by
  induction as generalizing w with
  | nil => exact ⟨rfl, rfl, Nat.le_refl _⟩
  | cons a as ih =>
    obtain ⟨log, -, href⟩ := exists_refines h
    have hstep := frozen_step (governed_of_reachable h) href.records hp
      (has a List.mem_cons_self)
    have hrest := ih (h.step trivial rfl) (by rw [hstep.contract]; exact hp)
      fun b hb => has b (List.mem_cons_of_mem _ hb)
    exact ⟨hrest.contract.trans hstep.contract, hrest.paid.trans hstep.paid,
      hstep.purse.trans hrest.purse⟩

end

end DepositWorld

open DepositWorld

/-- In every run of calls by anyone: the owner is the one of the deployment; the contract is paused
as the owner has said last; every call of the owner's was made by the owner, and every other one
while the contract was not paused; and from a pause on, the records, the balances and the counters
stay as they are and nothing is paid, whatever is called, until the owner ends it. -/
theorem deposit_access {owner : Address} {maxHistory : UInt32} {w : DepositWorld}
    (h : (system owner maxHistory).Reachable w) :
    w.contract.owner = owner ∧ w.contract.paused = pauseOf w.history ∧
      (∀ before r after, w.history = before ++ r :: after → r.Authorised owner before) ∧
      (w.contract.paused = true → ∀ as : List Action, (∀ a ∈ as, a.KeepsPause owner) →
        (as.foldl step w).contract = w.contract ∧
          withdrawalsOf (as.foldl step w).history = withdrawalsOf w.history ∧
          w.purse ≤ (as.foldl step w).purse) := by
  have hI := governed_of_reachable h
  refine ⟨hI.owner_eq, hI.paused_eq, hI.authorised, fun hp as has => ?_⟩
  have hfrozen := frozen_run h hp has
  exact ⟨hfrozen.contract, hfrozen.paid, hfrozen.purse⟩

/-- Account 9 announces another owner and pauses the contract with the two deposits in it. -/
def pausedDeposits : List Action :=
  twoDeposits ++ [.call (.account 9) 12 (.transferOwnership (.account 1)),
    .call (.account 9) 13 (.setPaused true)]

/-- Account 1 can neither end the pause nor get its deposit back. -/
theorem deposit_access_pausedDeposits :
    withdrawalsOf ([.call (.account 1) 14 (.setPaused false),
      .call (.account 1) 15 (.withdraw 1)].foldl step
        (DepositWorld.after 10 pausedDeposits)).history = [] := by
  have hkeeps : ∀ a ∈ [.call (.account 1) 14 (.setPaused false),
      .call (.account 1) 15 (.withdraw 1)], Action.KeepsPause (.account 9) a :=
    List.forall_mem_cons.2 ⟨show Address.account 1 ≠ .account 9 by decide,
      List.forall_mem_singleton.2 trivial⟩
  have hfrozen := (deposit_access (DepositWorld.reachable_after 10 pausedDeposits)).2.2.2
    (by decide) _ hkeeps
  exact hfrozen.2.1.trans (by decide)

end ArwaAgent
