import ArwaAgent.Contracts.VaultCustody
import ArwaAgent.Contracts.VaultDecisions

/-!
# What the events of AgentVault tell

An indexer sees the events of the contract and nothing else.  The four custody entry
points emit one event each, whose fields determine what the call did to the numeric
views; `executeStrategy` counts a strategy and its success, and emits nothing.  Folding
the events therefore rebuilds the custody views of every run, and all views exactly in
the runs in which no decision has been logged.
-/

namespace ArwaAgent

/-- The name of an event in the stream. -/
def VaultEvent.name : VaultEvent → String
  | deposit _ => "VaultDeposit"
  | withdraw _ => "VaultWithdraw"
  | positionOpened _ => "VaultPositionOpened"
  | yieldRealised _ => "VaultYieldRealised"

/-- The events of a stream that the subscriber is passed. -/
def onStrategyExecuted (events : List VaultEvent) : List VaultEvent :=
  events.filter fun e => e.name = "StrategyExecuted"

/-- The numeric views of the contract. -/
@[ext]
structure VaultViews where
  custodiedCspr : U256
  totalCustodied : U256
  totalYieldRealised : U256
  positionCount : UInt64
  totalStrategies : UInt64
  reputation : Address → UInt64

/-- What the views answer. -/
def AgentVault.views (self : AgentVault) : VaultViews where
  custodiedCspr := self.getCustodiedCspr
  totalCustodied := self.getTotalCustodied
  totalYieldRealised := self.getTotalYieldRealised
  positionCount := self.getPositionCount
  totalStrategies := self.getTotalStrategies
  reputation := self.getReputation

namespace VaultViews

/-- The views of a vault that has just been deployed. -/
def initial : VaultViews where
  custodiedCspr := 0
  totalCustodied := 0
  totalYieldRealised := 0
  positionCount := 0
  totalStrategies := 0
  reputation := fun _ => 0

/-- The views after an event. -/
def apply (v : VaultViews) : VaultEvent → VaultViews
  | .deposit e =>
    { v with
      custodiedCspr := v.custodiedCspr + e.amount
      totalCustodied := v.totalCustodied + e.amount }
  | .withdraw e => { v with custodiedCspr := v.custodiedCspr - e.amount }
  | .positionOpened _ => { v with positionCount := v.positionCount + 1 }
  | .yieldRealised e => { v with totalYieldRealised := v.totalYieldRealised + e.yieldAmount }

/-- The views that an indexer folds from a stream of events. -/
def rebuild (events : List VaultEvent) : VaultViews :=
  events.foldl apply initial

end VaultViews

namespace AgentVault

/-- The events that a run has emitted. -/
def eventsOf (h : List VaultInvocation) : List VaultEvent :=
  h.filterMap fun i => i.event

lemma eventsOf_append (h : List VaultInvocation) (i : VaultInvocation) :
    eventsOf (h ++ [i]) = eventsOf h ++ i.event.toList :=
  filterMap_snoc _ h i

/-- The contract has no event for a decision. -/
lemma onStrategyExecuted_eq_nil (events : List VaultEvent) : onStrategyExecuted events = [] := by
  rw [onStrategyExecuted, List.filter_eq_nil_iff]
  intro e _ hname
  cases e <;> simp [VaultEvent.name] at hname

end AgentVault

open AgentVault

/-- The folded views agree with the custody views of the contract, and count no strategy. -/
structure Announced (v : VaultViews) (vault : AgentVault) : Prop where
  custodied : v.custodiedCspr = vault.custodiedCspr
  total : v.totalCustodied = vault.totalCustodied
  yields : v.totalYieldRealised = vault.totalYieldRealised
  count : v.positionCount = vault.positionCount
  strategies : v.totalStrategies = 0
  reputation : v.reputation = fun _ => 0

namespace Announced

lemma add_eq_of_toNat {a b c : U256} (h : c.toNat = a.toNat + b.toNat) : a + b = c := by
  refine BitVec.eq_of_toNat_eq ?_
  rw [BitVec.toNat_add, ← h]
  exact Nat.mod_eq_of_lt c.isLt

variable {v : VaultViews} {self : AgentVault} {q : Request Call}
  {c : Commit AgentVault VaultEvent}

/-- An accepted call moves the custody views by what its event says. -/
lemma step (hv : Announced v self) (hroom : self.positions.length < 2 ^ 32)
    (hc : self.exec q.env q.call = .ok c) :
    Announced (c.event.toList.foldl VaultViews.apply v) c.contract := by
  obtain ⟨env, call⟩ := q
  cases call with
  | registerAgent agent =>
    obtain ⟨-, rfl⟩ := registerAgent_eq_ok_iff.1 hc
    exact ⟨hv.custodied, hv.total, hv.yields, hv.count, hv.strategies, hv.reputation⟩
  | unregisterAgent agent =>
    obtain ⟨-, rfl⟩ := unregisterAgent_eq_ok_iff.1 hc
    exact ⟨hv.custodied, hv.total, hv.yields, hv.count, hv.strategies, hv.reputation⟩
  | executeStrategy args =>
    -- the counters move, and no event says so
    obtain ⟨-, -, slots, head, -, rfl⟩ := contract_of_executeStrategy hc
    exact ⟨hv.custodied, hv.total, hv.yields, hv.count, hv.strategies, hv.reputation⟩
  | depositForStrategy amount source =>
    obtain ⟨-, -, -, custodied, total, hcust, htotal, rfl⟩ := depositForStrategy_eq_ok_iff.1 hc
    refine ⟨?_, ?_, hv.yields, hv.count, hv.strategies, hv.reputation⟩
    · show v.custodiedCspr + amount = custodied
      rw [hv.custodied, add_eq_of_toNat hcust]
    · show v.totalCustodied + amount = total
      rw [hv.total, add_eq_of_toNat htotal]
  | recordStrategyExecution kind target amount openedTx =>
    obtain ⟨-, rfl⟩ := recordStrategyExecution_eq_ok_iff.1 hc
    refine ⟨hv.custodied, hv.total, hv.yields, ?_, hv.strategies, hv.reputation⟩
    show v.positionCount + 1 = self.positionCount + 1
    rw [hv.count]
  | recordYieldRealised positionId yieldAmount sourceTx =>
    obtain ⟨-, -, -, i, p, realised, total, -, -, -, htotal, rfl⟩ :=
      (recordYieldRealised_eq_ok_iff hroom).1 hc
    refine ⟨hv.custodied, hv.total, ?_, hv.count, hv.strategies, hv.reputation⟩
    show v.totalYieldRealised + yieldAmount = total
    rw [hv.yields, add_eq_of_toNat htotal]
  | withdrawForStrategy amount reason =>
    obtain ⟨-, rfl⟩ := withdrawForStrategy_eq_ok_iff.1 hc
    refine ⟨?_, hv.total, hv.yields, hv.count, hv.strategies, hv.reputation⟩
    show v.custodiedCspr - amount = self.custodiedCspr - amount
    rw [hv.custodied]

end Announced

section Runs

variable {owner agent : Address} {maxLogHistory : UInt32} {minStrategyAmount : U256}
  {w : VaultChain}

/-- The custody views are rebuilt from the events of every run. -/
theorem announced_of_reachable
    (hw : (vaultSystem owner agent maxLogHistory minStrategyAmount).Reachable w) :
    Announced (VaultViews.rebuild (eventsOf w.history)) w.contract := by
  have hboth := Chain.invariant
    (I := fun vault h => Custody vault h ∧ Announced (VaultViews.rebuild (eventsOf h)) vault)
    ⟨custody_init owner agent maxLogHistory minStrategyAmount, rfl, rfl, rfl, rfl, rfl, rfl⟩
    ?_ hw
  · exact hboth.2
  · intro w q c hI hc
    refine ⟨custody_step hI.1 hc, ?_⟩
    have hstep := hI.2.step hI.1.room hc
    rw [VaultViews.rebuild, eventsOf_append, List.foldl_append]
    exact hstep

/-- In every run the events rebuild the custody views; they rebuild all numeric views, with one
`StrategyExecuted` event for each accepted decision, if and only if no decision has been
accepted. -/
theorem events_rebuild_iff
    (hw : (vaultSystem owner agent maxLogHistory minStrategyAmount).Reachable w) :
    let v := VaultViews.rebuild (eventsOf w.history)
    (v.custodiedCspr = w.contract.getCustodiedCspr ∧
      v.totalCustodied = w.contract.getTotalCustodied ∧
      v.totalYieldRealised = w.contract.getTotalYieldRealised ∧
      v.positionCount = w.contract.getPositionCount) ∧
    ((v = w.contract.views ∧
        (onStrategyExecuted (eventsOf w.history)).length = (decisionsOf w.history).length) ↔
      decisionsOf w.history = []) := by
  have hv := announced_of_reachable hw
  have hlog := audit_of_reachable hw
  refine ⟨⟨hv.custodied, hv.total, hv.yields, hv.count⟩, ?_⟩
  rw [onStrategyExecuted_eq_nil]
  constructor
  · rintro ⟨-, hcount⟩
    exact List.length_eq_zero_iff.1 hcount.symm
  · intro hnone
    rw [hnone] at hlog ⊢
    refine ⟨?_, rfl⟩
    have htotal : w.contract.totalStrategies = 0 := hlog.total
    have hrep : w.contract.reputation = fun _ => 0 := funext hlog.reputation
    exact VaultViews.ext hv.custodied hv.total hv.yields hv.count
      (hv.strategies.trans htotal.symm) (hv.reputation.trans hrep.symm)

end Runs

/-- Account 2 deposits 100 motes and takes out 40. -/
def depositAndWithdrawal : List (Request Call) :=
  [{ env := { caller := .account 2, blockTime := 7, purse := 0 }
     call := .depositForStrategy 100 "parking" },
    { env := { caller := .account 2, blockTime := 8, purse := 0 }
      call := .withdrawForStrategy 40 "payout" }]

/-- The theorem at work on a run without a decision. -/
theorem events_rebuild_depositAndWithdrawal :
    VaultViews.rebuild (eventsOf (Chain.after exec (.init (.account 1) (.account 2) 50 1)
        depositAndWithdrawal).history) =
      (Chain.after exec (.init (.account 1) (.account 2) 50 1)
        depositAndWithdrawal).contract.views :=
  ((events_rebuild_iff (Chain.reachable_after _ depositAndWithdrawal)).2.2 (by decide)).1

/-- Account 2 logs one decision. -/
def oneDecision : List (Request Call) :=
  [{ env := { caller := .account 2, blockTime := 7, purse := 0 }
     call := .executeStrategy
      { action := "stake", amountIn := 100, amountOut := 0, tokenIn := zeroAddress,
        tokenOut := zeroAddress, pair := "CSPR/staked", txHash := "", x402Proof := "",
        x402Signer := zeroAddress, outcome := "success" } }]

/-- No fold of the events, from whatever views and with whatever effect of an event, rebuilds the
views of every run: a run with one decision emits what the empty run emits. -/
theorem no_fold_rebuilds_views :
    ¬ ∀ (owner agent : Address) (maxLogHistory : UInt32) (minStrategyAmount : U256),
      ∃ (start : VaultViews) (next : VaultViews → VaultEvent → VaultViews), ∀ w : VaultChain,
        (vaultSystem owner agent maxLogHistory minStrategyAmount).Reachable w →
          (eventsOf w.history).foldl next start = w.contract.views := by
  intro h
  obtain ⟨start, next, hall⟩ := h (.account 1) (.account 2) 50 1
  have hempty := hall _ (@Chain.reachable_after _ _ _ exec
    (.init (.account 1) (.account 2) 50 1) [])
  have hone := hall _ (@Chain.reachable_after _ _ _ exec
    (.init (.account 1) (.account 2) 50 1) oneDecision)
  have hviews : (Chain.after exec (.init (.account 1) (.account 2) 50 1)
      oneDecision).contract.views.totalStrategies =
        (Chain.after exec (.init (.account 1) (.account 2) 50 1) []).contract.views.totalStrategies :=
    congrArg VaultViews.totalStrategies (hone.symm.trans hempty)
  revert hviews
  decide

end ArwaAgent
