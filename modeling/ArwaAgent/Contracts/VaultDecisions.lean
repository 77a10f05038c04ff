import ArwaAgent.Contracts.VaultHistory
import Mathlib.Algebra.BigOperators.Group.Finset.Piecewise

/-!
# The audit log of AgentVault is a window on an append-only log

Over every run the ring buffer holds the last decisions of the log of all decisions,
and the counters count that log: the strategies as a whole, the successes of every
agent, and all successes.  The views follow: `getDecisionLog` is a suffix of the log
for every limit, and the global reputation is the sum of the agents' reputations.

The counters are `u64` and wrap, so they are the counts while fewer than `2 ^ 64`
decisions have been logged; the log view needs no bound.
-/

namespace ArwaAgent

open AgentVault

/-- The successes of an agent. -/
def successesOf (log : List DecisionLog) (a : Address) : ℕ :=
  log.countP fun d => d.agent = a ∧ d.outcome = "success"

/-- The successes of the agents, summed up, are all successes. -/
lemma sum_successesOf (log : List DecisionLog) :
    ∑ a, successesOf log a = log.countP fun d => d.outcome = "success" := by
  induction log with
  | nil => simp [successesOf]
  | cons d log ih =>
    have hcons : ∀ a, successesOf (d :: log) a =
        successesOf log a + if d.agent = a then (if d.outcome = "success" then 1 else 0) else 0 := by
      intro a
      rw [successesOf, List.countP_cons, ← successesOf]
      by_cases ha : d.agent = a <;> by_cases hs : d.outcome = "success" <;> simp [ha, hs]
    simp only [hcons, Finset.sum_add_distrib, ih, Finset.sum_ite_eq, Finset.mem_univ, if_true,
      List.countP_cons, decide_eq_true_eq]

/-- What the audit part of the storage says about the log of all decisions. -/
structure Audit (cap : ℕ) (vault : AgentVault) (log : List DecisionLog) : Prop where
  cap_eq : vault.cap.toNat = cap
  holds : RingBuffer.Holds vault.cap.toNat vault.decisionLog vault.decisionHead.toNat log
  total : vault.totalStrategies = UInt64.ofNat log.length
  reputation : ∀ a, vault.reputation a = UInt64.ofNat (successesOf log a)
  global : vault.reputationGlobal = UInt64.ofNat (log.countP fun d => d.outcome = "success")

lemma audit_init (owner agent : Address) (maxLogHistory : UInt32) (minStrategyAmount : U256) :
    Audit (max maxLogHistory.toNat 1) (.init owner agent maxLogHistory minStrategyAmount) [] := by
  have hcap : (AgentVault.init owner agent maxLogHistory minStrategyAmount).cap.toNat =
      max maxLogHistory.toNat 1 := by
    rw [cap_toNat, AgentVault.init, toNat_max]
    exact Nat.max_eq_left (Nat.le_max_right _ _)
  refine ⟨hcap, RingBuffer.holds_nil ?_, rfl, fun a => rfl, rfl⟩
  rw [hcap]
  omega

lemma Audit.logged {cap : ℕ} {self : AgentVault} {log slots : List DecisionLog} {head : UInt32}
    (hI : Audit cap self log) (args : Strategy) (env : Env)
    (h : RingBuffer.Holds self.cap.toNat slots head.toNat (log ++ [args.decision env])) :
    Audit cap (self.logged (args.decision env) slots head) (log ++ [args.decision env]) where
  cap_eq := hI.cap_eq
  holds := h
  total := by
    show self.totalStrategies + 1 = _
    rw [hI.total, List.length_append, List.length_singleton, UInt64.ofNat_add]
    rfl
  reputation := by
    intro a
    show Function.update self.reputation env.caller _ a = _
    rw [successesOf, List.countP_append, ← successesOf, UInt64.ofNat_add, ← hI.reputation]
    by_cases ha : a = env.caller
    · subst ha
      rw [Function.update_self]
      by_cases hs : args.outcome = "success" <;> simp [Strategy.decision, Strategy.repDelta, hs]
    · rw [Function.update_of_ne ha]
      simp [Strategy.decision, Ne.symm ha]
  global := by
    show (if 0 < args.repDelta then self.reputationGlobal + args.repDelta else _) = _
    rw [List.countP_append, UInt64.ofNat_add, ← hI.global]
    by_cases hs : args.outcome = "success" <;> simp [Strategy.decision, Strategy.repDelta, hs]

lemma Audit.frame {cap : ℕ} {self other : AgentVault} {log : List DecisionLog}
    (hI : Audit cap self log) (hlog : other.decisionLog = self.decisionLog)
    (hhead : other.decisionHead = self.decisionHead)
    (hmax : other.maxLogHistory = self.maxLogHistory)
    (htotal : other.totalStrategies = self.totalStrategies)
    (hrep : other.reputation = self.reputation)
    (hglobal : other.reputationGlobal = self.reputationGlobal) : Audit cap other log := by
  have hcap : other.cap = self.cap := by rw [AgentVault.cap, AgentVault.cap, hmax]
  exact ⟨hcap ▸ hI.cap_eq, by rw [hcap, hlog, hhead]; exact hI.holds, htotal ▸ hI.total,
    hrep ▸ hI.reputation, hglobal ▸ hI.global⟩

/-- Every accepted call keeps the correspondence. -/
lemma audit_step {cap : ℕ} {self : AgentVault} {h : List VaultInvocation}
    {q : Request AgentVault.Call} {c : Commit AgentVault VaultEvent}
    (hI : Audit cap self (decisionsOf h)) (hc : self.exec q.env q.call = .ok c) :
    Audit cap c.contract (decisionsOf (h ++ [{ q with event := c.event }])) := by
  rw [decisionsOf_append]
  obtain ⟨env, call⟩ := q
  cases call with
  | executeStrategy args =>
    obtain ⟨slots, head, hholds, rfl⟩ := executeStrategy_spec hI.holds hc
    exact hI.logged args env hholds
  | registerAgent agent =>
    obtain ⟨-, rfl⟩ := registerAgent_eq_ok_iff.1 hc
    exact (List.append_nil _).symm ▸ hI.frame rfl rfl rfl rfl rfl rfl
  | unregisterAgent agent =>
    obtain ⟨-, rfl⟩ := unregisterAgent_eq_ok_iff.1 hc
    exact (List.append_nil _).symm ▸ hI.frame rfl rfl rfl rfl rfl rfl
  | depositForStrategy amount source =>
    obtain ⟨-, -, -, custodied, total, -, -, rfl⟩ := depositForStrategy_eq_ok_iff.1 hc
    exact (List.append_nil _).symm ▸ hI.frame rfl rfl rfl rfl rfl rfl
  | recordStrategyExecution kind target amount openedTx =>
    obtain ⟨-, rfl⟩ := recordStrategyExecution_eq_ok_iff.1 hc
    exact (List.append_nil _).symm ▸ hI.frame rfl rfl rfl rfl rfl rfl
  | recordYieldRealised positionId yieldAmount sourceTx =>
    obtain ⟨positions, total, hcontract⟩ := contract_of_recordYieldRealised hc
    rw [hcontract]
    exact (List.append_nil _).symm ▸ hI.frame rfl rfl rfl rfl rfl rfl
  | withdrawForStrategy amount reason =>
    obtain ⟨-, rfl⟩ := withdrawForStrategy_eq_ok_iff.1 hc
    exact (List.append_nil _).symm ▸ hI.frame rfl rfl rfl rfl rfl rfl

section Runs

variable {owner agent : Address} {maxLogHistory : UInt32} {minStrategyAmount : U256}
  {w : VaultChain}

theorem audit_of_reachable
    (hw : (vaultSystem owner agent maxLogHistory minStrategyAmount).Reachable w) :
    Audit (max maxLogHistory.toNat 1) w.contract (decisionsOf w.history) :=
  Chain.invariant (I := fun vault h => Audit _ vault (decisionsOf h))
    (audit_init owner agent maxLogHistory minStrategyAmount)
    (fun _ _ _ hI hc => audit_step hI hc) hw

/-- The audit log is a window on the log of all decisions, and the counters count it. -/
theorem decision_log_refines
    (hw : (vaultSystem owner agent maxLogHistory minStrategyAmount).Reachable w)
    (hlen : (decisionsOf w.history).length < 2 ^ 64) :
    (∀ limit : UInt32, w.contract.getDecisionLog limit = (decisionsOf w.history).rtake
      (min limit.toNat (min (max maxLogHistory.toNat 1) (decisionsOf w.history).length))) ∧
    w.contract.getTotalStrategies.toNat = (decisionsOf w.history).length ∧
    (∀ a, (w.contract.getReputation a).toNat =
      (decisionsOf w.history).countP fun d => d.agent = a ∧ d.outcome = "success") ∧
    w.contract.getGlobalReputation.toNat = ∑ a, (w.contract.getReputation a).toNat := by
  have hI := audit_of_reachable hw
  -- a count of decisions is at most their number, so the counters have not wrapped
  have hcount : ∀ p : DecisionLog → Bool,
      (UInt64.ofNat ((decisionsOf w.history).countP p)).toNat = (decisionsOf w.history).countP p :=
    fun p => UInt64.toNat_ofNat_of_lt' (Nat.lt_of_le_of_lt List.countP_le_length hlen)
  have hrep : ∀ a, (w.contract.getReputation a).toNat = successesOf (decisionsOf w.history) a := by
    intro a
    rw [getReputation, hI.reputation a, successesOf, hcount]
  refine ⟨fun limit => ?_, ?_, hrep, ?_⟩
  · rw [getDecisionLog, hI.holds.recent_eq, hI.cap_eq]
  · rw [getTotalStrategies, hI.total]
    exact UInt64.toNat_ofNat_of_lt' hlen
  · rw [getGlobalReputation, hI.global, hcount]
    simp only [hrep]
    exact (sum_successesOf _).symm

end Runs

/-- Account 2 logs three decisions in a vault of two slots. -/
def threeDecisions : List (Request AgentVault.Call) :=
  ["success", "revert", "success"].map fun outcome =>
    { env := { caller := .account 2, blockTime := 7, purse := 0 }
      call := .executeStrategy
        { action := "stake", amountIn := 100, amountOut := 0, tokenIn := zeroAddress,
          tokenOut := zeroAddress, pair := "CSPR/sCSPR", txHash := "", x402Proof := "",
          x402Signer := zeroAddress, outcome } }

/-- The third decision overwrites the first one; the counters still count it. -/
theorem decision_log_refines_three :
    ((Chain.after AgentVault.exec (.init (.account 1) (.account 2) 2 1)
      threeDecisions).contract.getDecisionLog 5).map DecisionLog.outcome = ["revert", "success"] ∧
    (Chain.after AgentVault.exec (.init (.account 1) (.account 2) 2 1)
      threeDecisions).contract.getTotalStrategies.toNat = 3 ∧
    ((Chain.after AgentVault.exec (.init (.account 1) (.account 2) 2 1)
      threeDecisions).contract.getReputation (.account 2)).toNat = 2 := by
  have h := decision_log_refines
    (w := Chain.after AgentVault.exec (.init (.account 1) (.account 2) 2 1) threeDecisions)
    (Chain.reachable_after _ _) (by decide)
  refine ⟨?_, ?_, ?_⟩
  · rw [h.1]
    decide
  · rw [h.2.1]
    decide
  · rw [h.2.2.1]
    decide

end ArwaAgent
