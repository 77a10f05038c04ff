import ArwaAgent.Contracts.AgentVault

/-!
# What the entry points of AgentVault do

One lemma for each entry point; later files cite these and never unfold an entry point
again.  The audit entry point is described over the log of all decisions whose last
records the ring buffer holds.  The custody entry points are described exactly: a call
succeeds if and only if its checks pass and the sums fit, and then it leaves behind
what the lemma says.
-/

namespace ArwaAgent

namespace AgentVault

variable {self : AgentVault} {env : Env} {r : Commit AgentVault VaultEvent}

/-! ### Agents -/

lemma registerAgent_eq_ok_iff {agent : Address} :
    self.registerAgent env agent = .ok r ↔ env.caller = self.owner ∧
      r = { contract := { self with agents := Function.update self.agents agent true }
            event := none } := by
  rw [registerAgent, require_bind_eq_ok_iff]
  exact and_congr_right fun _ => ⟨fun h => by cases h; rfl, fun h => by rw [h]; rfl⟩

lemma unregisterAgent_eq_ok_iff {agent : Address} :
    self.unregisterAgent env agent = .ok r ↔ env.caller = self.owner ∧
      r = { contract := { self with agents := Function.update self.agents agent false }
            event := none } := by
  rw [unregisterAgent, require_bind_eq_ok_iff]
  exact and_congr_right fun _ => ⟨fun h => by cases h; rfl, fun h => by rw [h]; rfl⟩

/-! ### The audit log -/

/-- What a decision adds to the reputation of its agent. -/
def Strategy.repDelta (args : Strategy) : UInt64 := if args.outcome = "success" then 1 else 0

/-- The entry that an accepted call of `executeStrategy` writes. -/
def Strategy.decision (args : Strategy) (env : Env) : DecisionLog where
  timestamp := env.blockTime
  agent := env.caller
  action := args.action
  amountIn := args.amountIn
  amountOut := args.amountOut
  tokenIn := args.tokenIn
  tokenOut := args.tokenOut
  pair := args.pair
  txHash := args.txHash
  x402Proof := args.x402Proof
  x402Signer := args.x402Signer
  outcome := args.outcome
  reputationDelta := args.repDelta

/-- The storage after the decision `d` has been written into the slots. -/
def logged (self : AgentVault) (d : DecisionLog) (slots : List DecisionLog) (head : UInt32) :
    AgentVault :=
  { self with
    decisionLog := slots
    decisionHead := head
    totalStrategies := self.totalStrategies + 1
    reputation := Function.update self.reputation d.agent
      (self.reputation d.agent + d.reputationDelta)
    reputationGlobal :=
      if 0 < d.reputationDelta then self.reputationGlobal + d.reputationDelta
      else self.reputationGlobal }

lemma cap_toNat (self : AgentVault) : self.cap.toNat = max self.maxLogHistory.toNat 1 := by
  rw [cap, toNat_max]
  rfl

/-- An accepted decision comes from an agent and is written into the ring buffer. -/
lemma contract_of_executeStrategy {args : Strategy}
    (hr : self.executeStrategy env args = .ok r) :
    self.agents env.caller = true ∧ self.minStrategyAmount ≤ args.amountIn ∧ ∃ slots head,
      ringWrite self.cap self.decisionHead self.decisionLog (args.decision env) =
        .ok (slots, head) ∧
      r = { contract := self.logged (args.decision env) slots head, event := none } := by
  rw [executeStrategy, require_bind_eq_ok_iff, require_bind_eq_ok_iff, bind_eq_ok_iff] at hr
  obtain ⟨hagent, hmin, ⟨slots, head⟩, hw, hr⟩ := hr
  cases hr
  exact ⟨hagent, hmin, slots, head, hw, rfl⟩

/-- Over a ring buffer that holds the last decisions of a log, it is appended to that log. -/
lemma executeStrategy_spec {log : List DecisionLog} {args : Strategy}
    (h : RingBuffer.Holds self.cap.toNat self.decisionLog self.decisionHead.toNat log)
    (hr : self.executeStrategy env args = .ok r) :
    ∃ slots head, RingBuffer.Holds self.cap.toNat slots head.toNat (log ++ [args.decision env]) ∧
      r = { contract := self.logged (args.decision env) slots head, event := none } := by
  obtain ⟨-, -, slots, head, hw, rfl⟩ := contract_of_executeStrategy hr
  obtain ⟨slots', head', hring, hholds⟩ := ringWrite_spec h (args.decision env)
  have hwritten := hw.symm.trans hring
  cases hwritten
  exact ⟨slots, head, hholds, rfl⟩

/-! ### Custody -/

/-- `depositForStrategy` succeeds exactly when its checks pass and both sums fit. -/
lemma depositForStrategy_eq_ok_iff {amount : U256} {source : String} :
    self.depositForStrategy env amount source = .ok r ↔
      self.agents env.caller = true ∧ 0 < amount ∧ source.utf8ByteSize ≤ 64 ∧
      ∃ custodied total : U256,
        custodied.toNat = self.custodiedCspr.toNat + amount.toNat ∧
        total.toNat = self.totalCustodied.toNat + amount.toNat ∧
        r = { contract := { self with custodiedCspr := custodied, totalCustodied := total }
              event := some (.deposit
                { amount, agent := env.caller, source, newCustodied := custodied }) } := by
  rw [depositForStrategy, require_bind_eq_ok_iff, require_bind_eq_ok_iff, require_bind_eq_ok_iff]
  refine and_congr_right fun _ => and_congr_right fun _ => and_congr_right fun _ => ?_
  simp only [bind_eq_ok_iff, U256.checkedAdd_eq_ok_iff]
  constructor
  · rintro ⟨custodied, hc, total, ht, hr⟩
    cases hr
    exact ⟨custodied, total, hc, ht, rfl⟩
  · rintro ⟨custodied, total, hc, ht, rfl⟩
    exact ⟨custodied, hc, total, ht, rfl⟩

/-- The checks of `recordStrategyExecution`, and room for one more position. -/
def AdmitsRecord (self : AgentVault) (env : Env) (kind target : String) (amount : U256)
    (openedTx : String) : Prop :=
  self.agents env.caller = true ∧ 0 < amount ∧ kind.utf8ByteSize ≤ 32 ∧
    target.utf8ByteSize ≤ 64 ∧ openedTx.utf8ByteSize ≤ 64 ∧ self.positions.length + 1 < 2 ^ 32

instance (self : AgentVault) (env : Env) (kind target : String) (amount : U256)
    (openedTx : String) : Decidable (self.AdmitsRecord env kind target amount openedTx) :=
  inferInstanceAs (Decidable (_ ∧ _ ∧ _ ∧ _ ∧ _ ∧ _))

/-- What a caller says about a position it opens. -/
structure Opening where
  kind : String
  target : String
  amount : U256
  openedTs : UInt64
  openedTx : String
deriving DecidableEq, Repr

/-- The position opened as number `id`, once its yield has come to `realisedYield`. -/
def Opening.position (o : Opening) (id : UInt64) (realisedYield : U256) : Position where
  id := id
  kind := o.kind
  target := o.target
  amount := o.amount
  openedTs := o.openedTs
  openedTx := o.openedTx
  realisedYield := realisedYield
  isClosed := false
  closedTs := 0
  closedTx := ""

/-- The storage after a position has been opened. -/
def opened (self : AgentVault) (o : Opening) : AgentVault :=
  { self with
    positionCount := self.positionCount + 1
    positions := self.positions ++ [o.position (self.positionCount + 1) 0] }

lemma recordStrategyExecution_eq_ok_iff {kind target openedTx : String} {amount : U256} :
    self.recordStrategyExecution env kind target amount openedTx = .ok r ↔
      self.AdmitsRecord env kind target amount openedTx ∧
      r = { contract := self.opened ⟨kind, target, amount, env.blockTime, openedTx⟩
            event := some (.positionOpened
              { id := self.positionCount + 1, kind, target, amount, agent := env.caller,
                openedTx }) } := by
  rw [recordStrategyExecution, require_bind_eq_ok_iff, require_bind_eq_ok_iff,
    require_bind_eq_ok_iff, require_bind_eq_ok_iff, require_bind_eq_ok_iff, AdmitsRecord]
  simp only [bind_eq_ok_iff, listPush_eq_ok_iff]
  constructor
  · rintro ⟨ha, hpos, hk, ht, htx, positions, ⟨hroom, rfl⟩, hr⟩
    cases hr
    exact ⟨⟨ha, hpos, hk, ht, htx, hroom⟩, rfl⟩
  · rintro ⟨⟨ha, hpos, hk, ht, htx, hroom⟩, rfl⟩
    exact ⟨ha, hpos, hk, ht, htx, _, ⟨hroom, rfl⟩, rfl⟩

/-- The checks of `withdrawForStrategy`. -/
def AdmitsWithdraw (self : AgentVault) (env : Env) (amount : U256) (reason : String) : Prop :=
  self.agents env.caller = true ∧ 0 < amount ∧ amount ≤ self.custodiedCspr ∧
    reason.utf8ByteSize ≤ 64

instance (self : AgentVault) (env : Env) (amount : U256) (reason : String) :
    Decidable (self.AdmitsWithdraw env amount reason) :=
  inferInstanceAs (Decidable (_ ∧ _ ∧ _ ∧ _))

/-- The storage after `amount` motes have been taken out. -/
def withdrawn (self : AgentVault) (amount : U256) : AgentVault :=
  { self with custodiedCspr := self.custodiedCspr - amount }

/-- `withdrawForStrategy` succeeds exactly when its checks pass: the difference never
underflows. -/
lemma withdrawForStrategy_eq_ok_iff {amount : U256} {reason : String} :
    self.withdrawForStrategy env amount reason = .ok r ↔
      self.AdmitsWithdraw env amount reason ∧
      r = { contract := self.withdrawn amount
            event := some (.withdraw
              { amount, agent := env.caller, reason,
                newCustodied := self.custodiedCspr - amount }) } := by
  rw [withdrawForStrategy, require_bind_eq_ok_iff, require_bind_eq_ok_iff,
    require_bind_eq_ok_iff, require_bind_eq_ok_iff, AdmitsWithdraw]
  constructor
  · rintro ⟨ha, hpos, hle, hreason, hr⟩
    rw [U256.checkedSub, if_pos hle] at hr
    cases hr
    exact ⟨⟨ha, hpos, hle, hreason⟩, rfl⟩
  · rintro ⟨⟨ha, hpos, hle, hreason⟩, rfl⟩
    refine ⟨ha, hpos, hle, hreason, ?_⟩
    rw [U256.checkedSub, if_pos hle]
    rfl

/-- The guard on the balance comes before the difference, which therefore never panics. -/
lemma withdrawForStrategy_ne_panic {amount : U256} {reason : String} :
    self.withdrawForStrategy env amount reason ≠ .error .panic := by
  intro hr
  simp only [withdrawForStrategy, require_bind_eq_error_iff, reduceCtorEq, and_false,
    false_or] at hr
  obtain ⟨-, -, hle, -, hr⟩ := hr
  rw [U256.checkedSub, if_pos hle] at hr
  cases hr

/-! ### Yield -/

lemma positions_take (h : self.positions.length < 2 ^ 32) :
    self.positions.take (listLen self.positions).toNat = self.positions := by
  rw [toNat_listLen h, List.take_length]

lemma toNat_findPosition (h : self.positions.length < 2 ^ 32) {positionId : UInt64} {i : ℕ}
    (hfind : self.positions.findIdx? (fun p => p.id = positionId) = some i) :
    (self.findPosition positionId).toNat = i := by
  have hi : i < self.positions.length := (List.findIdx?_eq_some_iff_getElem.1 hfind).1
  rw [findPosition, positions_take h, hfind]
  exact UInt32.toNat_ofNat_of_lt' (by show i < 2 ^ 32; omega)

lemma findPosition_ne_iff (h : self.positions.length < 2 ^ 32) {positionId : UInt64} :
    self.findPosition positionId ≠ 0xffffffff ↔
      ∃ i, self.positions.findIdx? (fun p => p.id = positionId) = some i := by
  cases hfind : self.positions.findIdx? fun p => p.id = positionId with
  | none =>
    rw [findPosition, positions_take h, hfind]
    simp
  | some i =>
    refine ⟨fun _ => ⟨i, rfl⟩, fun _ hmax => ?_⟩
    -- an index is below the length, so it is never `u32::MAX`
    have hi : i < self.positions.length := (List.findIdx?_eq_some_iff_getElem.1 hfind).1
    have hnat := toNat_findPosition h hfind
    rw [hmax] at hnat
    change 2 ^ 32 - 1 = i at hnat
    omega

/-- The storage after yield has been claimed from the position `p` in slot `i`. -/
def credited (self : AgentVault) (i : ℕ) (p : Position) (realised total : U256) : AgentVault :=
  { self with
    positions := self.positions.set i { p with realisedYield := realised }
    totalYieldRealised := total }

/-- Recording yield touches the positions and the total yield only. -/
lemma contract_of_recordYieldRealised {positionId : UInt64} {yieldAmount : U256}
    {sourceTx : String}
    (hr : self.recordYieldRealised env positionId yieldAmount sourceTx = .ok r) :
    ∃ positions total,
      r.contract = { self with positions := positions, totalYieldRealised := total } := by
  rw [recordYieldRealised, require_bind_eq_ok_iff, require_bind_eq_ok_iff,
    require_bind_eq_ok_iff, require_bind_eq_ok_iff] at hr
  simp only [bind_eq_ok_iff] at hr
  obtain ⟨-, -, -, -, _, -, _, -, positions, -, total, -, hr⟩ := hr
  cases hr
  exact ⟨positions, total, rfl⟩

/-- `recordYieldRealised` credits the first position with the id. -/
lemma recordYieldRealised_eq_ok_iff (h : self.positions.length < 2 ^ 32) {positionId : UInt64}
    {yieldAmount : U256} {sourceTx : String} :
    self.recordYieldRealised env positionId yieldAmount sourceTx = .ok r ↔
      self.agents env.caller = true ∧ 0 < yieldAmount ∧ sourceTx.utf8ByteSize ≤ 64 ∧
      ∃ i p, ∃ realised total : U256,
        self.positions.findIdx? (fun p => p.id = positionId) = some i ∧
        self.positions[i]? = some p ∧
        realised.toNat = p.realisedYield.toNat + yieldAmount.toNat ∧
        total.toNat = self.totalYieldRealised.toNat + yieldAmount.toNat ∧
        r = { contract := self.credited i p realised total
              event := some (.yieldRealised
                { positionId, yieldAmount, newPositionTotal := realised, totalYield := total,
                  sourceTx, agent := env.caller }) } := by
  rw [recordYieldRealised, require_bind_eq_ok_iff, require_bind_eq_ok_iff,
    require_bind_eq_ok_iff, require_bind_eq_ok_iff, findPosition_ne_iff h]
  refine and_congr_right fun _ => and_congr_right fun _ => and_congr_right fun _ => ?_
  simp only [bind_eq_ok_iff, unwrap_eq_ok_iff, U256.checkedAdd_eq_ok_iff, listReplace_eq_ok_iff]
  constructor
  · rintro ⟨⟨i, hfind⟩, p, hp, realised, hreal, positions, ⟨-, rfl⟩, total, htotal, hr⟩
    rw [toNat_findPosition h hfind] at hp hr
    cases hr
    exact ⟨i, p, realised, total, hfind, hp, hreal, htotal, rfl⟩
  · rintro ⟨i, p, realised, total, hfind, hp, hreal, htotal, rfl⟩
    have hi := (List.getElem?_eq_some_iff.1 hp).1
    rw [toNat_findPosition h hfind]
    exact ⟨⟨i, hfind⟩, p, hp, realised, hreal, _, ⟨hi, rfl⟩, total, htotal, rfl⟩

end AgentVault

end ArwaAgent
