import ArwaAgent.Agent.FundMoves
import ArwaAgent.Agent.Scenario
import ArwaAgent.Contracts.DepositConservation
import ArwaAgent.Contracts.VaultBacking

/-!
# When the fund cache mirrors the contracts

A deposit of the simulator and one of the bootstrap script move a contract and the cache
by the same amount.  The executor does not: a position that it records leaves the motes in
custody as they are, but the cache counts them as deposited.  So once no task is in flight,
the cache has in custody what the vault has in custody and what its positions hold together,
and it mirrors the contracts exactly if no position has been recorded and the deposits fit
the counters of their contract.
-/

namespace ArwaAgent

open Js Effects Effects.Code AgentVault

/-! ### What the calls do to the contracts and the cache -/

/-- What the counters of the cache say. -/
def FundState.tally (s : FundState) : FundTally :=
  (s.custodianMotes, s.positionsOpened, s.stakeholderActiveMotes, s.stakeholderTotalMotes)

/-- What the contracts say, with the motes of the positions next to those in custody. -/
def FundWorld.onChain (x : FundWorld) : FundTally :=
  (x.vault.contract.custodiedCspr.toNat + x.vault.contract.openAmount,
    x.vault.contract.positionCount.toNat, depositedSum x.deposits.history,
    depositedSum x.deposits.history)

/-- What is on chain and not in the cache. -/
def FundWorld.balance (x : FundWorld) : FundTally :=
  x.onChain - x.store.onDisk.tally

/-- What the runs keep of the contracts: nothing is withdrawn and no position is closed. -/
structure FundWorld.Growing (d : FundWorld.Deployment) (x : FundWorld) : Prop where
  custody : Custody x.vault.contract x.vault.history
  opened : ∀ p ∈ x.vault.contract.positions, p.isClosed = false ∧ 0 < p.amount.toNat
  deposits : (DepositWorld.system d.depositOwner d.maxHistory).Reachable x.deposits
  withdrawals : withdrawalsOf x.deposits.history = []

section

variable {d : FundWorld.Deployment} {x y : FundWorld} {op : FundOp}

/-- A record that adds to the counters adds what it counts. -/
lemma tally_recorded {r : FundRecord} (hadds : r.adds) (s : FundState) :
    (s.recorded r).tally = s.tally + r.counts := by
  rw [FundState.recorded, record_eq, FundRecord.counts]
  cases r with
  | custodianDeposit motes =>
    rw [FundRecord.parse]
    cases Value.bigIntOfString motes with
    | error e => exact (add_zero _).symm
    | ok m => simp [Functor.map, Except.map, FundState.tally, FundChange.apply]
  | positionOpened => simp [FundRecord.parse, Except.map, FundState.tally, FundChange.apply]
  | stakeholderDeposit amountMotes withdrawn =>
    rw [FundRecord.parse]
    cases Value.bigIntOfString amountMotes with
    | error e => exact (add_zero _).symm
    | ok amount =>
      cases Value.bigIntOfString withdrawn with
      | error e => exact (add_zero _).symm
      | ok out =>
        simp [bind, Except.bind, pure, Except.pure, Except.map, FundState.tally, FundChange.apply]
  | _ => cases hadds

lemma toNat_u256Arg {motes : String} {a : U256} (h : u256Arg motes = some a) :
    motesOf motes = a.toNat := by
  rw [u256Arg] at h
  rw [motesOf]
  cases hm : Value.bigIntOfString motes with
  | error e =>
    rw [hm] at h
    cases h
  | ok n =>
    rw [hm] at h
    exact newCLUInt256_eq_some.1 h

lemma onChain_vault {q : Request AgentVault.Call} {c : Commit AgentVault VaultEvent}
    (hx : x.Growing d) (hcall : op.vaultCall = some q.call)
    (hok : AgentVault.exec x.vault.contract q.env q.call = .ok c) :
    FundWorld.Growing d { x with vault := Chain.step AgentVault.exec x.vault q } ∧
      FundWorld.onChain { x with vault := Chain.step AgentVault.exec x.vault q } =
        x.onChain + op.brings := by
  have hcustody := custody_step hx.custody hok
  rw [Chain.step_of_ok hok]
  obtain ⟨env, call⟩ := q
  cases op with
  | depositForStrategy amountMotes source =>
    obtain ⟨a, ha, rfl⟩ := Option.map_eq_some_iff.1 hcall
    obtain ⟨-, -, -, custodied, total, hc, -, rfl⟩ := depositForStrategy_eq_ok_iff.1 hok
    refine ⟨⟨hcustody, hx.opened, hx.deposits, hx.withdrawals⟩, ?_⟩
    have hopen : ({ x.vault.contract with custodiedCspr := custodied, totalCustodied := total } :
        AgentVault).openAmount = x.vault.contract.openAmount := rfl
    simp only [FundWorld.onChain, FundOp.brings, hopen, toNat_u256Arg ha, hc, Prod.mk_add_mk]
    ext <;> simp
    ring
  | recordStrategyExecution kind target amountMotes openedTx =>
    cases openedTx with
    | str tx =>
      obtain ⟨a, ha, rfl⟩ := Option.map_eq_some_iff.1 hcall
      obtain ⟨⟨-, hpos, -, -, -, hroom⟩, rfl⟩ := recordStrategyExecution_eq_ok_iff.1 hok
      have hcount : (x.vault.contract.opened ⟨kind, target, a, env.blockTime, tx⟩).positionCount.toNat
          = x.vault.contract.positionCount.toNat + 1 := by
        have hlength := hx.custody.length
        have hnumber := hx.custody.count
        exact toNat_add_of_lt (by rw [UInt64.toNat_one]; omega)
      have hcustodied : (x.vault.contract.opened
          ⟨kind, target, a, env.blockTime, tx⟩).custodiedCspr = x.vault.contract.custodiedCspr := rfl
      refine ⟨⟨hcustody, fun p hp => ?_, hx.deposits, hx.withdrawals⟩, ?_⟩
      · rcases List.mem_append.1 hp with hp | hp
        · exact hx.opened p hp
        · rw [List.mem_singleton.1 hp]
          exact ⟨rfl, BitVec.lt_def.1 hpos⟩
      · simp only [FundWorld.onChain, FundOp.brings, openAmount_opened, toNat_u256Arg ha, hcount,
          hcustodied, Prod.mk_add_mk, add_zero, Nat.cast_add, Nat.cast_one, add_assoc]
    | _ => cases hcall
  | _ => cases hcall

lemma onChain_deposit {caller : Address} {ts : UInt64} {call : StakeholderDeposit.Call}
    {r : StakeholderDeposit.Accepted} (hx : x.Growing d) (hcall : op.depositCall = some call)
    (hok : x.deposits.contract.exec (x.deposits.env caller ts) call = .ok r) :
    FundWorld.Growing d { x with deposits := x.deposits.step (.call caller ts call) } ∧
      FundWorld.onChain { x with deposits := x.deposits.step (.call caller ts call) } =
        x.onChain + op.brings := by
  cases op with
  | putDeposit args =>
    rw [FundOp.depositCall] at hcall
    split at hcall
    · next hrange =>
      cases hcall
      obtain ⟨hsum, hnone⟩ := depositedSum_deposit hx.deposits hok
      refine ⟨⟨hx.custody, hx.opened, .step (a := .call caller ts _) hx.deposits trivial rfl, ?_⟩, ?_⟩
      · exact hnone.trans hx.withdrawals
      · have hamount : (UInt64.ofNat args.amount.toNat).toNat = args.amount.toNat :=
          UInt64.toNat_ofNat_of_lt' (by show _ < 2 ^ 64; omega)
        simp only [FundWorld.onChain, FundOp.brings, hsum, hamount, Prod.mk_add_mk, add_zero,
          Nat.cast_add, Int.toNat_of_nonneg hrange.1]
    · cases hcall
  | _ => cases hcall

/-- What an answered call does to the balance, if its answer tells whether its transaction has
been executed and a record is made from an up-to-date copy. -/
lemma balance_turn {cfg : Config} {r : FundAns op} (hx : x.Growing d) (hadds : op.adds)
    (hans : (FundWorld.machine cfg d).answer x op r y)
    (htold : op.acknowledged r = false → y.vault = x.vault ∧ y.deposits = x.deposits)
    (hfresh : ∀ p rec, op = .record p rec → x.store.Fresh (.record p x.now rec)) :
    y.Growing d ∧ y.balance = x.balance + op.moves r := by
  -- a call that the environment answers has been executed, or is not taken for accepted
  have hoffchain : x.inside op = none → y.Growing d ∧ y.balance = x.balance + op.moves r := by
    intro hnone
    have hrecord : ∀ p rec, op ≠ .record p rec := by
      rintro p rec rfl
      cases hnone
    simp only [FundWorld.machine, hnone] at hans
    rcases hans with hexec | ⟨rfl, hack⟩
    · cases hack : op.acknowledged r with
      | false =>
        obtain ⟨hvault, hdeposits⟩ := htold hack
        have hsame : y = x := by
          cases hexec with
          | vault hcall hok => exact congrArg (fun v => { x with vault := v }) hvault
          | deposit hcall hok => exact congrArg (fun w => { x with deposits := w }) hdeposits
        rw [hsame, moves_of_not_acknowledged op hrecord hack, add_zero]
        exact ⟨hx, rfl⟩
      | true =>
        rw [moves_of_acknowledged hack]
        cases hexec with
        | vault hcall hok =>
          obtain ⟨hgrowing, hchain⟩ := onChain_vault hx hcall hok
          refine ⟨hgrowing, ?_⟩
          rw [FundWorld.balance, hchain, add_sub_right_comm]
          rfl
        | deposit hcall hok =>
          obtain ⟨hgrowing, hchain⟩ := onChain_deposit hx hcall hok
          refine ⟨hgrowing, ?_⟩
          rw [FundWorld.balance, hchain, add_sub_right_comm]
          rfl
    · rw [moves_of_not_acknowledged op hrecord hack, add_zero]
      exact ⟨hx, rfl⟩
  have hkeep : ∀ y : FundWorld, y.vault = x.vault → y.deposits = x.deposits → y.Growing d := by
    rintro y hvault hdeposits
    obtain ⟨hcustody, hopened, hreach, hnone⟩ := hx
    rw [← hvault] at hcustody hopened
    rw [← hdeposits] at hreach hnone
    exact ⟨hcustody, hopened, hreach, hnone⟩
  cases op with
  | agent op =>
    cases op with
    | dateNow =>
      obtain ⟨-, rfl⟩ := hans
      exact ⟨hx, (add_zero _).symm⟩
    | _ => exact hoffchain rfl
  | load p =>
    obtain ⟨-, rfl⟩ := hans
    exact ⟨hkeep _ rfl rfl, (add_zero _).symm⟩
  | pickStakeholder p =>
    obtain ⟨-, rfl⟩ := hans
    exact ⟨hkeep _ rfl rfl, (add_zero _).symm⟩
  | record p rec =>
    obtain ⟨-, rfl⟩ := hans
    refine ⟨hkeep _ rfl rfl, ?_⟩
    have hdisk := FundStore.onDisk_record (hfresh p rec rfl)
    rw [moves_record, FundWorld.balance, FundWorld.balance, hdisk, tally_recorded hadds]
    show x.onChain - (_ + _) = _
    rw [sub_add_eq_sub_sub, sub_eq_add_neg]
  | _ => exact hoffchain rfl

/-- What is open is nothing exactly when no position has been recorded. -/
lemma openAmount_eq_zero_iff (hx : x.Growing d) :
    x.vault.contract.openAmount = 0 ↔ openingsOf x.vault.history = [] := by
  rw [← List.length_eq_zero_iff, ← hx.custody.length, List.length_eq_zero_iff, openAmount,
    List.sum_eq_zero_iff]
  constructor
  · intro h
    refine List.eq_nil_iff_forall_not_mem.2 fun p hp => ?_
    obtain ⟨hclosed, hpos⟩ := hx.opened p hp
    have hzero := h _ (List.mem_map_of_mem hp)
    rw [hclosed] at hzero
    exact absurd hzero hpos.ne'
  · intro h
    simp [h]

end

namespace FundWorld

/-- Side condition on a step: the answer of a call tells whether its transaction has been
executed, and a record is made from a copy of the cache that agrees with the file. -/
def Informed (_ : Pool FundOp FundAns FundWorld FundJob) :
    Pool.Label FundOp FundAns FundWorld FundJob → Prop
  | .turn e =>
    (e.op.acknowledged e.ans = false →
      e.after.vault = e.before.vault ∧ e.after.deposits = e.before.deposits) ∧
    ∀ p r, e.op = .record p r → e.before.store.Fresh (.record p e.before.now r)
  | _ => True

variable {cfg : Config} {d : Deployment} {w : Pool FundOp FundAns FundWorld FundJob}

/-- Once no task is in flight, the cache counts what is in custody and what the positions hold
together, and all else that is on chain. -/
lemma balance_of_idle (h : (system cfg d).ReachableVia Informed w) :
    w.shared.Growing d ∧ (Pool.Idle w → w.shared.balance = 0) := by
  refine Pool.settled (I := Growing d) (F := balance) (fun j => code_settles j) ?_ ?_ ?_ h
  · rintro x ⟨now, rfl⟩
    exact ⟨⟨custody_init _ _ _ _, (fun p hp => nomatch hp), .init rfl, rfl⟩, rfl⟩
  · rintro w e hx hadds hans ⟨htold, hfresh⟩
    exact balance_turn hx hadds hans htold hfresh
  · rintro x y hx ⟨now, -, rfl⟩
    obtain ⟨hcustody, hopened, hreach, hnone⟩ := hx
    exact ⟨⟨hcustody, hopened, hreach, hnone⟩, rfl⟩

/-- The cache mirrors the contracts exactly if no position has been recorded and the deposits
fit the counters, whenever no task is in flight. -/
theorem cache_mirrors_iff (h : (system cfg d).ReachableVia Informed w) (hidle : Pool.Idle w) :
    w.shared.Mirrors ↔
      openingsOf w.shared.vault.history = [] ∧ depositedSum w.shared.deposits.history < 2 ^ 64 := by
  obtain ⟨hx, hbalance⟩ := balance_of_idle h
  have hzero := sub_eq_zero.1 (hbalance hidle)
  have hcounters : (FundState.load w.shared.now w.shared.store.file).tally =
      w.shared.store.onDisk.tally := by
    show (FundState.load w.shared.now w.shared.store.file).counters.tally = _
    rw [FundStore.load_counters]
    rfl
  rw [← hcounters] at hzero
  simp only [onChain, FundState.tally, Prod.mk.injEq] at hzero
  obtain ⟨hcustody, hcount, hactive, htotal⟩ := hzero
  rw [Mirrors, ← hcustody, ← hactive, ← htotal, ← openAmount_eq_zero_iff hx]
  constructor
  · rintro ⟨hmotes, -, hsum, -⟩
    have hlt := w.shared.deposits.contract.getTotalActive.toNat_lt
    refine ⟨?_, by omega⟩
    rw [getCustodiedCspr] at hmotes
    omega
  · rintro ⟨hopen, hsum⟩
    obtain ⟨htotalActive, htotalDeposited⟩ :=
      totals_eq_depositedSum hx.deposits hx.withdrawals hsum
    refine ⟨?_, ?_, by rw [htotalActive], by rw [htotalDeposited]⟩
    · rw [hopen, getCustodiedCspr]
      exact add_zero _
    · rw [getPositionCount]
      omega

/-! ### Runs in which every transaction is accepted -/

/-- Submit a transaction from the agent's account, if the contract accepts it. -/
def submit (x : FundWorld) (op : FundOp) : Option FundWorld :=
  match op.vaultCall, op.depositCall with
  | some call, _ =>
    match AgentVault.exec x.vault.contract ⟨.account 2, 7, 0⟩ call with
    | .ok _ => some { x with vault := Chain.step AgentVault.exec x.vault ⟨⟨.account 2, 7, 0⟩, call⟩ }
    | .error _ => none
  | none, some call =>
    match x.deposits.contract.exec (x.deposits.env (.account 2) 7) call with
    | .ok _ => some { x with deposits := x.deposits.step (.call (.account 2) 7 call) }
    | .error _ => none
  | none, none => none

/-- The answers of an environment that accepts transactions, or refuses them. -/
def answers (accept : Bool) : (op : FundOp) → FundAns op
  | .agent op => openMarket op
  | .load _ => ()
  | .record _ _ => .ok ()
  | .depositForStrategy _ _ => if accept then .ok (.str "c0ffee") else .error ⟨"rejected"⟩
  | .recordStrategyExecution _ _ _ _ => if accept then .ok (.str "c0ffee") else .error ⟨"rejected"⟩
  | .putDeposit _ => if accept then .ok (.obj [("result", .obj [])]) else .error ⟨"rejected"⟩
  | .getCustodiedCspr => .ok "0"
  | .readKey => .ok ()
  | .pickStakeholder _ => pickStakeholder 0
  | .mathRandom => ⟨0, le_refl 0, zero_lt_one⟩

/-- Answer a call: inside the process if it can, else by an environment in which transactions
that the contracts accept are executed. -/
def respond (x : FundWorld) (op : FundOp) : FundAns op × FundWorld :=
  match x.inside op with
  | some a => a
  | none => match x.submit op with
    | some y => (answers true op, y)
    | none => (answers false op, x)

variable {x y : FundWorld} {op : FundOp}

lemma executes_submit (h : x.submit op = some y) : Executes x op y := by
  rw [submit] at h
  cases hvault : op.vaultCall with
  | some call =>
    simp only [hvault] at h
    cases hok : AgentVault.exec x.vault.contract ⟨.account 2, 7, 0⟩ call with
    | ok c =>
      rw [hok] at h
      cases h
      exact .vault (q := ⟨_, call⟩) hvault hok
    | error e =>
      rw [hok] at h
      cases h
  | none =>
    cases hdeposit : op.depositCall with
    | some call =>
      simp only [hvault, hdeposit] at h
      cases hok : x.deposits.contract.exec (x.deposits.env (.account 2) 7) call with
      | ok r =>
        rw [hok] at h
        cases h
        exact .deposit hdeposit hok
      | error e =>
        rw [hok] at h
        cases h
    | none => simp [hvault, hdeposit] at h

lemma answer_respond (cfg : Config) (d : Deployment) (x : FundWorld) (op : FundOp) :
    (machine cfg d).answer x op (respond x op).1 (respond x op).2 := by
  simp only [machine, respond]
  cases hinside : x.inside op with
  | some a => exact ⟨rfl, rfl⟩
  | none =>
    cases hsubmit : x.submit op with
    | some y => exact Or.inl (executes_submit hsubmit)
    | none => exact Or.inr ⟨rfl, by cases op <;> rfl⟩

lemma told_respond (h : op.acknowledged (respond x op).1 = false) :
    (respond x op).2.vault = x.vault ∧ (respond x op).2.deposits = x.deposits := by
  have hsubmitted : x.inside op = none → op.acknowledged (answers true op) = true →
      (respond x op).2.vault = x.vault ∧ (respond x op).2.deposits = x.deposits := by
    intro hinside hack
    simp only [respond, hinside] at h ⊢
    cases hsubmit : x.submit op with
    | some y =>
      rw [hsubmit, hack] at h
      cases h
    | none => exact ⟨rfl, rfl⟩
  cases op with
  | depositForStrategy amountMotes source => exact hsubmitted rfl rfl
  | recordStrategyExecution kind target amountMotes openedTx => exact hsubmitted rfl rfl
  | putDeposit args => exact hsubmitted rfl rfl
  | agent op => cases op <;> exact ⟨rfl, rfl⟩
  | _ => exact ⟨rfl, rfl⟩

/-- The world after some jobs, one after another. -/
def after (cfg : Config) (d : Deployment) (js : List FundJob) :
    Pool FundOp FundAns FundWorld FundJob :=
  js.foldl (Pool.finish (machine cfg d) respond) ⟨start d 0, [], []⟩

/-- A record is made from a copy that is what the file says. -/
def upToDate (e : Entry FundOp FundAns FundWorld FundJob) : Bool :=
  match e.op with
  | .record p _ =>
    e.before.store.cache p = FundState.load e.before.now e.before.store.file
  | _ => true

lemma fresh_of_upToDate {e : Entry FundOp FundAns FundWorld FundJob} (h : upToDate e = true)
    {p : ℕ} {r : FundRecord} (hop : e.op = .record p r) :
    e.before.store.Fresh (.record p e.before.now r) := by
  intro c _
  simp only [upToDate, hop, decide_eq_true_eq] at h
  rw [h]
  exact c.agrees_refl _

lemma informed_after {cfg : Config} {d : Deployment} {js : List FundJob}
    (h : ∀ e ∈ (after cfg d js).log, upToDate e = true) :
    (system cfg d).ReachableVia Informed (after cfg d js) ∧ Pool.Idle (after cfg d js) := by
  induction js using List.reverseRecOn with
  | nil => exact ⟨.init ⟨⟨0, rfl⟩, rfl, rfl⟩, fun t ht => nomatch ht⟩
  | append_singleton js j ih =>
    have hlast : after cfg d (js ++ [j]) =
        Pool.finish (machine cfg d) respond (after cfg d js) j := by
      simp [after, List.foldl_append]
    rw [hlast] at h ⊢
    obtain ⟨hreach, hidle⟩ := ih fun e he => h e (List.mem_append_left _ he)
    refine ⟨hreach.continues (Pool.continues_finish (answer_respond cfg d) trivial ?_), ?_⟩
    · intro w' e he
      have hup := h e (List.mem_append_right _ he)
      obtain ⟨e, heplay, rfl⟩ := List.mem_map.1 he
      obtain ⟨hans, hafter⟩ := Program.answer_of_mem_play e heplay
      refine ⟨fun hack => ?_, fun p r hop => ?_⟩
      · rw [hans] at hack
        rw [hafter]
        exact told_respond hack
      · exact fresh_of_upToDate hup hop
    · intro t ht
      rcases List.mem_append.1 ht with ht | ht
      · exact hidle t ht
      · rw [List.mem_singleton.1 ht]

end FundWorld

open FundWorld

/-- The contracts as account 1 deploys them for the agent. -/
def demoDeployment : Deployment where
  owner := .account 1
  agent := .account 2
  maxLogHistory := 50
  minStrategyAmount := 1
  depositOwner := .account 1
  maxHistory := 50

/-- The bootstrap script, the dashboard's request, and one deposit of the simulator. -/
def demoFunding : List FundJob :=
  [.bootstrap 1, .getFundState 0, .simulate 0]

/-- The theorem at work on a run that deposits 5 CSPR in the vault and 10 CSPR for a stakeholder. -/
theorem demoFunding_mirrored : (after plainConfig demoDeployment demoFunding).shared.Mirrors ∧
    (after plainConfig demoDeployment demoFunding).shared.vault.contract.getCustodiedCspr =
      5000000000 := by
  obtain ⟨hreach, hidle⟩ :=
    @informed_after plainConfig demoDeployment demoFunding (by decide +kernel)
  exact ⟨(cache_mirrors_iff hreach hidle).2 ⟨by decide +kernel, by decide +kernel⟩,
    by decide +kernel⟩

/-- A swap of 600 CSPR. -/
def swapProposal : StrategyProposal where
  action := .str "swap"
  pair := "CSPR/sCSPR"
  tokenIn := "CSPR"
  tokenOut := .str "sCSPR"
  amountIn := "600000000000"
  minAmountOut := .str "594000000000"
  rationale := .str "Swap into sCSPR"
  confidence := .num (.finite 70)
  x402Proof := none
  revenueEvent := ⟨.finite 0, "600000000000", "0", "parking-lot-demo", "0", "demo-ref-001"⟩
  validatorPubKey := none

/-- Not every run is mirrored: a swap that has been recorded as a position is counted as a
deposit of 600 CSPR, and the vault has none in custody. -/
theorem recorded_swap_is_not_mirrored :
    ¬ ∀ (cfg : Config) (d : Deployment) (w : Pool FundOp FundAns FundWorld FundJob),
      (FundWorld.system cfg d).Reachable w → Pool.Idle w → w.shared.Mirrors := by
  intro h
  obtain ⟨hreach, hidle⟩ :=
    @informed_after plainConfig demoDeployment [.execute 0 swapProposal] (by decide)
  have hmirrors := h _ _ _ hreach.reachable hidle
  revert hmirrors
  decide

end ArwaAgent
