import ArwaAgent.Agent.Influence
import ArwaAgent.Lib.Record

/-!
# What a cycle spends

A cycle pays for its signal, and its strategy is a delegation or a swap, for which a transaction is
built first.  However many cycles run, however their calls are interleaved, and whatever the outside
answers, each of them pays for one signal, and then executes one proposal at most, which submits one
transaction at most: a delegation of the amount of its event to the validator of the configuration,
or what the exchange has built for that amount.

What is counted is what a cycle pays out.  The two transactions that record a strategy on chain,
`record_strategy_execution` and `emit_revenue`, come besides and cost their fees only.
-/

namespace ArwaAgent

open Js Effects Effects.Code

/-- The calls that pay something out, with the one that prepares a swap. -/
def Op.spends : Op → Bool
  | .payAndFetchViaX402 _ _ | .delegateToValidator _ _ | .buildUnsignedDeploy _
  | .signAndSubmitSwap _ => true
  | _ => false

/-- A call with its answer. -/
abbrev AgentReply : Type := Reply Op Ans

/-- The signal of a cycle, at its price. -/
def Config.signal (cfg : Config) (r : Except Error X402Response) : AgentReply :=
  ⟨.payAndFetchViaX402 cfg.x402SignalEndpoint "1000000", r⟩

/-- A proposal as it may be executed: it carries the proof of the payment for the signal, and
spends the amount of the event, if it spends anything. -/
structure Funded (cfg : Config) (input : CycleInput) (paid : X402Response) (p : StrategyProposal) :
    Prop where
  revenueEvent : p.revenueEvent = input.revenueEvent
  x402Proof : p.x402Proof = paid.proof
  tokenIn : p.tokenIn = "CSPR"
  amountIn : p.isHold = false → p.amountIn = input.revenueEvent.amount
  validator : p.action.is "stake" = true → p.validatorPubKey = some (validatorOf cfg)

/-- What a cycle has executed, and what it has spent. -/
inductive Spends (cfg : Config) (input : CycleInput) :
    List StrategyProposal → List AgentReply → Prop
  | nothing : Spends cfg input [] []
  | signal (r : Except Error X402Response) : Spends cfg input [] [cfg.signal r]
  | executing {paid : X402Response} {p : StrategyProposal} (hp : Funded cfg input paid p) :
      Spends cfg input [p] [cfg.signal (.ok paid)]
  /-- a delegation, of the minimum at least -/
  | staked {paid : X402Response} {p : StrategyProposal} {amount : ℤ} (hp : Funded cfg input paid p)
      (hhold : p.isHold = false) (haction : p.action.is "stake" = true)
      (hamount : stakeAmount p = .ok amount) (hmin : cfg.minStakeMotes ≤ amount)
      (r : Except Error ExecutionResult) :
      Spends cfg input [p]
        [cfg.signal (.ok paid), ⟨.delegateToValidator p.amountIn (stakeValidator p), r⟩]
  /-- a swap that has not been built yet -/
  | building {paid : X402Response} {p : StrategyProposal} {keys : AgentKeys} {amount : ℤ}
      (hp : Funded cfg input paid p) (hhold : p.isHold = false)
      (haction : p.action.is "stake" = false)
      (hamount : Value.bigIntOfString p.amountIn = .ok amount) (r : Except Error Value) :
      Spends cfg input [p]
        [cfg.signal (.ok paid), ⟨.buildUnsignedDeploy (buildParams p keys amount), r⟩]
  /-- a swap, as it has been built -/
  | swapped {paid : X402Response} {p : StrategyProposal} {keys : AgentKeys} {amount : ℤ}
      (hp : Funded cfg input paid p) (hhold : p.isHold = false)
      (haction : p.action.is "stake" = false)
      (hamount : Value.bigIntOfString p.amountIn = .ok amount) (unsigned : Value)
      (r : Except Error SwapResult) :
      Spends cfg input [p]
        [cfg.signal (.ok paid), ⟨.buildUnsignedDeploy (buildParams p keys amount), .ok unsigned⟩,
          ⟨.signAndSubmitSwap unsigned, r⟩]

/-- What an executor has submitted for a proposal. -/
inductive Submits (cfg : Config) (p : StrategyProposal) : List AgentReply → Prop
  | nothing : Submits cfg p []
  /-- a delegation, of the minimum at least -/
  | staked {amount : ℤ} (hhold : p.isHold = false) (haction : p.action.is "stake" = true)
      (hamount : stakeAmount p = .ok amount) (hmin : cfg.minStakeMotes ≤ amount)
      (r : Except Error ExecutionResult) :
      Submits cfg p [⟨.delegateToValidator p.amountIn (stakeValidator p), r⟩]
  /-- a swap that has not been built yet -/
  | building {keys : AgentKeys} {amount : ℤ} (hhold : p.isHold = false)
      (haction : p.action.is "stake" = false) (hamount : Value.bigIntOfString p.amountIn = .ok amount)
      (r : Except Error Value) :
      Submits cfg p [⟨.buildUnsignedDeploy (buildParams p keys amount), r⟩]
  /-- a swap, as it has been built -/
  | swapped {keys : AgentKeys} {amount : ℤ} (hhold : p.isHold = false)
      (haction : p.action.is "stake" = false) (hamount : Value.bigIntOfString p.amountIn = .ok amount)
      (unsigned : Value) (r : Except Error SwapResult) :
      Submits cfg p [⟨.buildUnsignedDeploy (buildParams p keys amount), .ok unsigned⟩,
        ⟨.signAndSubmitSwap unsigned, r⟩]

/-- What a job has executed and spent: an operator's reset executes and spends nothing. -/
def Job.Spends (cfg : Config) : Job → List StrategyProposal → List AgentReply → Prop
  | .cycle input => ArwaAgent.Spends cfg input
  | .reset => fun executed spent => executed = [] ∧ spent = []

/-- A job with what it has executed and spent so far. -/
structure Account where
  job : Job
  executed : List StrategyProposal
  spent : List AgentReply

/-- The account after a call. -/
def Account.next (a : Account) (op : Op) (r : Ans op) : Account where
  job := a.job
  executed := a.executed ++ op.executes?.toList
  spent := if op.spends then a.spent ++ [⟨op, r⟩] else a.spent

/-- What has been spent is as it should be. -/
def Account.Sound (cfg : Config) (a : Account) : Prop :=
  a.job.Spends cfg a.executed a.spent

/-- The account of a job; a call may be made if the account is sound after it, whatever the
answer. -/
def accounting (cfg : Config) : Monitor Op Ans Account where
  allows := fun a op => ∀ r, (a.next op r).Sound cfg
  next := Account.next

section

variable {cfg : Config} {input : CycleInput} {a : Account} {L α : Type} {paid : X402Response}
  {p : StrategyProposal}

/-- A call that has nothing to do with money. -/
def Op.free : Op → Bool
  | .runExecutor _ => false
  | op => !op.spends

lemma Account.next_of_free {op : Op} (hop : op.free = true) (r : Ans op) : a.next op r = a := by
  have hexecutes : op.executes? = none := by
    cases op <;> first | rfl | cases hop
  have hspends : op.spends = false := by
    cases op <;> first | rfl | cases hop
  simp [Account.next, hexecutes, hspends]

lemma free_stays {op : Op} {read : Ans op → Except Error α} (ha : a.Sound cfg)
    (hop : op.free = true) : Stays (accounting cfg) a (ask op read : Agent L α) :=
  Stays.ask (fun r => (Account.next_of_free hop r).symm ▸ ha) fun r => Account.next_of_free hop r

lemma free_stays_or {op : Op} {read : Ans op → Except Error α} {x : α} (ha : a.Sound cfg)
    (hop : op.free = true) :
    Stays (accounting cfg) a (tryCatch (ask op read) fun _ => pure x : Agent L α) :=
  Stays.tryCatch (free_stays ha hop) fun _ => Stays.pure _

lemma readTokenBalance_free (ha : a.Sound cfg) : Stays (accounting cfg) a readTokenBalance := by
  refine Stays.tryCatch ?_ fun e => Stays.pure _
  refine Stays.bind (free_stays ha rfl) fun keys => Stays.bind (free_stays ha rfl) fun r => ?_
  exact Stays.bind (Stays.result _) fun display => Stays.pure _

lemma readChain_free (ha : a.Sound cfg) :
    Stays (accounting cfg) a (readChain cfg : Agent L Value) := by
  refine Stays.bind (free_stays ha rfl) fun keys => ?_
  refine Stays.bind (free_stays_or ha rfl) fun account => ?_
  refine Stays.bind ?_ fun _ => Stays.bind ?_ fun recent =>
    Stays.bind (Stays.result _) fun _ => Stays.pure _
  · rw [readVault]
    split
    · exact free_stays_or ha rfl
    · exact Stays.pure _
  · rw [readRecentEvents]
    split
    · exact free_stays_or ha rfl
    · exact Stays.pure _

lemma decideStrategy_free {input : AnalystInput} {account : Value} {m : Market}
    (ha : a.Sound cfg) :
    Stays (accounting cfg) a (decideStrategy cfg input account m : Agent L Decision) := by
  rw [decideStrategy]
  split
  · exact Stays.bind (Stays.result _) fun h => Stays.bind (Stays.result _) fun confidence =>
      Stays.bind (Stays.result _) fun c => Stays.pure _
  · refine Stays.bind ?_ fun d => Stays.bind (Stays.result _) fun _ => Stays.pure _
    exact Stays.bind (free_stays_or ha rfl) fun out =>
      Stays.bind (Stays.result _) fun d => Stays.pure _

/-! ### The analyst -/

/-- A cycle that has not paid for its signal yet. -/
def unpaid (input : CycleInput) : Account :=
  ⟨.cycle input, [], []⟩

/-- A cycle that has paid for its signal. -/
def paidFor (cfg : Config) (input : CycleInput) (paid : X402Response) : Account :=
  ⟨.cycle input, [], [cfg.signal (.ok paid)]⟩

/-- A cycle that executes a proposal. -/
def executing (cfg : Config) (input : CycleInput) (paid : X402Response) (p : StrategyProposal) :
    Account :=
  ⟨.cycle input, [p], [cfg.signal (.ok paid)]⟩

lemma unpaid_sound : (unpaid input).Sound cfg := .nothing

lemma paidFor_sound : (paidFor cfg input paid).Sound cfg := .signal _

lemma executing_sound (hp : Funded cfg input paid p) : (executing cfg input paid p).Sound cfg :=
  .executing hp

/-- The input of the analyst of a cycle. -/
def CycleInput.analyst (cfg : Config) (input : CycleInput) : AnalystInput where
  revenueEvent := input.revenueEvent
  ownerAddress := input.ownerAddress
  signalEndpoint := cfg.x402SignalEndpoint
  signalPriceMotes := "1000000"
  forceHeuristic := false
  forceAction := input.forceAction

lemma readMarket_pays {l : L} :
    Returns (accounting cfg) (unpaid input) l (readMarket (input.analyst cfg) : Agent L Market)
      fun a _ m => ∃ paid, a = paidFor cfg input paid ∧ m.x402Proof = paid.proof := by
  refine Returns.stays_bind (free_stays_or unpaid_sound rfl) fun l sel => ?_
  refine Returns.stays_bind (free_stays unpaid_sound rfl) fun l now => ?_
  refine Returns.stays_bind (free_stays_or unpaid_sound rfl) fun l quote => ?_
  refine Returns.stays_bind (free_stays_or unpaid_sound rfl) fun l portfolio => ?_
  refine Returns.ask_bind (fun r => .signal r) fun r paid _ hpaid => ?_
  obtain rfl : r = .ok paid := hpaid
  refine Returns.result_bind fun forecast _ => Returns.result_bind fun _ _ => ?_
  refine Returns.result_bind fun confidence _ => Returns.result_bind fun _ _ => ?_
  exact Returns.pure ⟨paid, rfl, rfl⟩

lemma funded_toProposal {m : Market} {d d' : Decision} {amountIn pair : String}
    (hproof : m.x402Proof = paid.proof)
    (hforce : applyForceAction cfg (input.analyst cfg) m d = .ok (d', amountIn, pair)) :
    Funded cfg input paid (toProposal cfg (input.analyst cfg) m d' amountIn pair) where
  revenueEvent := rfl
  x402Proof := hproof
  tokenIn := rfl
  amountIn hhold := by
    have hamount := (forces_of_applyForceAction hforce).amount
    -- a forced hold spends nothing
    split at hamount
    · subst hamount
      simp [StrategyProposal.isHold, toProposal] at hhold
    · exact hamount
  validator hstake := by
    change d'.action.is "stake" = true at hstake
    simp [toProposal, hstake, validatorOf]

/-- A proposal is a hold, or has been paid for. -/
lemma runAnalyst_pays {l : L} :
    Returns (accounting cfg) (unpaid input) l
      (runAnalyst cfg (input.analyst cfg) : Agent L StrategyProposal) fun a _ p =>
        (a = unpaid input ∧ p.confidence = .num (.finite 0)) ∨
          ∃ paid, a = paidFor cfg input paid ∧ Funded cfg input paid p := by
  refine Returns.stays_bind (readChain_free unpaid_sound) fun l account => ?_
  refine Returns.stays_bind (free_stays unpaid_sound rfl) fun l cb => ?_
  cases cb.tripped with
  | true => exact Returns.pure (Or.inl ⟨rfl, rfl⟩)
  | false =>
    refine Returns.bind readMarket_pays ?_
    rintro _ l m ⟨paid, rfl, hproof⟩
    refine Returns.stays_bind (decideStrategy_free paidFor_sound) fun l d => ?_
    refine Returns.result_bind fun forced hforce => ?_
    obtain ⟨d', amountIn, pair⟩ := forced
    exact Returns.pure (Or.inr ⟨paid, rfl, funded_toProposal hproof hforce⟩)

/-! ### The executor -/

/-- An executor makes only those of its calls that are not free which may be submitted. -/
abbrev submitting (cfg : Config) (p : StrategyProposal) : Monitor Op Ans (List AgentReply) :=
  keeper (fun op => !op.free) (Submits cfg p)

variable {spent : List AgentReply}

lemma free_submits {op : Op} {read : Ans op → Except Error α} (hs : Submits cfg p spent)
    (hop : op.free = true) : Stays (submitting cfg p) spent (ask op read : Agent L α) :=
  keeper_stays hs (by rw [hop]; rfl)

lemma holdPath_submits (hs : Submits cfg p spent) : Stays (submitting cfg p) spent holdPath := by
  refine Stays.bind (free_submits hs rfl) fun now => ?_
  exact Stays.bind (Stays.set _) fun _ => Stays.throw _

lemma openPosition_submits {kind target : String} {openedTx : Value} (hs : Submits cfg p spent) :
    Stays (submitting cfg p) spent (openPosition p kind target openedTx) := by
  refine Stays.tryCatch ?_ fun e => Stays.pure _
  refine Stays.bind (free_submits hs rfl) fun tx => ?_
  exact Stays.bind (free_submits hs rfl) fun _ => free_submits hs rfl

lemma submits_of_stays {x : Agent L α} (h : Stays (submitting cfg p) spent x)
    (hs : Submits cfg p spent) (l : L) :
    Meets (submitting cfg p) spent l x fun spent _ _ => Submits cfg p spent :=
  (h l).mono fun _ _ _ hstays => hstays ▸ hs

lemma stakePath_submits (hhold : p.isHold = false) (haction : p.action.is "stake" = true)
    (vars : ExecutorVars) :
    Meets (submitting cfg p) [] vars (stakePath cfg p) fun spent _ _ => Submits cfg p spent := by
  refine Meets.result_bind (fun amountBig hamount => ?_) fun e => .nothing
  split
  · exact Submits.nothing
  next hmin =>
    have hstaked : ∀ r, Submits cfg p [⟨.delegateToValidator p.amountIn (stakeValidator p), r⟩] :=
      fun r => .staked hhold haction hamount (not_lt.1 hmin) r
    refine meets_ask_bind.2 ⟨hstaked, fun r _ => ?_⟩
    cases r with
    | error e => exact hstaked _
    | ok res =>
      refine submits_of_stays ?_ (hstaked (.ok res)) vars
      refine Stays.bind (Stays.set _) fun _ => Stays.bind ?_ fun _ => Stays.throw _
      rw [openStakePosition]
      split
      · exact openPosition_submits (hstaked _)
      · exact Stays.pure _

lemma dexPath_submits {keys : AgentKeys} (hhold : p.isHold = false)
    (haction : p.action.is "stake" = false) (vars : ExecutorVars) :
    Meets (submitting cfg p) [] vars (dexPath p keys) fun spent _ _ => Submits cfg p spent := by
  refine Meets.result_bind (fun amount hamount => ?_) fun e => .nothing
  have hbuilding : ∀ r, Submits cfg p [⟨.buildUnsignedDeploy (buildParams p keys amount), r⟩] :=
    fun r => .building hhold haction hamount r
  refine meets_ask_bind.2 ⟨hbuilding, fun r _ => ?_⟩
  cases r with
  | error e => exact hbuilding _
  | ok unsigned =>
    have hswapped : ∀ r, Submits cfg p [⟨.buildUnsignedDeploy (buildParams p keys amount),
        .ok unsigned⟩, ⟨.signAndSubmitSwap unsigned, r⟩] :=
      fun r => .swapped hhold haction hamount unsigned r
    refine meets_ask_bind.2 ⟨hswapped, fun r _ => ?_⟩
    cases r with
    | error e => exact hswapped _
    | ok res =>
      refine submits_of_stays (Stays.bind (Stays.set _) fun _ => ?_) (hswapped (.ok res)) vars
      split
      · exact openPosition_submits (hswapped _)
      · exact Stays.pure _

/-- Whatever the answers, an executor submits one transaction at most. -/
lemma runExecutor_submits (cfg : Config) (p : StrategyProposal) (l : Unit) :
    Meets (submitting cfg p) [] l (runExecutor cfg p) fun spent _ _ => Submits cfg p spent := by
  refine Stays.meets_bind (free_submits .nothing rfl) (fun l keys => ?_) fun l e => .nothing
  have hblock : Meets (submitting cfg p) [] l (submitStrategy cfg p keys)
      fun spent _ _ => Submits cfg p spent := by
    refine meets_bind.2 (meets_block.2 ?_)
    have hspends : Meets (submitting cfg p) [] (ExecutorVars.mk (.str "") .failed)
        (strategyBlock cfg p keys) fun spent _ _ => Submits cfg p spent := by
      rw [strategyBlock]
      split
      · exact submits_of_stays (holdPath_submits .nothing) .nothing _
      next hhold =>
        rw [Bool.not_eq_true] at hhold
        split
        next haction => exact stakePath_submits hhold haction _
        next haction => exact dexPath_submits hhold (Bool.not_eq_true _ ▸ haction) _
    refine hspends.mono fun spent vars r hs => ?_
    cases r with
    | ok _ => exact hs
    | error e =>
      show Meets (submitting cfg p) spent l (if _ then pure vars else _) _
      split
      · exact hs
      · exact submits_of_stays (Stays.bind (free_submits hs rfl) fun now => Stays.pure _) hs l
  refine Meets.bind hblock (fun spent l vars hs => ?_) fun spent l e hs => hs
  refine submits_of_stays ?_ hs l
  refine Stays.bind ?_ fun _ => Stays.bind ?_ fun vaultResult => Stays.pure _
  · refine Stays.tryCatch (Stays.bind (free_submits hs rfl) fun _ => ?_) fun e => Stays.pure _
    split
    · exact free_submits hs rfl
    · exact Stays.pure _
  · refine Stays.bind (Stays.result _) fun settle => ?_
    exact Stays.tryCatch (free_submits hs rfl) fun e => Stays.pure _

/-- What is submitted for a proposal is spent on it. -/
lemma Submits.spends (hs : Submits cfg p spent) (hp : Funded cfg input paid p) :
    Spends cfg input [p] (cfg.signal (.ok paid) :: spent) := by
  cases hs with
  | nothing => exact .executing hp
  | staked hhold haction hamount hmin r => exact .staked hp hhold haction hamount hmin r
  | building hhold haction hamount r => exact .building hp hhold haction hamount r
  | swapped hhold haction hamount unsigned r => exact .swapped hp hhold haction hamount unsigned r

lemma Submits.spends_of_mem (hs : Submits cfg p spent) : ∀ x ∈ spent, x.op.spends = true := by
  cases hs <;> simp [Op.spends]

lemma Account.next_of_submits {op : Op} {r : Ans op}
    (hs : Submits cfg p (keep (fun op => !op.free) spent op r)) :
    Account.next ⟨.cycle input, [p], cfg.signal (.ok paid) :: spent⟩ op r =
      ⟨.cycle input, [p], cfg.signal (.ok paid) :: keep (fun op => !op.free) spent op r⟩ := by
  cases hfree : op.free with
  | true => rw [Account.next_of_free hfree, keep_of_not_kept (by rw [hfree]; rfl)]
  | false =>
    have hkept := @keep_of_kept _ _ (fun op => !op.free) spent op (by rw [hfree]; rfl) r
    have hspends : op.spends = true := (hkept ▸ hs).spends_of_mem ⟨op, r⟩ (by simp)
    rw [hkept]
    cases op <;> first | rfl | cases hspends

/-- What is executed spends what it should. -/
lemma runExecutor_spends (hp : Funded cfg input paid p) (l : Unit) :
    Meets (accounting cfg) (executing cfg input paid p) l (runExecutor cfg p) fun a _ _ =>
      a.Sound cfg := by
  have hsimulated := Meets.simulate (N := accounting cfg)
    (R := fun spent a => Submits cfg p spent ∧
      a = ⟨.cycle input, [p], cfg.signal (.ok paid) :: spent⟩) ?_
    (runExecutor_submits cfg p l) ⟨.nothing, rfl⟩
  · refine hsimulated.mono ?_
    rintro _ l r ⟨spent, ⟨hs, rfl⟩, -⟩
    exact hs.spends hp
  · rintro spent _ op ⟨hs, rfl⟩ hallows
    refine ⟨fun r => ?_, fun r _ => ⟨trivial, hallows r, Account.next_of_submits (hallows r)⟩⟩
    show Account.Sound cfg (Account.next _ op r)
    rw [Account.next_of_submits (hallows r)]
    exact (hallows r).spends hp

/-! ### Every cycle of every run -/

lemma runCycle_spends (cfg : Config) (input : CycleInput) :
    Returns (accounting cfg) (unpaid input) () (runCycle cfg input) fun _ _ _ => True := by
  refine Returns.stays_bind (readTokenBalance_free unpaid_sound) fun l tokenBalance => ?_
  refine Returns.bind runAnalyst_pays fun a l proposal hproposal => ?_
  refine Returns.result_bind fun confidence hconfidence => ?_
  split
  · exact Returns.pure trivial
  next hlow =>
    rcases hproposal with ⟨-, hzero⟩ | ⟨paid, rfl, hp⟩
    · -- a hold has no confidence
      rw [hzero] at hconfidence
      obtain rfl : .finite 0 = confidence := Except.ok.inj hconfidence
      exact absurd (by decide) hlow
    · refine Returns.ask_bind (fun _ => executing_sound hp) fun _ _ _ _ => ?_
      refine Returns.bind ((runExecutor_spends hp l).mono fun _ _ _ _ _ _ => trivial)
        fun a l execution _ => Returns.pure trivial

/-- The account in which a job starts. -/
def Job.account (j : Job) : Account :=
  ⟨j, [], []⟩

/-- Every job spends what it should. -/
lemma code_spends (cfg : Config) (j : Job) :
    (j.code cfg).Meets (accounting cfg) j.account fun _ _ => True := by
  cases j with
  | cycle input =>
    exact Program.meets_bind.2 (Meets.mono (runCycle_spends cfg input) fun _ _ _ _ => trivial)
  | reset => exact ⟨fun _ => ⟨rfl, rfl⟩, fun _ _ => trivial⟩

/-- The proposals that a task has called the executor with, in their order. -/
def executedBy (log : List AgentEntry) (who : ℕ) : List StrategyProposal :=
  (Pool.callsOf log who).filterMap (·.op.executes?)

/-- The calls of a task that pay something out, in their order. -/
def spentBy (log : List AgentEntry) (who : ℕ) : List AgentReply :=
  ((Pool.callsOf log who).filter (·.op.spends)).map fun e => ⟨e.op, e.ans⟩

lemma account_phase (cfg : Config) (log : List AgentEntry) (who : ℕ) (a : Account) :
    Pool.phase (accounting cfg) a log who =
      ⟨a.job, a.executed ++ executedBy log who, a.spent ++ spentBy log who⟩ := by
  rw [Pool.phase, executedBy, spentBy]
  generalize Pool.callsOf log who = calls
  induction calls generalizing a with
  | nil => simp
  | cons e calls ih =>
    have hspent : (a.next e.op e.ans).spent ++ (calls.filter (·.op.spends)).map (fun e =>
        (⟨e.op, e.ans⟩ : AgentReply)) =
          a.spent ++ ((e :: calls).filter (·.op.spends)).map fun e => ⟨e.op, e.ans⟩ := by
      rw [List.filter_cons, Account.next]
      split
      next => rw [List.map_cons, List.append_assoc, List.singleton_append]
      next => rfl
    have hexecuted : (a.next e.op e.ans).executed ++ calls.filterMap (·.op.executes?) =
        a.executed ++ (e :: calls).filterMap (·.op.executes?) := by
      rw [List.filterMap_cons, Account.next]
      cases e.op.executes? <;> simp
    refine (ih (a.next e.op e.ans)).trans ?_
    rw [hspent, hexecuted]
    rfl

/-- In every run, whatever the interleaving and the answers, every cycle pays for one signal at
most, then calls the executor at most once, with a proposal that this payment funds, and then
submits one transaction of the strategy at most: a delegation of the amount of its event, or what
the exchange has built for it. -/
theorem cycle_spends {w : AgentWorld} (h : (agentSystem cfg).Reachable w) {k : ℕ}
    {t : Process Op Ans Job} (ht : w.tasks[k]? = some t) :
    t.job.Spends cfg (executedBy w.log k) (spentBy w.log k) := by
  have hconforms := Pool.conforms (code_spends cfg) (fun _ _ _ _ _ _ => trivial) h
  have hstart : t.job.account.Sound cfg := by
    rw [Account.Sound, Job.account]
    cases t.job with
    | cycle input => exact .nothing
    | reset => exact ⟨rfl, rfl⟩
  have hsound := hconforms.phase_holds (I := Account.Sound cfg) (fun a op r _ hallows => hallows r)
    ht hstart
  rw [Account.Sound, account_phase] at hsound
  exact hsound

/-- A cycle that swaps, and one that stakes. -/
def swapAndStake : AgentWorld :=
  AgentWorld.after plainConfig
    [.job openMarket (forced "swap" "1000000000"), .job openMarket (forced "stake" "500000000000")]

/-- Both cycles have paid for their signals; the first one has built and signed a swap, the second
one has delegated. -/
theorem cycle_spends_swapAndStake :
    (forced "swap" "1000000000").Spends plainConfig (executedBy swapAndStake.log 0)
      (spentBy swapAndStake.log 0) ∧
    ((executedBy swapAndStake.log 0).length = 1 ∧ (spentBy swapAndStake.log 0).length = 3) ∧
    (forced "stake" "500000000000").Spends plainConfig (executedBy swapAndStake.log 1)
      (spentBy swapAndStake.log 1) ∧
    (executedBy swapAndStake.log 1).length = 1 ∧ (spentBy swapAndStake.log 1).length = 2 := by
  have hreachable := reachable_after plainConfig
    [.job openMarket (forced "swap" "1000000000"), .job openMarket (forced "stake" "500000000000")]
  have hswap : swapAndStake.tasks[0]? = some ⟨forced "swap" "1000000000", .done ()⟩ := rfl
  have hstake : swapAndStake.tasks[1]? = some ⟨forced "stake" "500000000000", .done ()⟩ := rfl
  refine ⟨cycle_spends hreachable hswap, by decide +kernel, cycle_spends hreachable hstake,
    by decide +kernel⟩

end

end ArwaAgent
