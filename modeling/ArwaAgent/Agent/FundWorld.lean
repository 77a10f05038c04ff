import Mathlib.Data.Rat.Floor
import ArwaAgent.Agent.Executor
import ArwaAgent.Agent.FundStore
import ArwaAgent.Contracts.DepositWorld
import ArwaAgent.Contracts.VaultHistory
import ArwaAgent.Js.Json
import ArwaAgent.Lib.Handler
import ArwaAgent.Lib.Pool

/-!
# The fund cache next to the contracts

The executor, the deposit simulator and the bootstrap script submit transactions to the
two contracts and count what they did in the fund cache.  Any number of processes run
them, each with its own copy of the cache and all with one file.  Every transaction that
a node accepts executes without reverting; the answer of the node may still get lost.

The swaps and delegations of the executor do not touch the two contracts.  What signs a
transaction and what reads the chain for the console are answered in any way.
-/

namespace ArwaAgent

open Js Effects Effects.Code

/-- A stakeholder that the simulator deposits for. -/
structure StakeholderProfile where
  label : String
  sourceKind : String
  amountRange : ℤ × ℤ

/-- The arguments of a deposit. -/
structure DepositArgs where
  amount : ℤ
  sourceLabel : String
  sourceKind : String
  strategyHint : String
  nonce : ℕ

/-- What the simulator reports. -/
structure DepositResult where
  ok : Bool
  txHash : Value
  stakeholder : String
  sourceKind : String
  amountCspr : Number
  error : Option String

/-- The calls of the code that moves the contracts and the cache; `p` is the process that makes
a call on its own copy of the cache or on its own counter. -/
inductive FundOp
  | agent (op : Op)
  | load (p : ℕ)
  | record (p : ℕ) (r : FundRecord)
  | depositForStrategy (amountMotes source : String)
  | recordStrategyExecution (kind target amountMotes : String) (openedTx : Value)
  | putDeposit (args : DepositArgs)
  | getCustodiedCspr
  | readKey
  | pickStakeholder (p : ℕ)
  | mathRandom

/-- What a call is answered with; the answer of `putDeposit` is the body of the response. -/
@[reducible] def FundAns : FundOp → Type
  | .agent op => Ans op
  | .load _ => Unit
  | .record _ _ => Except Error Unit
  | .depositForStrategy _ _ => Except Error Value
  | .recordStrategyExecution _ _ _ _ => Except Error Value
  | .putDeposit _ => Except Error Value
  | .getCustodiedCspr => Except Error String
  | .readKey => Except Error Unit
  | .pickStakeholder _ => StakeholderProfile
  | .mathRandom => { q : ℚ // 0 ≤ q ∧ q < 1 }

/-- Code that moves the contracts and the cache. -/
abbrev Fund (α : Type) : Type :=
  Code FundOp FundAns Error Unit α

/-! ### The jobs -/

/-- `STAKEHOLDERS` -/
def stakeholders : List StakeholderProfile :=
  [⟨"Mall XYZ Operator", "parking", (10, 100)⟩, ⟨"Apt-3B-Jakarta", "rental", (200, 500)⟩,
    ⟨"Spotify-Royalty-Q2", "royalty", (5, 50)⟩]

/-- The profile of a round. -/
def pickStakeholder (nextRoundRobin : ℕ) : StakeholderProfile :=
  (stakeholders[nextRoundRobin % stakeholders.length]?).getD ⟨"", "", (0, 0)⟩

/-- `min + Math.random() * (max - min)` -/
def randomIn (range : ℤ × ℤ) (random : ℚ) : Number :=
  (Number.finite range.1).add
    ((Number.finite random).mul ((Number.finite range.2).sub (.finite range.1)))

/-- `BigInt(Math.floor(amountCspr * 1e9))` -/
def amountMotes (amountCspr : Number) : Except Error ℤ :=
  (Value.num (amountCspr.mul (.finite (10 ^ 9))).floor).toBigInt

/-- One deposit of a stakeholder. -/
def triggerDeposit (p : ℕ) : Fund DepositResult := do
  let sh ← ask (.pickStakeholder p) .ok
  let random ← ask .mathRandom .ok
  let amountCspr := randomIn sh.amountRange random
  let amount ← result (amountMotes amountCspr)
  let nonce ← ask (.agent .dateNow) .ok
  tryCatch (do
      let data ← ask (.putDeposit
        { amount
          sourceLabel := String.ofList (slice16 64 sh.label.toList)
          sourceKind := String.ofList (slice16 32 sh.sourceKind.toList)
          strategyHint := "auto"
          nonce }) id
      let error ← result (data.field "error")
      if error.truthy then
        return ⟨false, .str "", sh.label, sh.sourceKind, amountCspr,
          (Json.stringify error).map String.ofList⟩
      else
        let answer ← result (data.field "result")
        -- an amount that cannot be counted is only dropped
        let _ ← tryCatch (ask (.record p (.stakeholderDeposit (toString amount) "0")) id)
          fun _ => pure ()
        return ⟨true, ((answer.field? "transaction_hash").field? "Version1").orElse (.str ""),
          sh.label, sh.sourceKind, amountCspr, none⟩)
    fun e => return ⟨false, .str "", sh.label, sh.sourceKind, amountCspr, some e.message⟩

/-- The bootstrap script, in a process of its own. -/
def demoBootstrap (p : ℕ) : Fund Unit := do
  ask (.load p) .ok
  let _ ← ask .readKey id
  let _ ← ask .getCustodiedCspr id
  let _ ← ask (.depositForStrategy "5000000000" "demo-bootstrap-rental-pool") id
  ask (.record p (.custodianDeposit "5000000000")) id
  let _ ← ask .getCustodiedCspr id

/-- The calls of an executor that runs in a process. -/
def fundOp (p : ℕ) : (op : Op) → Program FundOp FundAns (Ans op)
  | .recordPositionOpened => .call (.record p .positionOpened) fun _ => .done ()
  | .recordCustodianDeposit motes => .call (.record p (.custodianDeposit motes)) .done
  | .recordStrategyExecution kind target amountMotes openedTx =>
    .call (.recordStrategyExecution kind target amountMotes openedTx) .done
  | op => .call (.agent op) .done

/-- What may run: an executor on any proposal, the simulator, the bootstrap script, and the
start of a process or its request for the fund state, which both load the file. -/
inductive FundJob
  | execute (p : ℕ) (proposal : StrategyProposal)
  | simulate (p : ℕ)
  | bootstrap (p : ℕ)
  | getFundState (p : ℕ)

/-- The program of a job. -/
def FundJob.code (cfg : Config) : FundJob → Program FundOp FundAns Unit
  | .execute p proposal =>
    ((runExecutor cfg proposal).toProgram ()).handle (fundOp p) >>= fun _ => .done ()
  | .simulate p => (triggerDeposit p).toProgram () >>= fun _ => .done ()
  | .bootstrap p => (demoBootstrap p).toProgram () >>= fun _ => .done ()
  | .getFundState p => .call (.load p) .done

/-! ### The contracts and the cache -/

/-- The clock, the rounds of the simulators, the cache in its processes and in its file, and the
two contracts. -/
structure FundWorld where
  now : ℕ
  rounds : ℕ → ℕ
  store : FundStore ℕ
  vault : VaultChain
  deposits : DepositWorld

/-- A `U256` argument, from the text of a BigInt. -/
def u256Arg (motes : String) : Option U256 :=
  match Value.bigIntOfString motes with
  | .ok n => newCLUInt256 n
  | .error _ => none

/-- The call of the vault that a submission makes, if its arguments can be serialised. -/
def FundOp.vaultCall : FundOp → Option AgentVault.Call
  | .depositForStrategy amountMotes source =>
    (u256Arg amountMotes).map fun amount => .depositForStrategy amount source
  | .recordStrategyExecution kind target amountMotes (.str openedTx) =>
    (u256Arg amountMotes).map fun amount => .recordStrategyExecution kind target amount openedTx
  | _ => none

/-- The call of the deposit contract that a submission makes. -/
def FundOp.depositCall : FundOp → Option StakeholderDeposit.Call
  | .putDeposit args =>
    if 0 ≤ args.amount ∧ args.amount < 2 ^ 64 ∧ args.nonce < 2 ^ 64 then
      some (.deposit (UInt64.ofNat args.amount.toNat) args.sourceLabel args.sourceKind
        args.strategyHint (UInt64.ofNat args.nonce))
    else none
  | _ => none

/-- The answers from which the code takes it that a transaction has been accepted. -/
def FundOp.acknowledged : (op : FundOp) → FundAns op → Bool
  | .depositForStrategy _ _, .ok _ => true
  | .recordStrategyExecution _ _ _ _, .ok _ => true
  | .putDeposit _, .ok data => match data.field "error" with
    | .ok error => !error.truthy
    | .error _ => false
  | _, _ => false

namespace FundWorld

/-- A submitted transaction is executed, in any block and from any account. -/
inductive Executes (x : FundWorld) (op : FundOp) : FundWorld → Prop
  | vault {q : Request AgentVault.Call} {c : Commit AgentVault VaultEvent}
      (hcall : op.vaultCall = some q.call)
      (hok : AgentVault.exec x.vault.contract q.env q.call = .ok c) :
      Executes x op { x with vault := Chain.step AgentVault.exec x.vault q }
  | deposit {caller : Address} {ts : UInt64} {call : StakeholderDeposit.Call}
      {r : StakeholderDeposit.Accepted} (hcall : op.depositCall = some call)
      (hok : x.deposits.contract.exec (x.deposits.env caller ts) call = .ok r) :
      Executes x op { x with deposits := x.deposits.step (.call caller ts call) }

/-- The answer and the effect of a call on the cache and the clock; `none` for the others. -/
def inside (x : FundWorld) : (op : FundOp) → Option (FundAns op × FundWorld)
  | .agent .dateNow => some (x.now, x)
  | .load p => some ((), { x with store := x.store.step (.reload p x.now) })
  | .record p r =>
    some (((x.store.cache p).record x.now r).map fun _ => (),
      { x with store := x.store.step (.record p x.now r) })
  | .pickStakeholder p =>
    some (pickStakeholder (x.rounds p),
      { x with rounds := Function.update x.rounds p (x.rounds p + 1) })
  | _ => none

/-- What the two contracts are deployed with. -/
structure Deployment where
  owner : Address
  agent : Address
  maxLogHistory : UInt32
  minStrategyAmount : U256
  depositOwner : Address
  maxHistory : UInt32

/-- The contracts have just been deployed, and there is no file. -/
def start (d : Deployment) (now : ℕ) : FundWorld where
  now := now
  rounds := fun _ => 0
  store := .start now none
  vault := ⟨.init d.owner d.agent d.maxLogHistory d.minStrategyAmount, []⟩
  deposits := .deployed d.depositOwner d.maxHistory

/-- A call is answered by the process, or by the environment: a transaction is executed, or the
answer is not that of an accepted one. -/
def machine (cfg : Config) (d : Deployment) : Machine FundOp FundAns FundWorld FundJob where
  init := fun x => ∃ now, x = start d now
  code := FundJob.code cfg
  answer := fun x op r y =>
    match x.inside op with
    | some (r', y') => r = r' ∧ y = y'
    | none => Executes x op y ∨ (y = x ∧ op.acknowledged r = false)
  drift := fun x y => ∃ now, x.now ≤ now ∧ y = { x with now := now }

/-- The runs of the executor, the simulator and the bootstrap script. -/
def system (cfg : Config) (d : Deployment) :
    TransitionSystem (Pool FundOp FundAns FundWorld FundJob)
      (Pool.Label FundOp FundAns FundWorld FundJob) :=
  Pool.system (machine cfg d)

/-- The counters that `getFundState` loads are those of the contracts. -/
def Mirrors (x : FundWorld) : Prop :=
  (FundState.load x.now x.store.file).custodianMotes = x.vault.contract.getCustodiedCspr.toNat ∧
    (FundState.load x.now x.store.file).positionsOpened =
      x.vault.contract.getPositionCount.toNat ∧
    (FundState.load x.now x.store.file).stakeholderActiveMotes =
      x.deposits.contract.getTotalActive.toNat ∧
    (FundState.load x.now x.store.file).stakeholderTotalMotes =
      x.deposits.contract.getTotalDeposited.toNat

instance (x : FundWorld) : Decidable x.Mirrors :=
  inferInstanceAs (Decidable (_ ∧ _ ∧ _ ∧ _))

end FundWorld

end ArwaAgent
