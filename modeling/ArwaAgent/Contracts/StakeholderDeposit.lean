import ArwaAgent.Odra.Basic

/-!
# The StakeholderDeposit contract

The storage and the entry points of the contract that keeps the stakeholders'
principal.  A deposit is a record in a ring buffer of `maxHistory` slots; next to
the records the contract counts the active principal of every account and three
aggregates.  `deposit` takes the amount as an argument, the purse is not looked at;
`withdraw` finds the record by a linear scan over the slots, flips its status and
pays its amount from the purse.

Strings are measured in UTF-8 bytes, as `String::len` measures them.
-/

namespace ArwaAgent

/-- Lifecycle status of a single deposit. -/
inductive DepositStatus
  | active
  | withdrawn
deriving DecidableEq, Repr

/-- On-chain record of a single deposit by a stakeholder. -/
structure Deposit where
  id : UInt64
  stakeholder : Address
  amount : UInt64
  sourceLabel : String
  sourceKind : String
  strategyHint : String
  ts : UInt64
  status : DepositStatus
  withdrawalTs : UInt64
  withdrawalAmount : UInt64
  nonce : UInt64
deriving DecidableEq, Repr

structure StakeholderDeposited where
  id : UInt64
  stakeholder : Address
  amount : UInt64
  sourceLabel : String
  sourceKind : String
  strategyHint : String
  nonce : UInt64
  timestamp : UInt64
deriving DecidableEq, Repr

structure StakeholderWithdrew where
  id : UInt64
  stakeholder : Address
  amount : UInt64
  timestamp : UInt64
deriving DecidableEq, Repr

/-- The events of the contract. -/
inductive DepositEvent
  | stakeholderDeposited (e : StakeholderDeposited)
  | stakeholderWithdrew (e : StakeholderWithdrew)
  | ownershipTransferStarted (newOwner : Address)
  | paused (paused : Bool)
deriving DecidableEq, Repr

/-- The storage of the contract. -/
structure StakeholderDeposit where
  owner : Address
  paused : Bool
  stakeholderActive : Address → UInt64
  deposits : List Deposit
  head : UInt32
  maxHistory : UInt32
  depositCount : UInt64
  totalDeposited : UInt64
  totalActive : UInt64
  totalWithdrawn : UInt64

namespace StakeholderDeposit

/-- What a call that does not revert leaves behind. -/
structure Accepted where
  contract : StakeholderDeposit
  event : DepositEvent
  transfer : Option Transfer

/-- The constructor of the contract. -/
def init (owner : Address) (maxHistory : UInt32) : StakeholderDeposit where
  owner := owner
  paused := false
  stakeholderActive := fun _ => 0
  deposits := []
  head := 0
  maxHistory := max maxHistory 1
  depositCount := 0
  totalDeposited := 0
  totalActive := 0
  totalWithdrawn := 0

def onlyOwner (self : StakeholderDeposit) (env : Env) : Except Revert Unit :=
  require (env.caller = self.owner) "Only owner"

/-- The event announces a new owner; the storage keeps the old one. -/
def transferOwnership (self : StakeholderDeposit) (env : Env) (newOwner : Address) :
    Except Revert Accepted := do
  self.onlyOwner env
  return { contract := self, event := .ownershipTransferStarted newOwner, transfer := none }

def setPaused (self : StakeholderDeposit) (env : Env) (paused : Bool) :
    Except Revert Accepted := do
  self.onlyOwner env
  return { contract := { self with paused := paused }, event := .paused paused, transfer := none }

/-- The number of slots of the ring buffer. -/
def cap (self : StakeholderDeposit) : UInt32 := max self.maxHistory 1

/-- The ring-buffer write of `deposit`. -/
def appendDeposit (self : StakeholderDeposit) (deposit : Deposit) :
    Except Revert StakeholderDeposit :=
  if UInt32.ofNat self.deposits.length < self.cap then
    return { self with deposits := self.deposits ++ [deposit] }
  else do
    let deposits ← listReplace self.deposits self.head.toNat deposit
    return { self with deposits := deposits, head := (self.head + 1) % self.cap }

/-- Deposit `amount` motes. An accounting update only: the CSPR itself comes with a
separate transaction to the contract's purse, which is not looked at here. -/
def deposit (self : StakeholderDeposit) (env : Env) (amount : UInt64)
    (sourceLabel sourceKind strategyHint : String) (nonce : UInt64) :
    Except Revert Accepted := do
  require (self.paused = false) "Contract is paused"
  require (0 < amount) "amount must be > 0"
  require (sourceLabel.utf8ByteSize ≤ 64) "source_label too long"
  require (sourceKind.utf8ByteSize ≤ 32) "source_kind too long"
  require (strategyHint.utf8ByteSize ≤ 32) "strategy_hint too long"
  let caller := env.caller
  -- the sums wrap: the release build does not check them
  let id := self.depositCount + 1
  let prevActive := self.stakeholderActive caller
  let deposit : Deposit :=
    { id, stakeholder := caller, amount, sourceLabel, sourceKind, strategyHint,
      ts := env.blockTime, status := .active, withdrawalTs := 0, withdrawalAmount := 0, nonce }
  let contract ← appendDeposit
    { self with
      depositCount := id
      stakeholderActive := Function.update self.stakeholderActive caller (prevActive + amount)
      totalDeposited := self.totalDeposited + amount
      totalActive := self.totalActive + amount }
    deposit
  return {
    contract := contract
    event := .stakeholderDeposited
      { id, stakeholder := caller, amount, sourceLabel, sourceKind, strategyHint, nonce,
        timestamp := deposit.ts }
    transfer := none }

/-- The linear scan of `withdraw` over the records from slot `i` on. The first record
with the id decides: its checks revert the call, and the scan stops there. -/
def scan (caller : Address) (depositId : UInt64) : List Deposit → ℕ →
    Except Revert (Option (ℕ × UInt64))
  | [], _ => return none
  | d :: ds, i =>
    if d.id = depositId then do
      require (d.stakeholder = caller) "not your deposit"
      require (d.status = .active) "deposit already withdrawn"
      return some (i, d.amount)
    else
      scan caller depositId ds (i + 1)

/-- `Option::expect`. -/
def expect {α : Type} (x : Option α) (_msg : String) : Except Revert α :=
  match x with
  | some a => .ok a
  | none => .error .panic

/-- Withdraw a previously active deposit, principal only, from the contract's purse. -/
def withdraw (self : StakeholderDeposit) (env : Env) (depositId : UInt64) :
    Except Revert Accepted := do
  require (self.paused = false) "Contract is paused"
  let caller := env.caller
  let n := min (UInt32.ofNat self.deposits.length) self.cap
  require (0 < n) "no deposits exist"
  let found ← scan caller depositId (self.deposits.take n.toNat) 0
  let (idx, foundAmount) ← expect found "deposit not found"
  let old ← expect self.deposits[idx]? "unwrap"
  let updated : Deposit :=
    { old with
      status := .withdrawn
      withdrawalTs := env.blockTime
      withdrawalAmount := foundAmount }
  let deposits ← listReplace self.deposits idx updated
  let prevActive := self.stakeholderActive caller
  let newActive := saturatingSub prevActive foundAmount
  -- a purse that is too small reverts the call, with all of the above
  let transfer ← env.transferTokens caller foundAmount.toNat
  return {
    contract :=
      { self with
        deposits := deposits
        stakeholderActive := Function.update self.stakeholderActive caller newActive
        totalActive := saturatingSub self.totalActive foundAmount
        totalWithdrawn := self.totalWithdrawn + foundAmount }
    event := .stakeholderWithdrew
      { id := depositId, stakeholder := caller, amount := foundAmount,
        timestamp := updated.withdrawalTs }
    transfer := some transfer }

/-- The record of a deposit, or a zeroed record with id 0. -/
def getDeposit (self : StakeholderDeposit) (id : UInt64) : Deposit :=
  let n := min (UInt32.ofNat self.deposits.length) self.cap
  match (self.deposits.take n.toNat).find? fun d => d.id = id with
  | some d => d
  | none =>
    { id := 0, stakeholder := zeroAddress, amount := 0, sourceLabel := "", sourceKind := "",
      strategyHint := "", ts := 0, status := .active, withdrawalTs := 0,
      withdrawalAmount := 0, nonce := 0 }

def getStakeholderBalance (self : StakeholderDeposit) (stakeholder : Address) : UInt64 :=
  self.stakeholderActive stakeholder

def getTotalDeposited (self : StakeholderDeposit) : UInt64 := self.totalDeposited

def getTotalActive (self : StakeholderDeposit) : UInt64 := self.totalActive

def getTotalWithdrawn (self : StakeholderDeposit) : UInt64 := self.totalWithdrawn

/-- The state-changing entry points, with their arguments. -/
inductive Call
  | deposit (amount : UInt64) (sourceLabel sourceKind strategyHint : String) (nonce : UInt64)
  | withdraw (depositId : UInt64)
  | transferOwnership (newOwner : Address)
  | setPaused (paused : Bool)
deriving DecidableEq, Repr

/-- Dispatch of a call to its entry point. -/
def exec (self : StakeholderDeposit) (env : Env) : Call → Except Revert Accepted
  | .deposit amount sourceLabel sourceKind strategyHint nonce =>
    self.deposit env amount sourceLabel sourceKind strategyHint nonce
  | .withdraw depositId => self.withdraw env depositId
  | .transferOwnership newOwner => self.transferOwnership env newOwner
  | .setPaused paused => self.setPaused env paused

end StakeholderDeposit

end ArwaAgent
