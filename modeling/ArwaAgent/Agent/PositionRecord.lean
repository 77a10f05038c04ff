import ArwaAgent.Agent.AuditRecord
import ArwaAgent.Agent.Exchange
import ArwaAgent.Agent.FundWorld
import ArwaAgent.Agent.Influence
import ArwaAgent.Agent.OutcomeTruth
import ArwaAgent.Js.Bytes
import ArwaAgent.Js.Integers
import ArwaAgent.Lib.Calls

/-!
# What the executor asks for, and what it records

`ExecutorCalls` says once, for every answer, what the executor hands to its calls: a stake
goes to the validator of the proposal, or to the first known one; the exchange is asked for
the amount scaled down; a position is recorded under the validator or the pair of the
proposal, with its amount.

The vault cuts nothing: it rejects a target of more than 64 bytes, and a public key in
hexadecimal digits has 66 or 68.  So no stake is recorded under the validator that it went to
(`stake_never_recorded`).  The scaling truncates, so an amount that is no multiple of 10^9 is
not swapped as it is recorded (`swapped_amount_iff`).
-/

namespace ArwaAgent

open Js Effects Effects.Code

/-- The checks of `record_strategy_execution` on its arguments. -/
def AgentVault.AdmitsArguments (kind target : String) (amount : U256) (openedTx : String) : Prop :=
  0 < amount ∧ kind.utf8ByteSize ≤ 32 ∧ target.utf8ByteSize ≤ 64 ∧ openedTx.utf8ByteSize ≤ 64

/-- What else the vault checks is the caller, and whether there is room. -/
lemma AgentVault.admitsRecord_iff {self : AgentVault} {env : Env} {kind target openedTx : String}
    {amount : U256} :
    self.AdmitsRecord env kind target amount openedTx ↔ self.agents env.caller = true ∧
      AdmitsArguments kind target amount openedTx ∧ self.positions.length + 1 < 2 ^ 32 := by
  simp only [AdmitsRecord, AdmitsArguments, and_assoc]

/-- What the executor hands to its calls. -/
def ExecutorCalls (p : StrategyProposal) : Op → Prop
  | .delegateToValidator amountMotes validator =>
    amountMotes = p.amountIn ∧ validator = stakeValidator p
  | .buildUnsignedDeploy params =>
    ∃ keys n, Value.bigIntOfString p.amountIn = .ok n ∧ params = buildParams p keys n
  | .recordStrategyExecution kind target amountMotes _ =>
    amountMotes = p.amountIn ∧
      if p.action.is "stake" then
        kind = "validator_delegate" ∧ p.validatorPubKey = some target ∧ target ≠ ""
      else kind = positionKind p ∧ target = p.pair
  | .recordCustodianDeposit motes => motes = p.amountIn
  | _ => True

section

variable {cfg : Config} {p : StrategyProposal} {keys : AgentKeys}

lemma openPosition_only {kind target : String} {openedTx : Value}
    (h : ExecutorCalls p (.recordStrategyExecution kind target p.amountIn openedTx)) :
    Only (ExecutorCalls p) (openPosition p kind target openedTx) := by
  refine Stays.tryCatch ?_ fun e => Stays.pure _
  refine Stays.bind (Only.ask h) fun tx => ?_
  exact Stays.bind (Only.ask trivial) fun _ => Only.ask rfl

lemma openStakePosition_only (haction : p.action.is "stake" = true) (r : ExecutionResult) :
    Only (ExecutorCalls p) (openStakePosition p r) := by
  rw [openStakePosition]
  split
  · next hr =>
    refine openPosition_only ⟨rfl, ?_⟩
    rw [if_pos haction]
    refine ⟨rfl, ?_, hr.2⟩
    cases hkey : p.validatorPubKey with
    | some v => rfl
    | none => exact absurd (by rw [hkey]; rfl) hr.2
  · exact Stays.pure _

lemma stakePath_only (haction : p.action.is "stake" = true) :
    Only (ExecutorCalls p) (stakePath cfg p) := by
  refine Stays.bind (Stays.result _) fun amountBig => ?_
  split
  · exact Stays.throw _
  · refine Stays.bind (Only.ask ⟨rfl, rfl⟩) fun r => Stays.bind (Only.set _) fun _ => ?_
    exact Stays.bind (openStakePosition_only haction r) fun _ => Stays.throw _

lemma dexPath_only (haction : p.action.is "stake" = false) :
    Only (ExecutorCalls p) (dexPath p keys) := by
  intro vars
  refine meets_result_bind.2 ?_
  cases hn : Value.bigIntOfString p.amountIn with
  | error e => rfl
  | ok n =>
    have hrest : Only (ExecutorCalls p) (do
        let unsigned ← ask (.buildUnsignedDeploy (buildParams p keys n)) id
        let r ← ask (.signAndSubmitSwap unsigned) id
        set (ExecutorVars.mk r.deployHash (if r.success then .success else .reverted))
        if r.success then openPosition p (positionKind p) p.pair r.deployHash
        else pure () : Agent ExecutorVars Unit) := by
      refine Stays.bind (Only.ask ⟨keys, n, hn, rfl⟩) fun unsigned => ?_
      refine Stays.bind (Only.ask trivial) fun r => Stays.bind (Only.set _) fun _ => ?_
      split
      · refine openPosition_only ⟨rfl, ?_⟩
        rw [haction]
        exact ⟨rfl, rfl⟩
      · exact Stays.pure _
    exact hrest vars

lemma strategyBlock_only : Only (ExecutorCalls p) (strategyBlock cfg p keys) := by
  rw [strategyBlock]
  split
  · exact Stays.bind (Only.ask trivial) fun now => Stays.bind (Only.set _) fun _ => Stays.throw _
  · split
    · next haction => exact stakePath_only haction
    · next haction => exact dexPath_only (Bool.eq_false_iff.2 haction)

lemma submitStrategy_only : Only (ExecutorCalls p) (submitStrategy cfg p keys) := by
  refine Stays.bind strategyBlock_only.block fun ended => ?_
  obtain ⟨r, vars⟩ := ended
  cases r with
  | ok _ => exact Stays.pure _
  | error e =>
    show Only (ExecutorCalls p) (if _ then pure vars else _)
    split
    · exact Stays.pure _
    · exact Stays.bind (Only.ask trivial) fun now => Stays.pure _

lemma updateRiskGuard_only (outcome : LocalOutcome) :
    Only (ExecutorCalls p) (updateRiskGuard p outcome) := by
  refine Stays.tryCatch (Stays.bind (Only.ask trivial) fun _ => ?_) fun e => Stays.pure _
  split
  · exact Only.ask trivial
  · exact Stays.pure _

/-- Whatever the answers, this is what the executor asks for and records. -/
lemma runExecutor_only : Only (ExecutorCalls p) (runExecutor cfg p) := by
  refine Stays.bind (Only.ask trivial) fun keys => Stays.bind submitStrategy_only fun vars => ?_
  refine Stays.bind (updateRiskGuard_only _) fun _ => ?_
  refine Stays.bind (Stays.bind (Stays.result _) fun settle => ?_) fun r => Stays.pure _
  exact Stays.tryCatch (Only.ask trivial) fun e => Stays.pure _

end

/-! ### Stakes -/

/-- A Casper public key in hexadecimal digits. -/
def IsPublicKey (v : String) : Prop :=
  (∃ h, v = "01" ++ h ∧ IsHex 64 h) ∨ ∃ h, v = "02" ++ h ∧ IsHex 66 h

/-- The validator of a stake proposal: a public key, missing, or the text `undefined`. -/
def StakeKey : Option String → Prop
  | none => True
  | some v => v = "" ∨ v = "undefined" ∨ IsPublicKey v

section

variable {X : Type}

/-- The node has accepted a delegation of a positive amount, under a hash of 64 digits. -/
def DelegationSucceeds (p : StrategyProposal) (events : List (Event ChainOp ChainAns X)) : Prop :=
  (∃ n, Value.bigIntOfString p.amountIn = .ok n ∧ 0 < n) ∧
    ∃ transaction data x y hash h,
      Event.mk (.accountPutTransaction transaction) (.ok data) x y ∈ events ∧
        transactionHash data = .ok hash ∧ hash.field? "Version1" = .str h ∧ IsHex 64 h

/-- A position has been asked for under the validator that a delegation went to, with arguments
that the vault admits. -/
def StakeRecorded (events : List (Event ChainOp ChainAns X)) : Prop :=
  ∃ validator, (∃ e ∈ events, ∃ motes, e.op = .signDelegate motes validator) ∧
    ∃ e ∈ events, ∃ kind motes openedTx amount,
      e.op = .agent (.recordStrategyExecution kind validator motes (.str openedTx)) ∧
        u256Arg motes = some amount ∧
          AgentVault.AdmitsArguments kind validator amount openedTx

end

/-- The calls of an executor that submits its transactions. -/
def SubmissionCalls (p : StrategyProposal) : ChainOp → Prop
  | .agent op => ExecutorCalls p op
  | .signDelegate motes validator => motes = p.amountIn ∧ validator = stakeValidator p
  | _ => True

section

variable {cfg : Config} {p : StrategyProposal}

/-- A delegation is signed for the validator that the executor names. -/
lemma submission_only (op : Op) (h : ExecutorCalls p op) :
    Program.Meets (.only (SubmissionCalls p)) () (submission cfg op) fun _ _ => True := by
  cases op with
  | delegateToValidator amount validator =>
    have hdelegate : Only (SubmissionCalls p) (delegateToValidator cfg amount (some validator)) := by
      refine Stays.bind (Only.ask h) fun json => Stays.bind (Only.ask trivial) fun data => ?_
      exact Stays.bind (Stays.result _) fun _ => Stays.bind (Stays.result _) fun _ => Stays.pure _
    exact Program.meets_bind.2 (Program.Meets.mono (hdelegate ()) fun _ _ _ => trivial)
  | signAndSubmitSwap txJson =>
    have hswap : Only (SubmissionCalls p) (signAndSubmitSwap txJson) := by
      refine Stays.bind (Only.ask h) fun _ => ?_
      refine Stays.bind (Stays.result _) fun hash => Stays.bind (Stays.result _) fun payload => ?_
      refine Stays.bind (Only.ask trivial) fun approval => Stays.bind (Only.ask trivial) fun data => ?_
      refine Stays.bind (Stays.result _) fun _ => Stays.bind (Stays.result _) fun hash => ?_
      refine Stays.tryCatch (Stays.bind (Only.ask trivial) fun r => ?_) fun e => ?_
      · exact Stays.pure _
      · exact Stays.pure _
    exact Program.meets_bind.2 (Program.Meets.mono (hswap ()) fun _ _ _ => trivial)
  | _ => exact ⟨h, fun r _ => trivial⟩

lemma executeOnChain_calls {X : Type} (f : X → (op : ChainOp) → ChainAns op × X) (x : X) :
    ∀ e ∈ (Program.play f x (executeOnChain cfg p)).1, SubmissionCalls p e.op :=
  Program.mem_play_of_only (Program.only_handle submission_only (runExecutor_only ()))

/-- The vault rejects a public key as a target. -/
lemma not_admitsArguments_of_isPublicKey {kind target openedTx : String} {amount : U256}
    (h : IsPublicKey target) : ¬ AgentVault.AdmitsArguments kind target amount openedTx := by
  rintro ⟨-, -, htarget, -⟩
  have hlength := length_le_utf8ByteSize target
  rcases h with ⟨h, rfl, hhex⟩ | ⟨h, rfl, hhex⟩
  · rw [String.toList_append, List.length_append, hhex.length] at hlength
    have hfront : "01".toList.length = 2 := rfl
    omega
  · rw [String.toList_append, List.length_append, hhex.length] at hlength
    omega

lemma stakeValidator_ne_undefined : stakeValidator p ≠ "undefined" := by
  have hfallback : fallbackTestnetValidators.headD "" ≠ "undefined" := by decide
  rw [stakeValidator]
  split
  · next v hv =>
    split
    · exact hfallback
    · next hnot => exact fun h => hnot (Or.inr h)
  · exact hfallback

/-- No stake is recorded: whatever the services answer, no position is asked for under the
validator that the delegation went to with arguments that the vault admits. -/
theorem stake_never_recorded (haction : p.action.is "stake" = true)
    (hkey : StakeKey p.validatorPubKey) {X : Type} (f : X → (op : ChainOp) → ChainAns op × X)
    (x : X) : ¬ StakeRecorded (Program.play f x (executeOnChain cfg p)).1 := by
  rintro ⟨validator, ⟨e, he, motes, hsigned⟩, e', he', kind, motes', openedTx, amount, hop, -, hadmits⟩
  have hdelegated := executeOnChain_calls f x e he
  have hrecorded := executeOnChain_calls f x e' he'
  rw [hsigned] at hdelegated
  rw [hop, SubmissionCalls, ExecutorCalls, if_pos haction] at hrecorded
  obtain ⟨-, hvalidator⟩ := hdelegated
  obtain ⟨-, -, hsome, hne⟩ := hrecorded
  rw [hsome] at hkey
  rcases hkey with hempty | hundefined | hpublic
  · exact hne hempty
  · exact stakeValidator_ne_undefined (hvalidator.symm.trans hundefined)
  · exact not_admitsArguments_of_isPublicKey hpublic hadmits

end

/-- A node that accepts every transaction, under a hash of 64 digits. -/
def hashingNode : (op : ChainOp) → ChainAns op
  | .accountPutTransaction _ => .ok (.obj [("result", .obj [("transaction_hash",
      .obj [("Version1", .str succeededHash)])])])
  | .agent (.recordStrategyExecution _ _ _ _) => .ok (.str "c0ffee")
  | op => acceptingNode .executed op

/-- The executor on the stake of 500 CSPR, at that node. -/
def stakeRun : List (Event ChainOp ChainAns Unit) :=
  (Program.play (fun x op => (hashingNode op, x)) () (executeOnChain plainConfig stakeProposal)).1

lemma stakeKey_stakeProposal : StakeKey stakeProposal.validatorPubKey :=
  Or.inr (Or.inr (Or.inl ⟨"000019478b67d07c3adc460db360deef6c663ec55ba29db70b458e47022a3d81", by decide,
    by decide⟩))

lemma delegationSucceeds_stakeRun : DelegationSucceeds stakeProposal stakeRun := by
  refine ⟨⟨500000000000, rfl, by decide⟩, ?_⟩
  refine ⟨_, _, (), (), _, succeededHash, List.mem_of_getElem? (i := 2) rfl, rfl, rfl, ?_⟩
  decide +kernel

/-- The stake of 500 CSPR succeeds and is not recorded. -/
theorem stake_never_recorded_stakeRun :
    DelegationSucceeds stakeProposal stakeRun ∧ ¬ StakeRecorded stakeRun :=
  ⟨delegationSucceeds_stakeRun,
    stake_never_recorded (by decide) stakeKey_stakeProposal (fun x op => (hashingNode op, x)) ()⟩

/-- Not every successful stake is recorded: the position of 500 CSPR at a validator is asked for
under a key of 66 characters. -/
theorem successful_stake_is_not_recorded :
    ¬ ∀ (cfg : Config) (p : StrategyProposal) (X : Type) (f : X → (op : ChainOp) → ChainAns op × X)
      (x : X), p.action.is "stake" = true → StakeKey p.validatorPubKey →
        DelegationSucceeds p (Program.play f x (executeOnChain cfg p)).1 →
          StakeRecorded (Program.play f x (executeOnChain cfg p)).1 := by
  intro h
  obtain ⟨validator, -, e, he, kind, motes, openedTx, amount, hop, -, hadmits⟩ :=
    h plainConfig stakeProposal Unit (fun x op => (hashingNode op, x)) () (by decide)
      stakeKey_stakeProposal delegationSucceeds_stakeRun
  have hcalls := executeOnChain_calls (fun x op => (hashingNode op, x)) () e he
  rw [hop, SubmissionCalls, ExecutorCalls, if_pos (by decide)] at hcalls
  obtain ⟨-, -, hvalidator, -⟩ := hcalls
  obtain rfl := Option.some.inj hvalidator
  exact absurd hadmits.2.2.1 (by decide)

/-! ### Swaps -/

/-- The motes that are swapped on a request: the exchange multiplies the amount by 10^9. -/
def swappedMotes (arguments : Value) : Except Error ℤ := do
  return (← (arguments.ownField "amount").toBigInt) * 10 ^ 9

/-- Every amount of a run of the executor is `n`: the one that is swapped, those of the positions
in the vault, and those that the fund cache counts. -/
structure AmountsAgree {X : Type} (events : List (Event ToolOp ToolAns X)) (n : ℤ) : Prop where
  swapped : ∀ e ∈ events, ∀ name arguments, e.op = .callTool name arguments →
    swappedMotes arguments = .ok n
  position : ∀ e ∈ events, ∀ kind target motes openedTx,
    e.op = .agent (.recordStrategyExecution kind target motes openedTx) →
      Value.bigIntOfString motes = .ok n
  cached : ∀ e ∈ events, ∀ motes, e.op = .agent (.recordCustodianDeposit motes) →
    Value.bigIntOfString motes = .ok n

/-- The calls of an executor with its client of the exchange. -/
def ExchangeCalls (p : StrategyProposal) : ToolOp → Prop
  | .agent op => ExecutorCalls p op
  | .callTool _ arguments => ∃ keys n, Value.bigIntOfString p.amountIn = .ok n ∧
      arguments = buildArguments (buildParams p keys n)
  | _ => True

section

variable {cfg : Config} {p : StrategyProposal} {n : ℤ}

lemma exchange_only (op : Op) (h : ExecutorCalls p op) :
    Program.Meets (.only (ExchangeCalls p)) () (exchange op) fun _ _ => True := by
  cases op with
  | buildUnsignedDeploy params =>
    obtain ⟨keys, n, hn, rfl⟩ := h
    have hbuild : Only (ExchangeCalls p) (buildUnsignedDeploy (buildParams p keys n)) := by
      refine Stays.bind (Only.ask trivial) fun _ => Stays.bind (Stays.result _) fun name => ?_
      refine Stays.bind (Only.ask ⟨keys, n, hn, rfl⟩) fun res => Stays.bind (Stays.result _) ?_
      intro parsed
      have herror : Only (ExchangeCalls p) (do
          let text ← result (parsed.field? "error").toStr
          throw ⟨s!"CSPR.trade MCP error: {text}"⟩ : Tools Value) :=
        Stays.bind (Stays.result _) fun _ => Stays.throw _
      split
      · exact Stays.throw _
      · show Only (ExchangeCalls p) (if (parsed.field? "error").truthy then _ else _)
        split
        · exact herror
        · exact Stays.pure _
    exact Program.meets_bind.2 (Program.Meets.mono (hbuild ()) fun _ _ _ => trivial)
  | _ => exact ⟨h, fun r _ => trivial⟩

lemma executeOnExchange_calls {X : Type} (f : X → (op : ToolOp) → ToolAns op × X) (x : X) :
    ∀ e ∈ (Program.play f x (executeOnExchange cfg p)).1, ExchangeCalls p e.op :=
  Program.mem_play_of_only (Program.only_handle exchange_only (runExecutor_only ()))

/-- The exchange scales the amount up that has been scaled down. -/
lemma swappedMotes_buildArguments (keys : AgentKeys) (n : ℤ) :
    swappedMotes (buildArguments (buildParams p keys n)) = .ok (n.tdiv (10 ^ 9) * 10 ^ 9) := by
  have hamount : (buildArguments (buildParams p keys n)).ownField "amount" =
      .str (toString (n.tdiv (10 ^ 9))) := rfl
  have hread : (Value.str (toString (n.tdiv (10 ^ 9)))).toBigInt = .ok (n.tdiv (10 ^ 9)) :=
    bigIntOfString_toString _
  rw [swappedMotes, hamount, hread]
  rfl

lemma tdiv_mul_eq_iff : n.tdiv (10 ^ 9) * 10 ^ 9 = n ↔ 10 ^ 9 ∣ n :=
  ⟨fun h => ⟨_, (mul_comm _ _).trans h |>.symm⟩, Int.tdiv_mul_cancel⟩

/-- The quote of a proposal of a non-zero amount has been asked for that amount. -/
lemma quote_of_playAnalyst {input : AnalystInput} {X : Type} {f : X → (op : Op) → Ans op × X} {x : X}
    (h : (playAnalyst cfg input f x).2.2.1 = .ok p) (hzero : p.amountIn ≠ "0") :
    ∀ e ∈ (playAnalyst cfg input f x).1, ∀ tokenIn tokenOut amount,
      e.op = .getQuote tokenIn tokenOut amount → amount = p.amountIn := by
  intro e he tokenIn tokenOut amount hop
  have hquotes := Only.mem_play runAnalyst_only e he
  rw [hop] at hquotes
  obtain ⟨cb, -, hamount, -⟩ := (proposes_of_playAnalyst h).spends
  rw [proposedAmount] at hamount
  split at hamount
  · exact absurd hamount hzero
  · exact hquotes.trans hamount.symm

/-- In every run of the executor that asks the exchange for a transaction, the amount that is
swapped is the amount of the proposal, which is that of the positions and of the fund cache, if
and only if it is a multiple of 10^9; and it is the amount that the analyst has asked its quote
for. -/
theorem swapped_amount_iff (hdex : p.isHold = false) (hn : Value.bigIntOfString p.amountIn = .ok n)
    {X : Type} (f : X → (op : ToolOp) → ToolAns op × X) (x : X)
    (hbuilt : ∃ e ∈ (Program.play f x (executeOnExchange cfg p)).1,
      ∃ name arguments, e.op = .callTool name arguments) :
    (AmountsAgree (Program.play f x (executeOnExchange cfg p)).1 n ↔ 10 ^ 9 ∣ n) ∧
      ∀ (cfg' : Config) (input : AnalystInput) (Y : Type) (g : Y → (op : Op) → Ans op × Y) (y : Y),
        (playAnalyst cfg' input g y).2.2.1 = .ok p →
          ∀ e ∈ (playAnalyst cfg' input g y).1, ∀ tokenIn tokenOut amount,
            e.op = .getQuote tokenIn tokenOut amount → Value.bigIntOfString amount = .ok n := by
  have hcalls := @executeOnExchange_calls cfg p X f x
  refine ⟨⟨fun hagree => ?_, fun hdvd => ⟨?_, ?_, ?_⟩⟩, ?_⟩
  · obtain ⟨e, he, name, arguments, hop⟩ := hbuilt
    have htool := hcalls e he
    rw [hop] at htool
    obtain ⟨keys, m, hm, rfl⟩ := htool
    obtain rfl : n = m := Except.ok.inj (hn.symm.trans hm)
    have hswapped := hagree.swapped e he name _ hop
    rw [swappedMotes_buildArguments] at hswapped
    exact tdiv_mul_eq_iff.1 (Except.ok.inj hswapped)
  · intro e he name arguments hop
    have htool := hcalls e he
    rw [hop] at htool
    obtain ⟨keys, m, hm, rfl⟩ := htool
    obtain rfl : n = m := Except.ok.inj (hn.symm.trans hm)
    rw [swappedMotes_buildArguments, tdiv_mul_eq_iff.2 hdvd]
  · intro e he kind target motes openedTx hop
    have hposition := hcalls e he
    rw [hop] at hposition
    rw [hposition.1, hn]
  · intro e he motes hop
    have hcached : motes = p.amountIn := by
      have hcall := hcalls e he
      rwa [hop] at hcall
    rw [hcached, hn]
  · intro cfg' input Y g y hp e he tokenIn tokenOut amount hop
    have hzero : p.amountIn ≠ "0" := by
      intro hzero
      rw [StrategyProposal.isHold, hzero] at hdex
      cases hdex
    rw [quote_of_playAnalyst hp hzero e he tokenIn tokenOut amount hop, hn]

end

/-- A swap of some motes. -/
def csprSwap (amountIn : String) : StrategyProposal :=
  { stakeProposal with
    action := .str "swap"
    pair := "CSPR/sCSPR"
    tokenOut := .str "sCSPR"
    amountIn := amountIn
    minAmountOut := .str "0"
    validatorPubKey := none }

/-- An exchange that builds every transaction. -/
def buildingExchange : (op : ToolOp) → ToolAns op
  | .agent op => openMarket op
  | .getCsprTradeMcp => .ok ()
  | .callTool _ _ => .ok (.obj [("structuredContent", .obj [("hash", .str succeededHash)])])

/-- The executor on a swap, at that exchange. -/
def swapRun (amountIn : String) : List (Event ToolOp ToolAns Unit) :=
  (Program.play (fun x op => (buildingExchange op, x)) ()
    (executeOnExchange plainConfig (csprSwap amountIn))).1

/-- All amounts of a swap of 2 CSPR agree. -/
theorem swapped_amount_iff_two_cspr : AmountsAgree (swapRun "2000000000") 2000000000 := by
  have hn : Value.bigIntOfString (csprSwap "2000000000").amountIn = .ok 2000000000 := by
    rfl
  refine (swapped_amount_iff (by decide) hn (fun x op => (buildingExchange op, x)) () ?_).1.2 ?_
  · exact ⟨_, List.mem_of_getElem? (i := 2) rfl, _, _, rfl⟩
  · exact ⟨2, rfl⟩

/-- Of 1.5 CSPR only one is swapped, while a position of 1.5 CSPR is recorded. -/
theorem fraction_is_not_swapped :
    ¬ ∀ (cfg : Config) (p : StrategyProposal) (n : ℤ) (X : Type)
      (f : X → (op : ToolOp) → ToolAns op × X) (x : X), p.isHold = false →
        p.action.is "stake" = false → Value.bigIntOfString p.amountIn = .ok n → 0 < n →
          (∃ e ∈ (Program.play f x (executeOnExchange cfg p)).1,
            ∃ name arguments, e.op = .callTool name arguments) →
              AmountsAgree (Program.play f x (executeOnExchange cfg p)).1 n := by
  intro h
  have hmem : ∃ e ∈ swapRun "1500000000", ∃ name arguments, e.op = .callTool name arguments ∧
      swappedMotes arguments = .ok 1000000000 :=
    ⟨_, List.mem_of_getElem? (i := 2) rfl, _, _, rfl, rfl⟩
  obtain ⟨e, he, name, arguments, hop, hswapped⟩ := hmem
  have hagree := h plainConfig (csprSwap "1500000000") 1500000000 Unit
    (fun x op => (buildingExchange op, x)) () (by decide) (by decide) rfl
    (by decide) ⟨e, he, name, arguments, hop⟩
  have hsame := hagree.swapped e he name arguments hop
  rw [hswapped] at hsame
  exact absurd (Except.ok.inj hsame) (by decide)

end ArwaAgent
