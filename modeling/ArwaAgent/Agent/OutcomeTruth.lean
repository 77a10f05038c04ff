import ArwaAgent.Agent.Scenario
import ArwaAgent.Agent.Submission

/-!
# What a reported success says about the chain

The executor reports a success, opens a position and counts the deposit after a
delegation that the node has accepted, and after a swap whose wait has found it executed
or has thrown.  So what it reports is true for every answer of the node exactly if the
transaction is executed, or none is submitted, or it is a swap that the wait finds
reverted.  `landing` is the part of the argument that the executor answers for,
`submission_truthful` the part of the functions that submit.
-/

namespace ArwaAgent

open Js Effects Effects.Code

/-- What becomes of the transaction that the executor submits: it is executed without error, it
reverts, or it has not been executed when the wait for it ends. -/
inductive Fate
  | executed
  | reverted
  | pending
  deriving DecidableEq

/-- The answers that a fate allows: the wait finds a reverted transaction without a success, and
throws when it ends before the execution. -/
def Fate.Honest (fate : Fate) : (op : ChainOp) → ChainAns op → Prop
  | .waitForTransaction _, r => match fate with
    | .executed => True
    | .reverted => ∃ v, r = .ok v ∧ reportsSuccess v = false
    | .pending => ∃ e, r = .error e
  | _, _ => True

/-- The calls that treat the strategy as executed. -/
def Op.celebrates : Op → Bool
  | .recordStrategyOutcome o => o = .success
  | .recordStrategyExecution _ _ _ _ | .recordPositionOpened | .recordCustodianDeposit _ => true
  | _ => false

/-- The calls that treat the strategy as executed. -/
def ChainOp.celebrates : ChainOp → Bool
  | .agent op => op.celebrates
  | _ => false

/-- The calls that submit a transaction. -/
def ChainOp.posts : ChainOp → Bool
  | .accountPutTransaction _ => true
  | _ => false

/-- A strategy may be treated as executed only after a transaction has been submitted whose fate
is to be executed. -/
def outcomeTruth (fate : Fate) : Monitor ChainOp ChainAns Bool where
  allows := fun posted op => op.celebrates = true → posted = true ∧ fate = .executed
  expects := fun _ op r => fate.Honest op r
  next := fun posted op _ => op.posts || posted

/-- Whatever the node answers, the executor treats a strategy as executed only if it has been. -/
def Truthful (cfg : Config) (p : StrategyProposal) (fate : Fate) : Prop :=
  (executeOnChain cfg p).Meets (outcomeTruth fate) false fun _ _ => True

/-- A proposal that the executor submits as a delegation. -/
def Stakes (cfg : Config) (p : StrategyProposal) : Prop :=
  p.isHold = false ∧ p.action.is "stake" = true ∧
    ∃ n, stakeAmount p = .ok n ∧ cfg.minStakeMotes ≤ n

/-- A proposal that the executor takes to the exchange. -/
def Swaps (p : StrategyProposal) : Prop :=
  p.isHold = false ∧ p.action.is "stake" = false ∧ ∃ n, Value.bigIntOfString p.amountIn = .ok n

section

variable {cfg : Config} {p : StrategyProposal} {keys : AgentKeys}

/-! ### What the executor makes of the answers -/

/-- Whether a submission has been answered with a success; only then may the strategy be treated
as executed. -/
def landing (cfg : Config) (p : StrategyProposal) : Monitor Op Ans Bool where
  allows := fun landed op => match op with
    | .delegateToValidator _ _ => Stakes cfg p
    | .signAndSubmitSwap _ => Swaps p
    | op => op.celebrates = true → landed = true
  next := fun landed op r => match op, r with
    | .delegateToValidator _ _, .ok r => landed || decide (r.outcome = .success)
    | .signAndSubmitSwap _, .ok r => landed || r.success
    | _, _ => landed

lemma openPosition_landing {kind target : String} {openedTx : Value} :
    Stays (landing cfg p) true (openPosition p kind target openedTx) := by
  have hcall : ∀ {op : Op} {α : Type} {read : Ans op → Except Error α},
      (landing cfg p).allows true op → (∀ r, (landing cfg p).next true op r = true) →
        Stays (landing cfg p) true (ask op read : Agent ExecutorVars α) :=
    fun hallows hnext => Stays.ask hallows hnext
  refine Stays.tryCatch ?_ fun e => Stays.pure _
  refine Stays.bind (hcall (fun _ => rfl) fun r => rfl) fun tx => ?_
  exact Stays.bind (hcall (fun _ => rfl) fun r => rfl) fun _ => hcall (fun _ => rfl) fun r => rfl

/-- The local variable says `success` only after a submission that was answered so. -/
def SaysSuccess (landed : Bool) (vars : ExecutorVars) : Prop :=
  vars.outcome = .success → landed = true

lemma stakePath_landing {vars : ExecutorVars} (hvars : vars.outcome = .failed)
    (hhold : p.isHold = false) (haction : p.action.is "stake" = true) :
    Meets (landing cfg p) false vars (stakePath cfg p) fun landed vars _ =>
      SaysSuccess landed vars := by
  have hfailed : SaysSuccess false vars := fun h => by rw [hvars] at h; cases h
  refine meets_result_bind.2 ?_
  cases hn : stakeAmount p with
  | error e => exact hfailed
  | ok n =>
    show Meets (landing cfg p) false vars (if n < cfg.minStakeMotes then _ else _) _
    split
    · exact hfailed
    · next hmin =>
      refine meets_ask_bind.2 ⟨⟨hhold, haction, n, hn, not_lt.1 hmin⟩, fun r _ => ?_⟩
      cases r with
      | error e => exact hfailed
      | ok r =>
        refine meets_bind.2 (meets_set.2 ?_)
        show Meets (landing cfg p) (decide (r.outcome = .success))
          (ExecutorVars.mk r.txHash (if r.outcome = .success then .success else .reverted))
          (openStakePosition p r >>= fun _ => throw ⟨"stake-handled"⟩) _
        by_cases hr : r.outcome = .success
        · have hopen : Stays (landing cfg p) true (openStakePosition p r) := by
            rw [openStakePosition]
            split
            · exact openPosition_landing
            · exact Stays.pure _
          rw [decide_eq_true hr]
          exact (Stays.bind hopen (fun _ => Stays.throw _) _).mono fun _ _ _ h _ => h
        · rw [decide_eq_false hr, if_neg hr, openStakePosition, if_neg fun h => hr h.1]
          exact fun h => nomatch h

lemma dexPath_landing {vars : ExecutorVars} (hvars : vars.outcome = .failed)
    (hhold : p.isHold = false) (haction : p.action.is "stake" = false) :
    Meets (landing cfg p) false vars (dexPath p keys) fun landed vars _ =>
      SaysSuccess landed vars := by
  have hfailed : SaysSuccess false vars := fun h => by rw [hvars] at h; cases h
  refine meets_result_bind.2 ?_
  cases hn : Value.bigIntOfString p.amountIn with
  | error e => exact hfailed
  | ok n =>
    refine meets_ask_bind.2 ⟨(fun h => nomatch h), fun r _ => ?_⟩
    cases r with
    | error e => exact hfailed
    | ok unsigned =>
      refine meets_ask_bind.2 ⟨⟨hhold, haction, n, hn⟩, fun r _ => ?_⟩
      cases r with
      | error e => exact hfailed
      | ok r =>
        refine meets_bind.2 (meets_set.2 ?_)
        show Meets (landing cfg p) r.success
          (ExecutorVars.mk r.deployHash (if r.success then .success else .reverted))
          (if r.success then _ else _) _
        cases r.success with
        | true => exact (openPosition_landing _).mono fun _ _ _ h _ => h
        | false => exact fun h => nomatch h

lemma submitStrategy_landing :
    Meets (landing cfg p) false () (submitStrategy cfg p keys) fun landed _ r =>
      ∃ vars, r = .ok vars ∧ SaysSuccess landed vars := by
  have hblock : Meets (landing cfg p) false ⟨.str "", .failed⟩ (strategyBlock cfg p keys)
      fun landed vars _ => SaysSuccess landed vars := by
    rw [strategyBlock]
    split
    · exact ⟨(fun h => nomatch h), fun now _ h => nomatch h⟩
    · next hhold =>
      split
      · next haction => exact stakePath_landing rfl (Bool.eq_false_iff.2 hhold) haction
      · next haction =>
        exact dexPath_landing rfl (Bool.eq_false_iff.2 hhold) (Bool.eq_false_iff.2 haction)
  refine meets_bind.2 (meets_block.2 (hblock.mono fun landed vars r hvars => ?_))
  cases r with
  | ok _ => exact ⟨vars, rfl, hvars⟩
  | error e =>
    show Meets (landing cfg p) landed () (if _ then pure vars else _) _
    split
    · exact ⟨vars, rfl, hvars⟩
    · exact meets_ask_bind.2 ⟨(fun h => nomatch h), fun now _ => ⟨_, rfl, fun h => nomatch h⟩⟩

lemma updateRiskGuard_landing {landed : Bool} {vars : ExecutorVars}
    (hvars : SaysSuccess landed vars) :
    Stays (landing cfg p) landed (updateRiskGuard p vars.outcome) := by
  refine Stays.tryCatch (Stays.bind (Stays.ask ?_ fun r => rfl) fun _ => ?_) fun e => Stays.pure _
  · intro hsuccess
    refine hvars ?_
    cases ho : vars.outcome with
    | success => rfl
    | _ =>
      rw [ho] at hsuccess
      cases hsuccess
  · split
    · exact Stays.ask (fun h => nomatch h) fun r => rfl
    · exact Stays.pure _

/-- The executor treats a strategy as executed only after a submission that was answered so, and
it submits a delegation only for a stake, and a swap only for the exchange. -/
lemma runExecutor_landing :
    Meets (landing cfg p) false () (runExecutor cfg p) fun _ _ _ => True := by
  refine meets_ask_bind.2 ⟨(fun h => nomatch h), fun keys _ => ?_⟩
  cases keys with
  | error e => trivial
  | ok keys =>
    refine Meets.bind submitStrategy_landing ?_ fun _ _ _ _ => trivial
    rintro landed l _ ⟨vars, hvars, hsays⟩
    cases hvars
    refine Stays.meets_bind (updateRiskGuard_landing hsays) (fun l _ => ?_) fun _ _ => trivial
    refine Stays.meets_bind (Stays.bind (Stays.result _) fun settle => ?_) (fun _ _ => trivial)
      fun _ _ => trivial
    exact Stays.tryCatch (Stays.ask (fun h => nomatch h) fun r => rfl) fun e => Stays.pure _

/-! ### What the functions that submit answer -/

/-- A submission that was answered with a success has been executed. -/
def Landed (fate : Fate) (landed posted : Bool) : Prop :=
  landed = true → posted = true ∧ fate = .executed

section

variable {fate : Fate} {posted : Bool}

/-- A delegation is answered with a success after it has been submitted, whatever its fate. -/
lemma delegateToValidator_posts {amount : String} {validator : Option String} :
    Meets (outcomeTruth fate) posted () (delegateToValidator cfg amount validator)
      fun posted' _ r => (posted = true → posted' = true) ∧ ∀ res, r = .ok res → posted' = true := by
  refine meets_ask_bind.2 ⟨(fun h => nomatch h), fun r _ => ?_⟩
  cases r with
  | error e => exact ⟨id, fun _ h => nomatch h⟩
  | ok json =>
    refine meets_ask_bind.2 ⟨(fun h => nomatch h), fun r _ => ?_⟩
    cases r with
    | error e => exact ⟨fun _ => rfl, fun _ h => nomatch h⟩
    | ok data =>
      have hrest : Stays (outcomeTruth fate) true (do
          let _ ← result (checkResponse data true)
          let hash ← result (transactionHash data)
          return ⟨(hash.field? "Version1").orElse (.str ""), .success⟩ : Submission ExecutionResult) :=
        Stays.bind (Stays.result _) fun _ => Stays.bind (Stays.result _) fun _ => Stays.pure _
      exact (hrest ()).mono fun _ _ _ h => ⟨fun _ => h, fun _ _ => h⟩

/-- A swap is answered with a success after it has been submitted, and not when the wait finds
it reverted. -/
lemma signAndSubmitSwap_posts {txJson : Value} :
    Meets (outcomeTruth fate) posted () (signAndSubmitSwap txJson) fun posted' _ r =>
      (posted = true → posted' = true) ∧
        ∀ res, r = .ok res → posted' = true ∧ (fate = .reverted → res.success = false) := by
  refine meets_ask_bind.2 ⟨(fun h => nomatch h), fun r _ => ?_⟩
  cases r with
  | error e => exact ⟨id, fun _ h => nomatch h⟩
  | ok keys =>
    refine Stays.meets_bind (Stays.result _) (fun _ hash => ?_) fun _ _ => ⟨id, fun _ h => nomatch h⟩
    refine Stays.meets_bind (Stays.result _) (fun _ payload => ?_) fun _ _ => ⟨id, fun _ h => nomatch h⟩
    refine meets_ask_bind.2 ⟨(fun h => nomatch h), fun r _ => ?_⟩
    cases r with
    | error e => exact ⟨id, fun _ h => nomatch h⟩
    | ok approval =>
      refine meets_ask_bind.2 ⟨(fun h => nomatch h), fun r _ => ?_⟩
      cases r with
      | error e => exact ⟨fun _ => rfl, fun _ h => nomatch h⟩
      | ok data =>
        refine Stays.meets_bind (Stays.result _) (fun _ _ => ?_) fun _ _ =>
          ⟨fun _ => rfl, fun _ h => nomatch h⟩
        refine Stays.meets_bind (Stays.result _) (fun _ hash => ?_) fun _ _ =>
          ⟨fun _ => rfl, fun _ h => nomatch h⟩
        refine meets_tryCatch.2 (meets_ask_bind.2 ⟨(fun h => nomatch h), fun r hr => ?_⟩)
        cases r with
        | error e =>
          -- an exhausted wait counts as a success, but a revert is always found
          refine ⟨fun _ => rfl, fun res hres => ⟨rfl, fun hfate => ?_⟩⟩
          subst hfate
          obtain ⟨v, hv, -⟩ := hr
          cases hv
        | ok v =>
          refine ⟨fun _ => rfl, fun res hres => ⟨rfl, fun hfate => ?_⟩⟩
          subst hfate
          obtain ⟨v', hv, hreports⟩ := hr
          cases hv
          cases hres
          exact hreports

/-- What a fate must be for what the executor reports to be true. -/
def Fate.SafeFor (fate : Fate) (cfg : Config) (p : StrategyProposal) : Prop :=
  fate = .executed ∨ (¬ Stakes cfg p ∧ (¬ Swaps p ∨ fate = .reverted))

/-- A success that is answered to the executor is one on chain. -/
lemma submission_truthful (hsafe : fate.SafeFor cfg p) {landed : Bool} {op : Op}
    (hlanded : Landed fate landed posted) (hallowed : (landing cfg p).allows landed op) :
    Program.Meets (outcomeTruth fate) posted (submission cfg op) fun posted' r =>
      (landing cfg p).expects landed op r ∧ Landed fate ((landing cfg p).next landed op r) posted' := by
  cases op with
  | delegateToValidator amount validator =>
    -- submitted for a stake only, for which no other fate is safe
    have hfate : fate = .executed := hsafe.resolve_right fun h => h.1 hallowed
    refine Program.meets_bind.2 (Program.Meets.mono delegateToValidator_posts ?_)
    rintro posted' ⟨r, ⟨⟩⟩ ⟨hkeep, hok⟩
    refine ⟨trivial, fun h => ?_⟩
    cases r with
    | error e => exact ⟨hkeep (hlanded h).1, hfate⟩
    | ok res => exact ⟨hok res rfl, hfate⟩
  | signAndSubmitSwap txJson =>
    refine Program.meets_bind.2 (Program.Meets.mono signAndSubmitSwap_posts ?_)
    rintro posted' ⟨r, ⟨⟩⟩ ⟨hkeep, hok⟩
    refine ⟨trivial, fun h => ?_⟩
    cases r with
    | error e => exact ⟨hkeep (hlanded h).1, (hlanded h).2⟩
    | ok res =>
      obtain ⟨hposted, hreverted⟩ := hok res rfl
      refine ⟨hposted, ?_⟩
      rcases hsafe with hfate | ⟨-, hswap | hfate⟩
      · exact hfate
      · exact absurd hallowed hswap
      · change (landed || res.success) = true at h
        rw [hreverted hfate, Bool.or_false] at h
        exact (hlanded h).2
  | _ => exact ⟨fun h => hlanded (hallowed h), fun r _ => ⟨trivial, hlanded⟩⟩

/-- For a safe fate, what the executor reports is true. -/
lemma truthful_of_safe (hsafe : fate.SafeFor cfg p) : Truthful cfg p fate := by
  have hop : ∀ (landed posted : Bool) (op : Op), Landed fate landed posted →
      (landing cfg p).allows landed op →
        Program.Meets (outcomeTruth fate) posted (submission cfg op) fun posted' r =>
          (landing cfg p).expects landed op r ∧
            Landed fate ((landing cfg p).next landed op r) posted' :=
    fun _ _ _ => submission_truthful hsafe
  exact (Program.meets_handle hop runExecutor_landing fun h => nomatch h).mono fun _ _ _ => trivial

/-! ### The reports of a success -/

/-- Whether the executor has treated the strategy as executed; until then its submissions are
answered with successes, except a swap that is found reverted. -/
def cheering (fate : Fate) : Monitor Op Ans Bool where
  allows := fun _ _ => True
  expects := fun cheered op r => cheered = false → match op, r with
    | .getAgentKeys, r => ∃ keys, r = .ok keys
    | .buildUnsignedDeploy _, r => ∃ fields, r = .ok (.obj fields)
    | .delegateToValidator _ _, r => ∃ hash, r = .ok ⟨hash, .success⟩
    | .signAndSubmitSwap (.obj _), r => fate ≠ .reverted → ∃ hash, r = .ok ⟨hash, true⟩
    | _, _ => True
  next := fun cheered op _ => op.celebrates || cheered

lemma cheering_true {L α : Type} {l : L} {x : Agent L α} :
    Meets (cheering fate) true l x fun cheered _ _ => cheered = true := by
  have hlatches : (cheering fate).Latches Op.celebrates := fun s op _ => Bool.or_comm _ s
  exact meets_of_latches hlatches fun _ => trivial

lemma openPosition_cheers {kind target : String} {openedTx : Value} {cheered : Bool}
    {vars : ExecutorVars} :
    Meets (cheering fate) cheered vars (openPosition p kind target openedTx)
      fun _ vars' r => vars' = vars ∧ r = .ok () := by
  refine meets_tryCatch.2 (meets_ask_bind.2 ⟨trivial, fun r _ => ?_⟩)
  cases r with
  | error e => exact ⟨rfl, rfl⟩
  | ok tx =>
    refine meets_ask_bind.2 ⟨trivial, fun _ _ => meets_ask.2 ⟨trivial, fun r _ => ?_⟩⟩
    cases r <;> exact ⟨rfl, rfl⟩

lemma stakePath_cheers {vars : ExecutorVars} (h : Stakes cfg p) :
    Meets (cheering fate) false vars (stakePath cfg p) fun _ vars r =>
      vars.outcome = .success ∧ r = .error ⟨"stake-handled"⟩ := by
  obtain ⟨-, -, n, hn, hmin⟩ := h
  refine meets_result_bind.2 ?_
  rw [hn]
  show Meets (cheering fate) false vars (if n < cfg.minStakeMotes then _ else _) _
  rw [if_neg (not_lt.2 hmin)]
  refine meets_ask_bind.2 ⟨trivial, fun r hr => ?_⟩
  obtain ⟨hash, rfl⟩ := hr rfl
  refine meets_bind.2 (meets_set.2 ?_)
  have hopen : ∀ {cheered : Bool} {vars : ExecutorVars}, Meets (cheering fate) cheered vars
      (openStakePosition p ⟨hash, .success⟩) fun _ vars' r => vars' = vars ∧ r = .ok () := by
    intro cheered vars
    rw [openStakePosition]
    split
    · exact openPosition_cheers
    · exact ⟨rfl, rfl⟩
  refine Meets.bind hopen ?_ fun _ _ _ h => nomatch h.2
  rintro cheered _ _ ⟨rfl, -⟩
  exact ⟨rfl, rfl⟩

lemma dexPath_cheers {vars : ExecutorVars} (h : Swaps p) (hfate : fate ≠ .reverted) :
    Meets (cheering fate) false vars (dexPath p keys) fun _ vars r =>
      vars.outcome = .success ∧ r = .ok () := by
  obtain ⟨-, -, n, hn⟩ := h
  refine meets_result_bind.2 ?_
  rw [hn]
  refine meets_ask_bind.2 ⟨trivial, fun r hr => ?_⟩
  obtain ⟨tx, rfl⟩ := hr rfl
  refine meets_ask_bind.2 ⟨trivial, fun r hr => ?_⟩
  obtain ⟨hash, rfl⟩ := hr rfl hfate
  refine meets_bind.2 (meets_set.2 ?_)
  refine openPosition_cheers.mono ?_
  rintro cheered _ _ ⟨rfl, rfl⟩
  exact ⟨rfl, rfl⟩

/-- Submissions that are answered with successes are reported as successes. -/
lemma runExecutor_cheers (h : Stakes cfg p ∨ (Swaps p ∧ fate ≠ .reverted)) :
    Meets (cheering fate) false () (runExecutor cfg p) fun cheered _ _ => cheered = true := by
  have hblock : ∀ keys, Meets (cheering fate) false ⟨.str "", .failed⟩ (strategyBlock cfg p keys)
      fun _ vars r => vars.outcome = .success ∧ (r = .error ⟨"stake-handled"⟩ ∨ r = .ok ()) := by
    intro keys
    rcases h with hstake | ⟨hswap, hfate⟩
    · rw [strategyBlock, hstake.1, hstake.2.1]
      exact (stakePath_cheers hstake).mono fun _ _ _ h => ⟨h.1, Or.inl h.2⟩
    · rw [strategyBlock, hswap.1, hswap.2.1]
      exact (dexPath_cheers hswap hfate).mono fun _ _ _ h => ⟨h.1, Or.inr h.2⟩
  have hsubmit : ∀ keys, Meets (cheering fate) false () (submitStrategy cfg p keys)
      fun _ _ r => ∃ vars, r = .ok vars ∧ vars.outcome = .success := by
    intro keys
    refine meets_bind.2 (meets_block.2 ((hblock keys).mono ?_))
    rintro cheered vars _ ⟨houtcome, rfl | rfl⟩
    · exact ⟨vars, rfl, houtcome⟩
    · exact ⟨vars, rfl, houtcome⟩
  refine meets_ask_bind.2 ⟨trivial, fun keys hkeys => ?_⟩
  obtain ⟨keys, rfl⟩ := hkeys rfl
  refine Meets.bind (hsubmit keys) ?_ fun _ _ _ h => nomatch h
  rintro cheered l vars ⟨_, ⟨⟩, houtcome⟩
  have hguard : Meets (cheering fate) cheered l (updateRiskGuard p vars.outcome)
      fun cheered _ _ => cheered = true := by
    rw [houtcome]
    refine meets_tryCatch.2 (meets_ask_bind.2 ⟨trivial, fun _ _ => ?_⟩)
    refine cheering_true.mono ?_
    rintro _ l r rfl
    cases r with
    | ok _ => rfl
    | error e => rfl
  refine Meets.bind hguard ?_ fun _ _ _ h => h
  rintro _ l _ rfl
  exact cheering_true

/-- A node that accepts every transaction, with an honest wait. -/
def acceptingNode (fate : Fate) : (op : ChainOp) → ChainAns op
  | .agent op => openMarket op
  | .signDelegate _ _ => .ok (.obj [])
  | .signTransactionV1 _ _ => .ok ⟨"", ""⟩
  | .accountPutTransaction _ => .ok (.obj [("result", .obj [])])
  | .waitForTransaction _ => match fate with
    | .reverted => .ok (.obj [])
    | _ => .error ⟨"Timeout"⟩

lemma acceptingNode_honest (op : ChainOp) (hfate : fate ≠ .executed) :
    fate.Honest op (acceptingNode fate op) := by
  cases op with
  | waitForTransaction hash =>
    cases fate with
    | executed => exact absurd rfl hfate
    | reverted => exact ⟨_, rfl, rfl⟩
    | pending => exact ⟨_, rfl⟩
  | _ => trivial

/-- Whether a strategy has been treated as executed, against an accepting node. -/
def applause (fate : Fate) : Monitor ChainOp ChainAns Bool where
  allows := fun _ _ => True
  expects := fun _ op r => r = acceptingNode fate op
  next := fun cheered op _ => op.celebrates || cheered

lemma signAndSubmitSwap_stays {cheered : Bool} {txJson : Value} :
    Stays (applause fate) cheered (signAndSubmitSwap txJson) := by
  refine Stays.bind (Stays.ask trivial fun r => rfl) fun _ => ?_
  refine Stays.bind (Stays.result _) fun hash => Stays.bind (Stays.result _) fun payload => ?_
  refine Stays.bind (Stays.ask trivial fun r => rfl) fun approval => ?_
  refine Stays.bind (Stays.ask trivial fun r => rfl) fun data => ?_
  refine Stays.bind (Stays.result _) fun _ => Stays.bind (Stays.result _) fun hash => ?_
  refine Stays.tryCatch (Stays.bind (Stays.ask trivial fun r => rfl) fun r => ?_) fun e => ?_
  · exact Stays.pure _
  · exact Stays.pure _

lemma signAndSubmitSwap_accepted {cheered : Bool} {fields : List (String × Value)}
    (hfate : fate ≠ .reverted) :
    Meets (applause fate) cheered () (signAndSubmitSwap (.obj fields)) fun cheered' _ r =>
      cheered' = cheered ∧ ∃ hash, r = .ok ⟨hash, true⟩ := by
  refine meets_ask_bind.2 ⟨trivial, ?_⟩
  rintro r rfl
  refine meets_result_bind.2 (meets_result_bind.2 ?_)
  refine meets_ask_bind.2 ⟨trivial, ?_⟩
  rintro r rfl
  refine meets_ask_bind.2 ⟨trivial, ?_⟩
  rintro r rfl
  refine meets_result_bind.2 (meets_result_bind.2 ?_)
  refine meets_tryCatch.2 (meets_ask_bind.2 ⟨trivial, ?_⟩)
  rintro r rfl
  cases fate with
  | reverted => exact absurd rfl hfate
  | _ => exact ⟨rfl, _, rfl⟩

lemma submission_accepted (cheered : Bool) (op : Op) :
    Program.Meets (applause fate) cheered (submission cfg op) fun cheered' r =>
      (cheering fate).expects cheered op r ∧ (cheering fate).next cheered op r = cheered' := by
  cases op with
  | delegateToValidator amount validator =>
    refine ⟨trivial, ?_⟩
    rintro r rfl
    refine ⟨trivial, ?_⟩
    rintro r rfl
    exact ⟨fun _ => ⟨_, rfl⟩, rfl⟩
  | signAndSubmitSwap txJson =>
    have hstays : (∀ fields, txJson = .obj fields → fate = .reverted) →
        Program.Meets (applause fate) cheered (submission cfg (.signAndSubmitSwap txJson))
          fun cheered' r => (cheering fate).expects cheered (.signAndSubmitSwap txJson) r ∧
            (cheering fate).next cheered (.signAndSubmitSwap txJson) r = cheered' := by
      intro hfate
      refine Program.meets_bind.2 (Program.Meets.mono (signAndSubmitSwap_stays ()) ?_)
      rintro _ ⟨r, ⟨⟩⟩ rfl
      refine ⟨fun _ => ?_, rfl⟩
      cases txJson with
      | obj fields => exact fun h => absurd (hfate fields rfl) h
      | _ => trivial
    by_cases hfate : fate = .reverted
    · exact hstays fun _ _ => hfate
    · cases txJson with
      | obj fields =>
        refine Program.meets_bind.2 (Program.Meets.mono (signAndSubmitSwap_accepted hfate) ?_)
        rintro _ ⟨r, ⟨⟩⟩ ⟨rfl, hr⟩
        exact ⟨fun _ _ => hr, rfl⟩
      | _ => exact hstays fun _ h => nomatch h
  | getAgentKeys =>
    refine ⟨trivial, ?_⟩
    rintro r rfl
    exact ⟨fun _ => ⟨_, rfl⟩, rfl⟩
  | buildUnsignedDeploy params =>
    refine ⟨trivial, ?_⟩
    rintro r rfl
    exact ⟨fun _ => ⟨_, rfl⟩, rfl⟩
  | _ => exact ⟨trivial, fun r _ => ⟨fun _ => trivial, rfl⟩⟩

lemma applause_latches : (applause fate).Latches ChainOp.celebrates :=
  fun s _ _ => Bool.or_comm _ s

/-- For a fate that is not safe, an accepting node makes the executor report what is not true. -/
lemma safe_of_truthful (h : Truthful cfg p fate) : fate.SafeFor cfg p := by
  by_contra hsafe
  rw [Fate.SafeFor, not_or, not_and_or, not_not, not_or, not_not] at hsafe
  obtain ⟨hfate, hsubmits⟩ := hsafe
  have hop : ∀ (s s' : Bool) (op : Op), s = s' → (cheering fate).allows s op →
      Program.Meets (applause fate) s' (submission cfg op) fun cheered' r =>
        (cheering fate).expects s op r ∧ (cheering fate).next s op r = cheered' := by
    rintro s _ op rfl -
    exact submission_accepted s op
  -- played against the accepting node, the executor cheers in the end
  have hcheers := Program.meets_handle hop (runExecutor_cheers hsubmits) rfl
  have hanswer : ∀ (s : Bool) (x : Unit) (op : ChainOp), True → (applause fate).allows s op →
      (applause fate).expects s op (acceptingNode fate op) ∧ True :=
    fun _ _ _ _ _ => ⟨rfl, trivial⟩
  have hplayed : ∀ e ∈ (Program.play (fun x op => (acceptingNode fate op, x)) ()
      (executeOnChain cfg p)).1, ∃ s, (outcomeTruth fate).allows s e.op :=
    h.play_allows fun s x op _ => acceptingNode_honest op hfate
  have hcheered : ∃ t, t = (Program.play (fun x op => (acceptingNode fate op, x)) ()
      (executeOnChain cfg p)).1.foldl (fun s e => (applause fate).next s e.op e.ans) false ∧
        t = true :=
    hcheers.play hanswer trivial
  obtain ⟨t, ht, rfl⟩ := hcheered
  rw [Program.foldl_of_latches applause_latches, Bool.false_or, eq_comm, List.any_eq_true] at ht
  -- the call that made it cheer is one that the truth does not allow
  obtain ⟨e, he, hcelebrates⟩ := ht
  obtain ⟨s, hs⟩ := hplayed e he
  exact hfate (hs hcelebrates).2

end

/-- The executor treats a strategy as executed only if it has been, whatever honest answers it
gets, exactly if its transaction is executed, or none is submitted, or it is a swap
that the wait finds reverted. -/
theorem truthful_iff (cfg : Config) (p : StrategyProposal) (fate : Fate) :
    Truthful cfg p fate ↔
      fate = .executed ∨ (¬ Stakes cfg p ∧ (¬ Swaps p ∨ fate = .reverted)) :=
  ⟨safe_of_truthful, truthful_of_safe⟩

end

/-- A stake of 500 CSPR. -/
def stakeProposal : StrategyProposal where
  action := .str "stake"
  pair := "CSPR/staked"
  tokenIn := "CSPR"
  tokenOut := .str "CSPR"
  amountIn := "500000000000"
  minAmountOut := .str "0"
  rationale := .str "[FORCED STAKE] Native delegate via Casper 2.0 auction (~7-9% APY, 7d unbond)"
  confidence := .num (.finite 60)
  x402Proof := none
  revenueEvent := ⟨.finite 0, "500000000000", "0", "parking-lot-demo", "0", "demo-ref-001"⟩
  validatorPubKey := some (fallbackTestnetValidators.headD "")

/-- A delegation that the node accepts and that then reverts is reported as a success. -/
theorem reverted_stake_is_reported :
    ¬ ∀ (cfg : Config) (p : StrategyProposal) (fate : Fate), Truthful cfg p fate := by
  intro h
  have hstakes : Stakes plainConfig stakeProposal := by
    refine ⟨rfl, rfl, 500000000000, rfl, ?_⟩
    rfl
  rcases safe_of_truthful (h plainConfig stakeProposal .reverted) with hfate | ⟨hno, -⟩
  · cases hfate
  · exact hno hstakes

end ArwaAgent
