import ArwaAgent.Agent.FundWorld
import ArwaAgent.Js.Integers
import ArwaAgent.Lib.Settlement

/-!
# What the jobs move

Every submission of a job brings something to a contract, and the record that follows it
counts as much in the cache.  For a position the two are not the same counter: it brings
motes that are not in custody, and they are counted as if they were.  With the motes of the
positions next to those in custody, every job moves both sides by the same amount, however
its calls are answered (`code_settles`).
-/

namespace ArwaAgent

open Js Effects Effects.Code

/-- Motes in custody, positions, and the active and total motes of the stakeholders. -/
abbrev FundTally : Type := ℤ × ℤ × ℤ × ℤ

/-- The integer that a decimal string stands for. -/
def motesOf (motes : String) : ℤ := (Value.bigIntOfString motes).toOption.getD 0

/-- What a record adds to the counters of the cache. -/
def FundRecord.counts (r : FundRecord) : FundTally :=
  match r.parse with
  | .ok (.custodianDeposit m) => (m, 0, 0, 0)
  | .ok .positionOpened => (0, 1, 0, 0)
  | .ok (.stakeholderDeposit amount _) => (0, 0, amount, amount)
  | _ => 0

/-- The records that only add to the counters. -/
def FundRecord.adds : FundRecord → Prop
  | .custodianDeposit _ | .positionOpened | .stakeholderDeposit _ _ => True
  | _ => False

namespace FundOp

/-- What a submission brings to the contracts; the motes of a position count with those in
custody. -/
def brings : FundOp → FundTally
  | .depositForStrategy amountMotes _ => (motesOf amountMotes, 0, 0, 0)
  | .recordStrategyExecution _ _ amountMotes _ => (motesOf amountMotes, 1, 0, 0)
  | .putDeposit args => (0, 0, args.amount, args.amount)
  | _ => 0

/-- What an answered call moves: the contracts up, or the cache. -/
def moves (op : FundOp) (r : FundAns op) : FundTally :=
  (if op.acknowledged r then op.brings else 0) - match op with
    | .record _ r => r.counts
    | _ => 0

/-- Of the records, only those that add are made. -/
def adds : FundOp → Prop
  | .record _ r => r.adds
  | _ => True

end FundOp

/-! ### Every job moves both sides by the same amount -/

section

variable {cfg : Config} {p : ℕ} {s : FundTally}

/-- The calls of a process, and what they move. -/
abbrev fundMoves : Monitor FundOp FundAns FundTally := .adding FundOp.adds FundOp.moves

lemma stays_fund_ask {α : Type} {op : FundOp} {read : FundAns op → Except Error α}
    (hadds : op.adds) (hmoves : ∀ r, op.moves r = 0) :
    Stays fundMoves s (ask op read : Fund α) :=
  Stays.ask hadds fun r => by
    show s + op.moves r = s
    rw [hmoves, add_zero]

lemma counts_positionOpened : FundRecord.positionOpened.counts = (0, 1, 0, 0) := rfl

lemma counts_custodianDeposit (motes : String) :
    (FundRecord.custodianDeposit motes).counts = (motesOf motes, 0, 0, 0) := by
  rw [FundRecord.counts, FundRecord.parse, motesOf]
  cases Value.bigIntOfString motes <;> rfl

lemma counts_stakeholderDeposit (amount : ℤ) :
    (FundRecord.stakeholderDeposit (toString amount) "0").counts = (0, 0, amount, amount) := by
  have hzero : Value.bigIntOfString "0" = .ok 0 := rfl
  rw [FundRecord.counts, FundRecord.parse, bigIntOfString_toString, hzero]
  rfl

lemma moves_record (rec : FundRecord) (r : FundAns (.record p rec)) :
    (FundOp.record p rec).moves r = -rec.counts :=
  zero_sub _

lemma moves_of_acknowledged {op : FundOp} {r : FundAns op} (h : op.acknowledged r = true) :
    op.moves r = op.brings := by
  cases op with
  | record p rec => cases h
  | _ => exact (congrArg (· - (0 : FundTally)) (if_pos h)).trans (sub_zero _)

lemma moves_of_not_acknowledged (op : FundOp) (hrecord : ∀ p rec, op ≠ .record p rec)
    {r : FundAns op} (h : op.acknowledged r = false) : op.moves r = 0 := by
  have hbrings : (if op.acknowledged r then op.brings else 0) = 0 := if_neg (by simp [h])
  cases op with
  | record p rec => exact absurd rfl (hrecord p rec)
  | _ => exact (congrArg (· - (0 : FundTally)) hbrings).trans (sub_zero _)

/-- What a submission brings, and the record that counts it. -/
lemma settles (op : FundOp) {r : FundAns op} (h : op.acknowledged r = true) {rec : FundRecord}
    (hcounts : rec.counts = op.brings) (r' : FundAns (.record p rec)) :
    fundMoves.next (fundMoves.next s op r) (.record p rec) r' = s := by
  show s + op.moves r + (FundOp.record p rec).moves r' = s
  rw [moves_of_acknowledged h, moves_record, hcounts, add_neg_cancel_right]

lemma acknowledged_putDeposit {args : DepositArgs} {data error : Value}
    (h : data.field "error" = .ok error) :
    (FundOp.putDeposit args).acknowledged (.ok data) = !error.truthy := by
  simp only [FundOp.acknowledged, h]

lemma acknowledged_putDeposit_of_error {args : DepositArgs} {data : Value} {e : Error}
    (h : data.field "error" = .error e) :
    (FundOp.putDeposit args).acknowledged (.ok data) = false := by
  simp only [FundOp.acknowledged, h]

/-- A deposit that the node has accepted is counted. -/
lemma triggerDeposit_stays : Stays fundMoves s (triggerDeposit p) := by
  refine Stays.bind (stays_fund_ask trivial fun r => rfl) fun sh => ?_
  refine Stays.bind (stays_fund_ask trivial fun r => rfl) fun random => ?_
  refine Stays.bind (Stays.result _) fun amount => ?_
  refine Stays.bind (stays_fund_ask trivial fun r => rfl) fun nonce => ?_
  refine Stays.tryCatch (fun l => ?_) fun e => Stays.pure _
  refine meets_ask_bind.2 ⟨trivial, fun r _ => ?_⟩
  cases r with
  | error e => exact add_zero s
  | ok data =>
    refine meets_result_bind.2 ?_
    cases herror : data.field "error" with
    | error e =>
      have hnot := fun args => @acknowledged_putDeposit_of_error args _ _ herror
      show s + _ = s
      rw [moves_of_not_acknowledged (.putDeposit _) nofun (hnot _), add_zero]
    | ok error =>
      have hack := fun args => @acknowledged_putDeposit args _ _ herror
      show Meets fundMoves _ l (if error.truthy then _ else _) _
      by_cases htruthy : error.truthy = true
      · rw [if_pos htruthy]
        show s + _ = s
        rw [moves_of_not_acknowledged (.putDeposit _) nofun (by rw [hack, htruthy]; rfl), add_zero]
      · -- the response has other fields too, so that nothing throws before the record
        obtain ⟨answer, hanswer⟩ := Value.exists_field herror "result"
        rw [if_neg htruthy, hanswer]
        refine meets_result_bind.2 (meets_bind.2 (meets_tryCatch.2 (meets_ask.2 ⟨trivial, ?_⟩)))
        intro r' _
        rw [settles (.putDeposit _) (by rw [hack]; simpa using htruthy)
          (counts_stakeholderDeposit _)]
        cases r' <;> rfl

lemma demoBootstrap_stays : Stays fundMoves s (demoBootstrap p) := by
  refine Stays.bind (stays_fund_ask trivial fun r => rfl) fun _ => ?_
  refine Stays.bind (stays_fund_ask trivial fun r => rfl) fun _ => ?_
  refine Stays.bind (stays_fund_ask trivial fun r => rfl) fun _ => fun l => ?_
  refine meets_ask_bind.2 ⟨trivial, fun r _ => ?_⟩
  cases r with
  | error e => exact add_zero s
  | ok hash =>
    refine meets_ask_bind.2 ⟨trivial, fun r' _ => ?_⟩
    rw [settles (.depositForStrategy _ _) rfl (counts_custodianDeposit _)]
    cases r' with
    | error e => rfl
    | ok _ =>
      have hread : Stays fundMoves s (ask .getCustodiedCspr id : Fund String) :=
        stays_fund_ask trivial fun r => rfl
      exact Stays.bind hread (fun _ => Stays.pure _) l

/-- What the calls of an executor move. -/
def agentMoves : (op : Op) → Ans op → FundTally
  | .recordStrategyExecution kind target amountMotes openedTx, r =>
    (FundOp.recordStrategyExecution kind target amountMotes openedTx).moves r
  | .recordPositionOpened, _ => -FundRecord.positionOpened.counts
  | .recordCustodianDeposit motes, _ => -(FundRecord.custodianDeposit motes).counts
  | _, _ => 0

/-- The calls of an executor, and what they move. -/
abbrev executorMoves : Monitor Op Ans FundTally := .adding (fun _ => True) agentMoves

lemma stays_executor_ask {L α : Type} {op : Op} {read : Ans op → Except Error α}
    (hmoves : ∀ r, agentMoves op r = 0) :
    Stays executorMoves s (ask op read : Agent L α) :=
  Stays.ask trivial fun r => by
    show s + agentMoves op r = s
    rw [hmoves, add_zero]

section

variable {proposal : StrategyProposal} {keys : AgentKeys}

/-- A position is counted with its motes once the node has accepted it. -/
lemma openPosition_settles {kind target : String} {openedTx : Value} :
    Stays executorMoves s (openPosition proposal kind target openedTx) := by
  refine Stays.tryCatch (fun l => ?_) fun e => Stays.pure _
  refine meets_ask_bind.2 ⟨trivial, fun r _ => ?_⟩
  cases r with
  | error e => exact add_zero s
  | ok tx =>
    refine meets_ask_bind.2 ⟨trivial, fun _ _ => meets_ask.2 ⟨trivial, fun r _ => ?_⟩⟩
    show s + FundOp.moves (.recordStrategyExecution kind target proposal.amountIn openedTx)
      (.ok tx) + -FundRecord.positionOpened.counts +
        -(FundRecord.custodianDeposit proposal.amountIn).counts = s
    rw [moves_of_acknowledged rfl, counts_positionOpened, counts_custodianDeposit]
    simp [FundOp.brings, add_assoc]

lemma stakePath_settles : Stays executorMoves s (stakePath cfg proposal) := by
  refine Stays.bind (Stays.result _) fun amountBig => ?_
  split
  · exact Stays.throw _
  · refine Stays.bind (stays_executor_ask fun r => rfl) fun r => ?_
    refine Stays.bind (fun l => rfl) fun _ => Stays.bind ?_ fun _ => Stays.throw _
    rw [openStakePosition]
    split
    · exact openPosition_settles
    · exact Stays.pure _

lemma dexPath_settles : Stays executorMoves s (dexPath proposal keys) := by
  refine Stays.bind (Stays.result _) fun amount => ?_
  refine Stays.bind (stays_executor_ask fun r => rfl) fun unsigned => ?_
  refine Stays.bind (stays_executor_ask fun r => rfl) fun r => ?_
  refine Stays.bind (fun l => rfl) fun _ => ?_
  split
  · exact openPosition_settles
  · exact Stays.pure _

lemma strategyBlock_settles : Stays executorMoves s (strategyBlock cfg proposal keys) := by
  rw [strategyBlock]
  split
  · refine Stays.bind (stays_executor_ask fun r => rfl) fun now => ?_
    exact Stays.bind (fun l => rfl) fun _ => Stays.throw _
  · split
    · exact stakePath_settles
    · exact dexPath_settles

lemma submitStrategy_settles : Stays executorMoves s (submitStrategy cfg proposal keys) := by
  refine Stays.bind (fun l => meets_block.2 (strategyBlock_settles _)) fun r => ?_
  obtain ⟨r, vars⟩ := r
  cases r with
  | ok _ => exact Stays.pure _
  | error e =>
    show Stays executorMoves s (if _ then pure vars else _)
    split
    · exact Stays.pure _
    · exact Stays.bind (stays_executor_ask fun r => rfl) fun now => Stays.pure _

lemma updateRiskGuard_settles {outcome : LocalOutcome} :
    Stays executorMoves s (updateRiskGuard proposal outcome) := by
  refine Stays.tryCatch ?_ fun e => Stays.pure _
  refine Stays.bind (stays_executor_ask fun r => rfl) fun _ => ?_
  split
  · exact stays_executor_ask fun r => rfl
  · exact Stays.pure _

/-- An executor owes nothing in the end, however its calls are answered. -/
lemma runExecutor_settles : Stays executorMoves s (runExecutor cfg proposal) := by
  refine Stays.bind (stays_executor_ask fun r => rfl) fun keys => ?_
  refine Stays.bind submitStrategy_settles fun vars => ?_
  refine Stays.bind updateRiskGuard_settles fun _ => Stays.bind ?_ fun _ => Stays.pure _
  refine Stays.bind (Stays.result _) fun settle => ?_
  exact Stays.tryCatch (stays_executor_ask fun r => rfl) fun e => Stays.pure _

lemma fundOp_moves (op : Op) :
    Program.Meets fundMoves s (fundOp p op) fun s' r => s + agentMoves op r = s' := by
  have hagent : ∀ (op : Op) (r : Ans op), (FundOp.agent op).moves r = 0 := fun op r => rfl
  cases op with
  | recordPositionOpened =>
    refine ⟨trivial, fun r _ => ?_⟩
    show s + _ = s + _
    rw [moves_record]
    rfl
  | recordCustodianDeposit motes =>
    refine ⟨trivial, fun r _ => ?_⟩
    show s + _ = s + _
    rw [moves_record]
    rfl
  | recordStrategyExecution kind target amountMotes openedTx =>
    exact ⟨trivial, fun r _ => rfl⟩
  | _ => exact ⟨trivial, fun r _ => congrArg (s + ·) (hagent _ _).symm⟩

end

/-- Every job moves the contracts and the cache by the same amount, however its calls are
answered. -/
lemma code_settles (j : FundJob) :
    (j.code cfg).Meets fundMoves 0 fun s _ => s = 0 := by
  cases j with
  | execute p proposal =>
    refine Program.meets_bind.2 (Program.Meets.mono (Program.meets_handle (R := Eq) ?_
      (runExecutor_settles ()) rfl) ?_)
    · rintro s _ op rfl -
      exact (fundOp_moves op).mono fun s' r h => ⟨trivial, h⟩
    · rintro _ r ⟨s, rfl, hs⟩
      exact hs
  | simulate p => exact Program.meets_bind.2 (triggerDeposit_stays ())
  | bootstrap p => exact Program.meets_bind.2 (demoBootstrap_stays ())
  | getFundState p => exact ⟨trivial, fun _ _ => rfl⟩

end

end ArwaAgent
