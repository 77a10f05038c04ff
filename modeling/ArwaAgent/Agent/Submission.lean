import ArwaAgent.Agent.Executor
import ArwaAgent.Lib.Handler

/-!
# Submitting a transaction

How a delegation and a swap reach the chain.  Both are signed locally and posted to a
node; only the swap waits for its execution.  The signing functions of the SDK, the node
and the wait are the calls here, and `Fate` says what the wait may answer: the rest of
the executor calls what it called before.
-/

namespace ArwaAgent

open Js Effects Effects.Code

/-- The signature that the SDK adds to a transaction. -/
structure Approval where
  signer : String
  signature : String

/-- The calls of an executor that submits its transactions itself. -/
inductive ChainOp
  | agent (op : Op)
  | signDelegate (amountMotes validatorPubKeyHex : String)
  | signTransactionV1 (hash payload : Value)
  | accountPutTransaction (transaction : Value)
  | waitForTransaction (hash : Value)

/-- What a call is answered with: the signing functions may throw, the post answers the body of
the response, the wait what it has found. -/
@[reducible] def ChainAns : ChainOp → Type
  | .agent op => Ans op
  | .signDelegate _ _ => Except Error Value
  | .signTransactionV1 _ _ => Except Error Approval
  | .accountPutTransaction _ => Except Error Value
  | .waitForTransaction _ => Except Error Value

/-- Code that submits transactions. -/
abbrev Submission (α : Type) : Type :=
  Code ChainOp ChainAns Error Unit α

/-- `data.result?.transaction_hash` -/
def transactionHash (data : Value) : Except Error Value := do
  return (← data.field "result").field? "transaction_hash"

/-- The error that the node has answered, as it is thrown; `withData` adds its data. -/
def rpcError (error : Value) (withData : Bool) : Except Error Error := do
  let message ← (← error.field "message").toStr
  if withData then
    let extra ← (← error.field "data").toStr
    return ⟨s!"RPC error: {message}: {extra}"⟩
  else return ⟨s!"RPC error: {message}"⟩

/-- Throw the error in a response, if there is one. -/
def checkResponse (data : Value) (withData : Bool) : Except Error Unit := do
  let error ← data.field "error"
  if error.truthy then throw (← rpcError error withData)

/-- Delegate motes to a validator: the answer is a success as soon as the node has accepted the
transaction. -/
def delegateToValidator (cfg : Config) (amountMotes : String)
    (validatorPubKeyHex : Option String) : Submission ExecutionResult := do
  let target := (validatorPubKeyHex.or cfg.stakingValidatorPubkey).getD
    (fallbackTestnetValidators.headD "")
  let json ← ask (.signDelegate amountMotes target) id
  let data ← ask (.accountPutTransaction json) id
  let _ ← result (checkResponse data true)
  let hash ← result (transactionHash data)
  return ⟨(hash.field? "Version1").orElse (.str ""), .success⟩

/-- `{ ...txJson, approvals }`; only an object has a hash to sign. -/
def withApprovals (txJson : Value) (approvals : Value) : Value :=
  match txJson with
  | .obj fields => .obj (("approvals", approvals) :: fields.filter (·.1 ≠ "approvals"))
  | _ => .obj [("approvals", approvals)]

/-- Whether a result of the wait reports a success, in either spelling of its fields. -/
def reportsSuccess (r : Value) : Bool :=
  ((((((r.field? "execution_results").index? 0).field? "result").field? "Success").orElse
    ((((r.field? "executionResults").index? 0).field? "result").field? "Success"))).truthy

/-- Sign a transaction of the exchange, submit it, and wait for its execution; an exception
of the wait counts as a success. -/
def signAndSubmitSwap (txJson : Value) : Submission SwapResult := do
  let _ ← ask (.agent .getAgentKeys) id
  let hash ← result (txJson.field "hash")
  let payload ← result (txJson.field "payload")
  let approval ← ask (.signTransactionV1 hash payload) id
  let data ← ask (.accountPutTransaction (withApprovals txJson (.arr [.obj
    [("signer", .str approval.signer), ("signature", .str approval.signature)]]))) id
  let _ ← result (checkResponse data false)
  let hash ← result (transactionHash data)
  let resultHash := ((hash.field? "Version1").or hash).or (.str "")
  tryCatch (do
      let r ← ask (.waitForTransaction resultHash) id
      return ⟨resultHash, reportsSuccess r⟩)
    fun _ => pure ⟨resultHash, true⟩

/-- What implements a call of the executor. -/
def submission (cfg : Config) : (op : Op) → Program ChainOp ChainAns (Ans op)
  | .delegateToValidator amount validator =>
    (delegateToValidator cfg amount (some validator)).toProgram () >>= fun r => .done r.1
  | .signAndSubmitSwap txJson => (signAndSubmitSwap txJson).toProgram () >>= fun r => .done r.1
  | op => .call (.agent op) .done

/-- The executor, with the submission of its transactions. -/
def executeOnChain (cfg : Config) (p : StrategyProposal) :
    Program ChainOp ChainAns (Except Error ExecutorResult × Unit) :=
  ((runExecutor cfg p).toProgram ()).handle (submission cfg)

end ArwaAgent
