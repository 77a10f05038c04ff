import ArwaAgent.Agent.Executor
import ArwaAgent.Js.Json
import ArwaAgent.Lib.Handler

/-!
# The client of the exchange

The exchange is reached through the tools of an MCP server: a call names a tool and hands it
an object of arguments, and the answer is taken apart by `parseResult`, which accepts
structured content, a JSON text, or a text around a transaction.
-/

namespace ArwaAgent

open Js Effects Effects.Code

/-- The calls of code that uses the tools of the exchange. -/
inductive ToolOp
  | agent (op : Op)
  | getCsprTradeMcp
  | callTool (name : String) (arguments : Value)

/-- What a call is answered with: connecting and the tools may throw. -/
@[reducible] def ToolAns : ToolOp → Type
  | .agent op => Ans op
  | .getCsprTradeMcp => Except Error Unit
  | .callTool _ _ => Except Error Value

/-- Code that uses the tools. -/
abbrev Tools (α : Type) : Type :=
  Code ToolOp ToolAns Error Unit α

/-- What follows the first occurrence of a text. -/
def afterFirst (t : List Char) : List Char → Option (List Char)
  | [] => if t = [] then some [] else none
  | c :: s => if t.isPrefixOf (c :: s) then some ((c :: s).drop t.length) else afterFirst t s

/-- `s.includes(t)` -/
def includes (s t : String) : Bool :=
  (afterFirst t.toList s.toList).isSome

/-- `s.match(/\{[\s\S]*"hash"[\s\S]*"payload"[\s\S]*\}/)`: the match goes from the first opening
to the last closing brace, and has both names in this order in between. -/
def matchTransaction (s : String) : Option String :=
  let fromBrace := s.toList.dropWhile fun c => c ≠ '{'
  let text := (fromBrace.reverse.dropWhile fun c => c ≠ '}').reverse
  let inside := text.tail.dropLast
  if (((afterFirst "\"hash\"".toList inside).bind (afterFirst "\"payload\"".toList)).isSome) then
    some (String.ofList text)
  else none

/-- What a text says: JSON, an error, a transaction inside of it, or only itself. -/
def readText (text : String) : Value :=
  match Json.parse text with
  | some v => v
  | none =>
    if includes text "Validation error" || includes text "error:" then .obj [("error", .str text)]
    else ((matchTransaction text).bind Json.parse).getD (.str text)

/-- What the first text of a list of contents says. -/
def readContents : List Value → Except Error (Option Value)
  | [] => return none
  | c :: cs => do
    let type ← c.field "type"
    match type.is "text", c.ownField "text" with
    | true, .str text => return some (readText text)
    | _, _ => readContents cs

/-- The answer of a tool. -/
def parseResult (res : Value) : Except Error Value :=
  let structured := res.field? "structuredContent"
  if structured.truthy then .ok structured
  else match res.field? "content" with
    | .arr contents => do return (← readContents contents).getD res
    | _ => .ok res

/-- The tool that builds the transaction of an action. -/
def buildTool (action : Value) : Except Error String := do
  if action.is "swap" then return "build_swap" else return s!"build_{← action.toStr}"

/-- The arguments of the tool. -/
def buildArguments (params : BuildParams) : Value :=
  .obj [("token_in", .str params.tokenIn), ("token_out", params.tokenOut),
    ("amount", .str params.amountIn), ("type", .str "exact_in"),
    ("min_amount_out", params.minAmountOut), ("sender_public_key", .str params.payerAddress),
    ("slippage_tolerance_bps", .num (.finite 50))]

/-- Ask the exchange for the unsigned transaction of a swap or a liquidity action. -/
def buildUnsignedDeploy (params : BuildParams) : Tools Value := do
  ask .getCsprTradeMcp id
  let toolName ← result (buildTool params.action)
  let res ← ask (.callTool toolName (buildArguments params)) id
  let parsed ← result (parseResult res)
  match parsed with
  | .str text => throw ⟨s!"CSPR.trade MCP error: {text}"⟩
  | parsed =>
    let error := parsed.field? "error"
    if error.truthy then throw ⟨s!"CSPR.trade MCP error: {← result error.toStr}"⟩
    else return parsed

/-- What implements a call of the executor. -/
def exchange : (op : Op) → Program ToolOp ToolAns (Ans op)
  | .buildUnsignedDeploy params => (buildUnsignedDeploy params).toProgram () >>= fun r => .done r.1
  | op => .call (.agent op) .done

/-- The executor, with its client of the exchange. -/
def executeOnExchange (cfg : Config) (p : StrategyProposal) :
    Program ToolOp ToolAns (Except Error ExecutorResult × Unit) :=
  ((runExecutor cfg p).toProgram ()).handle exchange

end ArwaAgent
