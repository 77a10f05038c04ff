import Mathlib.Data.List.Sort
import ArwaAgent.Agent.Exchange
import ArwaAgent.Js.Order

/-!
# Selecting a pair

The pairs of the exchange with CSPR on one side are asked about one by one: a quote, an analysis
and the details.  What may be swapped safely is ranked, staked CSPR first and then by the fees
that liquidity earns.
-/

namespace ArwaAgent

open Js Effects Effects.Code

/-- What the first text of a list of contents says, as JSON if it is some. -/
def textContent : List Value → Except Error (Option Value)
  | [] => return none
  | c :: cs => do
    let type ← c.field "type"
    match type.is "text", c.ownField "text" with
    | true, .str text => return some ((Json.parse text).getD (.str text))
    | _, _ => textContent cs

/-- The answer of a tool, for the selection. -/
def parseToolResult (res : Value) : Except Error Value :=
  let structured := res.field? "structuredContent"
  if structured.truthy then .ok structured
  else match res.field? "content" with
    | .arr contents => do return (← textContent contents).getD res
    | _ => .ok res

/-- A pair that has been asked about; what the exchange says of it is kept as it is. -/
structure PairCandidate where
  pair : String
  tokenIn : String
  tokenOut : Value
  contractPackageHash : Value
  reservesIn : String
  reservesOut : String
  feeBps : Number
  estimatedPriceImpact : Value
  recommendation : Value
  yieldApy : Number
  reason : String

structure PairSelection where
  selected : Option PairCandidate
  candidates : List PairCandidate
  evaluatedAt : ℕ

/-- The input of the selection that it uses. -/
structure SelectPairInput where
  amountInMotes : String
  maxPriceImpactPct : Option Number
  excludedPairs : Option (List String)

namespace SelectPairInput

def maxImpact (input : SelectPairInput) : Number :=
  input.maxPriceImpactPct.getD (.finite 1)

def excluded (input : SelectPairInput) : List String :=
  input.excludedPairs.getD []

end SelectPairInput

def STAKED_CSPR : String := "sCSPR"

/-- The fees of a year, in percent of the reserves, if the reserves are traded once a day. -/
def estimateFeeApy (reservesInMotes : ℤ) (feeBps : Number) : Except Error Number :=
  if reservesInMotes = 0 then .ok (.finite 0)
  else do
    let dailyFees := (reservesInMotes * (← (Value.num feeBps).toBigInt)).tdiv 10000
    let annualFees := dailyFees * 365
    let apyBps := (annualFees * 10000).tdiv reservesInMotes
    return (Number.round apyBps).div (.finite 100)

/-- A tool that does not answer has said nothing. -/
def callToolSafe (name : String) (args : Value) : Tools Value :=
  tryCatch (do
    ask .getCsprTradeMcp id
    let res ← ask (.callTool name args) id
    result (parseToolResult res)) fun _ => pure .null

/-- The list of pairs, wherever it stands in the response. -/
def pairsOf (pairsResp : Value) : List Value :=
  match pairsResp with
  | .arr pairs => pairs
  | _ => match pairsResp.field? "pairs" with
    | .arr pairs => pairs
    | _ => match pairsResp.field? "data" with
      | .arr pairs => pairs
      | _ => []

/-- The first of three fields that is there. -/
def tokenSymbol (p : Value) (symbol token tokenSymbol : String) : Except Error Value := do
  return (← p.field symbol).orElse ((← p.field token).orElse
    ((← p.field tokenSymbol).orElse (.str "")))

def tokenA (p : Value) : Except Error Value :=
  tokenSymbol p "token_a_symbol" "token_a" "tokenASymbol"

def tokenB (p : Value) : Except Error Value :=
  tokenSymbol p "token_b_symbol" "token_b" "tokenBSymbol"

/-- The label and the other token of a pair that is asked about. -/
def eligible (input : SelectPairInput) (p : Value) : Except Error (Option (String × Value)) := do
  let tokenA ← tokenA p
  let tokenB ← tokenB p
  if !tokenA.truthy || !tokenB.truthy then return none
  else if !(tokenA.is "CSPR" || tokenB.is "CSPR") then return none
  else
    let pairLabel := s!"{← tokenA.toStr}/{← tokenB.toStr}"
    if input.excluded.contains pairLabel then return none
    else return some (pairLabel, if tokenA.is "CSPR" then tokenB else tokenA)

def analysisArguments (input : SelectPairInput) (tokenOut : Value) : List (String × Value) :=
  [("token_in", .str "CSPR"), ("token_out", tokenOut), ("amount", .str input.amountInMotes)]

def quoteArguments (input : SelectPairInput) (tokenOut : Value) : List (String × Value) :=
  analysisArguments input tokenOut ++ [("type", .str "exact_in")]

/-- The field that the details are asked for by. -/
def detailsPair (p : Value) (pairLabel : String) : Value :=
  (p.field? "contract_package_hash").orElse ((p.field? "package_hash").orElse
    ((p.field? "address").orElse (.str pairLabel)))

def impactStr (quote : Value) : Value :=
  (quote.field? "price_impact").orElse ((quote.field? "priceImpact").orElse (.str "?"))

/-- `parseFloat(String(impactStr).replace('%', ''))` -/
def parseImpact (impactStr : Value) : Except Error Number := do
  return parseFloat (removeFirst (← impactStr.toStr) '%')

/-- `x || 999` -/
def orLarge (x : Number) : Number :=
  if x.truthy then x else .finite 999

def recommendationOf (analysis : Value) : Value :=
  (analysis.field? "recommendation").orElse (.str "unknown")

/-- `v?.[i]` -/
def item? (v : Value) (i : ℕ) : Value :=
  match v with
  | .obj _ => v.field? (toString i)
  | v => v.index? i

def reserve (details : Value) (name : String) (i : ℕ) : Except Error ℤ :=
  ((details.field? name).orElse ((item? (details.field? "reserves") i).orElse (.str "0"))).toBigInt

def reservesIn (details : Value) : Except Error ℤ :=
  reserve details "reserve_a" 0

def reservesOut (details : Value) : Except Error ℤ :=
  reserve details "reserve_b" 1

def feeBpsOf (details : Value) : Except Error Number :=
  ((details.field? "fee_bps").orElse ((details.field? "fee").orElse (.num (.finite 30)))).toNumber

/-- What has been learnt about a pair. -/
def candidateOf (input : SelectPairInput) (p : Value) (pairLabel : String) (tokenOut : Value)
    (quote : Value) (impactPct : Number) (analysis details : Value) : Except Error PairCandidate := do
  let recommendation := recommendationOf analysis
  let reservesIn ← reservesIn details
  let reservesOut ← reservesOut details
  let feeBps ← feeBpsOf details
  let yieldApy ← estimateFeeApy reservesIn feeBps
  let reason := s!"impact={impactPct.toFixed 2}% (max {input.maxImpact.toStr}%), rec={← recommendation.toStr}, apy~{yieldApy.toFixed 1}%"
  let safe := impactPct.le input.maxImpact && !recommendation.is "high_risk"
  return {
    pair := pairLabel
    tokenIn := "CSPR"
    tokenOut
    contractPackageHash := (p.field? "contract_package_hash").orElse (p.field? "package_hash")
    reservesIn := toString reservesIn
    reservesOut := toString reservesOut
    feeBps
    estimatedPriceImpact := impactStr quote
    recommendation
    yieldApy
    reason := if safe then s!"safe: {reason}" else s!"skipped: {reason}" }

/-- One pair of the list. -/
def evaluatePair (input : SelectPairInput) (p : Value) : Tools (Option PairCandidate) := do
  match ← result (eligible input p) with
  | none => return none
  | some (pairLabel, tokenOut) =>
    let quote ← callToolSafe "get_quote" (.obj (quoteArguments input tokenOut))
    let impact ← result (parseImpact (impactStr quote))
    let analysis ← callToolSafe "analyze_trade" (.obj (analysisArguments input tokenOut))
    let details ← callToolSafe "get_pair_details" (.obj [("pair", detailsPair p pairLabel)])
    return some (← result (candidateOf input p pairLabel tokenOut quote (orLarge impact) analysis
      details))

def evaluatePairs (input : SelectPairInput) : List Value → Tools (List PairCandidate)
  | [] => return []
  | p :: ps => do
    let candidate ← evaluatePair input p
    return candidate.toList ++ (← evaluatePairs input ps)

namespace PairCandidate

/-- `c.reason.startsWith('safe')` -/
def startsSafe (c : PairCandidate) : Bool :=
  "safe".toList.isPrefixOf c.reason.toList

def isSafe (c : PairCandidate) : Bool :=
  c.startsSafe && !c.recommendation.is "high_risk"

def isStaked (c : PairCandidate) : Bool :=
  c.tokenOut.is STAKED_CSPR

/-- The comparison that the candidates are sorted by. -/
def compare (a b : PairCandidate) : Number :=
  let aStaked := Number.finite (if a.isStaked then 1 else 0)
  let bStaked := Number.finite (if b.isStaked then 1 else 0)
  if aStaked ≠ bStaked then bStaked.sub aStaked else b.yieldApy.sub a.yieldApy

end PairCandidate

/-- `[...safe].sort(compare)`: the sort is stable, and only a positive result moves a candidate
behind a later one. -/
def rankPairs (safe : List PairCandidate) : List PairCandidate :=
  safe.insertionSort fun a b => (Number.finite 0).lt (a.compare b) = false

def selectBestPair (input : SelectPairInput) : Tools PairSelection := do
  let pairsResp ← callToolSafe "get_pairs" (.obj [("limit", .num (.finite 50))])
  if !pairsResp.truthy then return ⟨none, [], ← ask (.agent .dateNow) .ok⟩
  else
    let candidates ← evaluatePairs input (pairsOf pairsResp)
    let safe := candidates.filter PairCandidate.isSafe
    match rankPairs safe with
    | [] => return ⟨none, candidates, ← ask (.agent .dateNow) .ok⟩
    | selected :: _ =>
      return ⟨some selected, safe ++ candidates.filter (!·.startsSafe), ← ask (.agent .dateNow) .ok⟩

end ArwaAgent
