import ArwaAgent.Agent.Types
import ArwaAgent.Js.Json
import ArwaAgent.Odra.Collections

/-!
# The audit record of a decision

A decision is written on chain as a call of `emit_revenue`: a short source, and a reference
that is the decision in JSON, cut to 120 code units.  The hash of the transaction and the
outcome come last, so a cut takes them first; what has been cut is no JSON any more.  The
record is complete exactly when what comes with a hash fits into 13 code units.
-/

namespace ArwaAgent

open Js Js.Json

/-- The arguments of `emit_revenue`; `K` are the keys of the chain. -/
structure EmitRevenueArgs (K : Type) where
  amount : U256
  asset : K
  source : String
  reference : String
  deriving DecidableEq

/-- `ZERO_ADDR` -/
def zeroAddr : String :=
  "account-hash-" ++ String.ofList (List.replicate 64 '0')

/-- The decision, as it is written in JSON. -/
def AgentVaultLog.decision (log : AgentVaultLog) : Value :=
  .obj [("a", log.action), ("p", .str log.pair), ("i", .str log.amountIn), ("o", log.amountOut),
    ("t", log.txHash), ("s", .str log.outcome)]

/-- `decisionJson` -/
def AgentVaultLog.decisionJson (log : AgentVaultLog) : List Char :=
  (Json.stringify log.decision).getD []

section

variable {K : Type} (accountKey : String → Except Error K)

/-- `buildKeyValue`, for what the SDK makes of the hexadecimal digits. -/
def buildKeyValue (value : String) : Except Error K :=
  if "account-hash-".toList.isPrefixOf value.toList then
    accountKey (removeStart "account-hash-" value)
  else accountKey (removeStart "0x" value)

/-- The amount as it is written, of at least one mote where it is empty or the text `0`. -/
def AgentVaultLog.amountText (log : AgentVaultLog) : String :=
  if log.amountIn ≠ "" ∧ log.amountIn ≠ "0" then log.amountIn else "1"

/-- The asset as it is written. -/
def AgentVaultLog.assetText (log : AgentVaultLog) : String :=
  if log.tokenInHex ≠ "" then log.tokenInHex else zeroAddr

/-- The arguments that `logStrategyToVault` calls `emit_revenue` with. -/
def emitRevenueArgs (log : AgentVaultLog) : Except Error (EmitRevenueArgs K) := do
  let action ← log.action.toStr
  let shortSource := String.ofList (slice16 60 ("[ARWA] " ++ action ++ " " ++ log.pair).toList)
  let reference := String.ofList (slice16 120 log.decisionJson)
  let n ← Value.bigIntOfString log.amountText
  -- the text of the SDK's error only goes to the console
  let amount ← (newCLUInt256 n).elim (.error ⟨""⟩) .ok
  let asset ← buildKeyValue accountKey log.assetText
  return { amount, asset, source := shortSource, reference }

end

/-- The text that the source of a record begins. -/
def AgentVaultLog.sourceText (log : AgentVaultLog) (action : String) : List Char :=
  ("[ARWA] " ++ action ++ " " ++ log.pair).toList

/-- The reference decodes to the decision. -/
def AgentVaultLog.DecodesFrom (log : AgentVaultLog) (reference : String) : Prop :=
  ∃ v, Json.parse reference = some v ∧ v.ownField "a" = log.action ∧
    v.ownField "p" = .str log.pair ∧ v.ownField "i" = .str log.amountIn ∧
    v.ownField "o" = log.amountOut ∧ v.ownField "t" = log.txHash ∧
    v.ownField "s" = .str log.outcome

/-- The fields of a log that have been declared as strings are strings. -/
structure AgentVaultLog.Declared (log : AgentVaultLog) (action amountOut txHash : String) : Prop where
  action : log.action = .str action
  amountOut : log.amountOut = .str amountOut
  txHash : log.txHash = .str txHash

/-- The length of the fields that share a record with the hash of the transaction. -/
def AgentVaultLog.freeLength (log : AgentVaultLog) (action amountOut : String) : ℕ :=
  innerLength action + innerLength log.pair + innerLength log.amountIn + innerLength amountOut +
    innerLength log.outcome

/-- The fields of a decision whose fields are strings. -/
def AgentVaultLog.strings (log : AgentVaultLog) (action amountOut txHash : String) :
    List (String × String) :=
  [("a", action), ("p", log.pair), ("i", log.amountIn), ("o", amountOut), ("t", txHash),
    ("s", log.outcome)]

/-- A decision to provide liquidity, as the executor logs it. -/
def liquidityLog (txHash outcome : String) : AgentVaultLog where
  action := .str "add_liquidity"
  amountIn := "1000000000000"
  amountOut := .str "0"
  tokenIn := "CSPR"
  tokenOut := .str "sCSPR"
  tokenInHex := "account-hash-c5c3d9e27514350da940c79adee98bf35f3030380c1e61ded33bbe4aa0c332a9"
  pair := "CSPR/sCSPR"
  txHash := .str txHash
  x402Proof := ""
  x402Signer := .str ""
  outcome := outcome

/-- The hash of a transaction. -/
def succeededHash : String :=
  "3d80df21ba4ee4d66a2a1f60c32570dd5685e4b279f6538162a5fd1314847c1e"

@[inherit_doc succeededHash]
def failedHash : String :=
  "3d80df21ba4ee4d66a2a1f60c32570dd5685e4b279f6538162a5fd1314847c1f"

/-- A short decision: nothing is traded. -/
def holdLog (txHash : String) : AgentVaultLog :=
  { liquidityLog txHash "success" with action := .str "hold", amountIn := "1", pair := "" }

/-! ### Which records are complete -/

section

variable {K : Type} {accountKey : String → Except Error K} {log log' : AgentVaultLog}
  {args args' : EmitRevenueArgs K} {action amountOut txHash action' amountOut' txHash' : String}

lemma decision_eq (h : log.Declared action amountOut txHash) :
    log.decision =
      .obj ((log.strings action amountOut txHash).map fun s => (s.1, .str s.2)) := by
  rw [AgentVaultLog.decision, h.action, h.amountOut, h.txHash]
  rfl

lemma decisionJson_eq (h : log.Declared action amountOut txHash) :
    log.decisionJson = '{' :: fieldsText (log.strings action amountOut txHash) := by
  rw [AgentVaultLog.decisionJson, decision_eq h, stringify_strings]
  rfl

/-- Braces, names, quotes, colons and commas take 43 code units. -/
lemma units_decisionJson (h : log.Declared action amountOut txHash) :
    units log.decisionJson = log.freeLength action amountOut + innerLength txHash + 43 := by
  have hname : innerLength "a" = 1 ∧ innerLength "p" = 1 ∧ innerLength "i" = 1 ∧
      innerLength "o" = 1 ∧ innerLength "t" = 1 ∧ innerLength "s" = 1 := by decide
  obtain ⟨ha, hp, hi, ho, ht, hs⟩ := hname
  rw [decisionJson_eq h, units_cons (by decide), units_fieldsText (by simp [AgentVaultLog.strings])]
  simp only [AgentVaultLog.strings, AgentVaultLog.freeLength, List.map_cons, List.map_nil,
    List.sum_cons, List.sum_nil, ha, hp, hi, ho, ht, hs]
  omega

/-- What the contract is called with, if it is called. -/
lemma emitRevenueArgs_eq_ok_iff (hlog : log.Declared action amountOut txHash) :
    emitRevenueArgs accountKey log = .ok args ↔
      ∃ n asset, Value.bigIntOfString log.amountText = .ok n ∧
        newCLUInt256 n = some args.amount ∧ buildKeyValue accountKey log.assetText = .ok asset ∧
        args = ⟨args.amount, asset, String.ofList (slice16 60 (log.sourceText action)),
          String.ofList (slice16 120 log.decisionJson)⟩ := by
  rw [emitRevenueArgs, hlog.action]
  constructor
  · intro h
    obtain ⟨_, haction, h⟩ := bind_eq_ok.1 h
    obtain rfl := Except.ok.inj haction
    obtain ⟨n, hn, h⟩ := bind_eq_ok.1 h
    obtain ⟨amount, hamount, h⟩ := bind_eq_ok.1 h
    obtain ⟨asset, hasset, h⟩ := bind_eq_ok.1 h
    cases h
    refine ⟨n, asset, hn, ?_, hasset, rfl⟩
    cases hrange : newCLUInt256 n with
    | none =>
      rw [hrange] at hamount
      cases hamount
    | some a =>
      rw [hrange] at hamount
      exact congrArg some (Except.ok.inj hamount)
  · rintro ⟨n, asset, hn, hamount, hasset, hargs⟩
    simp only [Value.toStr, ok_bind, hn, hamount, Option.elim_some, hasset]
    exact congrArg Except.ok hargs.symm

lemma reference_of_emitRevenueArgs (hlog : log.Declared action amountOut txHash)
    (h : emitRevenueArgs accountKey log = .ok args) :
    args.reference = String.ofList (slice16 120 log.decisionJson) := by
  obtain ⟨n, asset, -, -, -, hargs⟩ := (emitRevenueArgs_eq_ok_iff hlog).1 h
  rw [hargs]

lemma parse_reference (hlog : log.Declared action amountOut txHash) (hhash : IsHex 64 txHash)
    (h : emitRevenueArgs accountKey log = .ok args) :
    parse args.reference =
      if log.freeLength action amountOut ≤ 13 then some log.decision else none := by
  have hlength := units_decisionJson hlog
  have hset : setStrings [] (log.strings action amountOut txHash) =
      (log.strings action amountOut txHash).map fun s => (s.1, .str s.2) := by
    simp [setStrings, setField, AgentVaultLog.strings]
  rw [innerLength_of_isHex hhash, decisionJson_eq hlog] at hlength
  rw [reference_of_emitRevenueArgs hlog h, decisionJson_eq hlog,
    parse_slice16 (by simp [AgentVaultLog.strings]), hset, ← decision_eq hlog]
  exact if_congr (by omega) rfl rfl

/-- A decision with the hash of a transaction is recorded without loss exactly when the other
fields take at most 13 code units. -/
theorem reference_decodes_iff (hlog : log.Declared action amountOut txHash)
    (hhash : IsHex 64 txHash) (h : emitRevenueArgs accountKey log = .ok args) :
    log.DecodesFrom args.reference ↔ log.freeLength action amountOut ≤ 13 := by
  have hparse := parse_reference hlog hhash h
  constructor
  · rintro ⟨v, hv, -⟩
    by_contra hlong
    rw [hparse, if_neg hlong] at hv
    cases hv
  · intro hshort
    rw [if_pos hshort] at hparse
    exact ⟨log.decision, hparse, rfl, rfl, rfl, rfl, rfl, rfl⟩

/-- A decision to hold that takes 13 code units is recorded without loss. -/
theorem hold_record_decodes :
    ∃ args : EmitRevenueArgs String,
      emitRevenueArgs .ok (holdLog succeededHash) = .ok args ∧
      (holdLog succeededHash).DecodesFrom args.reference := by
  obtain ⟨args, hargs⟩ := exists_of_isOk
    (x := (emitRevenueArgs .ok (holdLog succeededHash) : Except Error (EmitRevenueArgs String)))
    rfl
  have hdeclared : (holdLog succeededHash).Declared "hold" "0" succeededHash := ⟨rfl, rfl, rfl⟩
  exact ⟨args, hargs, (reference_decodes_iff hdeclared (by decide) hargs).2 (by decide)⟩

/-- A record without loss is the record of one decision only. -/
theorem fields_of_reference_eq (hlog : log.Declared action amountOut txHash)
    (hhash : IsHex 64 txHash) (h : emitRevenueArgs accountKey log = .ok args)
    (hlog' : log'.Declared action' amountOut' txHash') (hhash' : IsHex 64 txHash')
    (h' : emitRevenueArgs accountKey log' = .ok args')
    (hshort : log.freeLength action amountOut ≤ 13) (heq : args'.reference = args.reference) :
    log'.decision = log.decision := by
  have hparse := parse_reference hlog hhash h
  have hparse' := parse_reference hlog' hhash' h'
  rw [if_pos hshort] at hparse
  rw [heq, hparse] at hparse'
  split_ifs at hparse'
  exact (Option.some.inj hparse').symm

end

/-- Two transactions, one that succeeded and one that failed, leave the same record, and it is
the record of neither. -/
theorem liquidity_records_collide :
    ∃ args : EmitRevenueArgs String,
      (liquidityLog succeededHash "success").Declared "add_liquidity" "0" succeededHash ∧
      (liquidityLog failedHash "failed").Declared "add_liquidity" "0" failedHash ∧
      IsHex 64 succeededHash ∧ IsHex 64 failedHash ∧ succeededHash ≠ failedHash ∧
      emitRevenueArgs .ok (liquidityLog succeededHash "success") = .ok args ∧
      emitRevenueArgs .ok (liquidityLog failedHash "failed") = .ok args ∧
      ¬ (liquidityLog succeededHash "success").DecodesFrom args.reference ∧
      ¬ (liquidityLog failedHash "failed").DecodesFrom args.reference := by
  have hlog : (liquidityLog succeededHash "success").Declared "add_liquidity" "0" succeededHash :=
    ⟨rfl, rfl, rfl⟩
  have hhash : IsHex 64 succeededHash := by decide
  obtain ⟨args, hargs⟩ := exists_of_isOk
    (x := (emitRevenueArgs .ok (liquidityLog succeededHash "success") :
      Except Error (EmitRevenueArgs String))) rfl
  have hsame : (emitRevenueArgs .ok (liquidityLog failedHash "failed") :
      Except Error (EmitRevenueArgs String)) =
      emitRevenueArgs .ok (liquidityLog succeededHash "success") := by
    -- only the reference depends on what differs, and there it has been cut off
    have href : slice16 120 (liquidityLog failedHash "failed").decisionJson =
        slice16 120 (liquidityLog succeededHash "success").decisionJson := by decide +kernel
    simp only [emitRevenueArgs, href]
    rfl
  have hparse : parse args.reference = none :=
    (parse_reference hlog hhash hargs).trans (if_neg (by decide))
  refine ⟨args, hlog, ⟨rfl, rfl, rfl⟩, hhash, by decide, by decide, hargs,
    hsame.trans hargs, ?_, ?_⟩
  · rintro ⟨v, hv, -⟩
    rw [hparse] at hv
    cases hv
  · rintro ⟨v, hv, -⟩
    rw [hparse] at hv
    cases hv

end ArwaAgent
