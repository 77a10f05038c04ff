import ArwaAgent.Agent.AuditRecord
import ArwaAgent.Contracts.RevenueLog
import ArwaAgent.Js.Bytes

/-!
# Which audit records the contract accepts

The agent cuts the source of a record to 60 code units and its reference to 120, and the
contract allows 64 and 128 bytes: there is room for four and eight more bytes than code
units, so that a few characters outside of ASCII fit and many do not.  An amount of zero is
replaced by 1 where it is spelled `0`, and only there.
-/

namespace ArwaAgent

open Js Js.Json

/-- The checks of `emit_revenue` on its arguments. -/
def EmitRevenueArgs.PassesChecks {K : Type} (args : EmitRevenueArgs K) : Prop :=
  0 < args.amount ∧ args.source.utf8ByteSize ≤ 64 ∧ args.reference.utf8ByteSize ≤ 128

/-- The beginning of a text, of `n` code units, takes at most `limit` bytes: the extra bytes of
its characters fit next to one byte for each code unit. -/
def FitsBytes (n limit : ℕ) (text : List Char) : Prop :=
  Nat.min n (units text) + excess n text ≤ limit

instance (n limit : ℕ) (text : List Char) : Decidable (FitsBytes n limit text) :=
  inferInstanceAs (Decidable (_ ≤ _))

section

variable {K : Type} {accountKey : String → Except Error K} {log : AgentVaultLog}
  {args : EmitRevenueArgs K} {action amountOut txHash : String} {n : ℤ}

/-- What else the contract checks is that it is not paused, and the caller. -/
lemma admits_iff_passesChecks {self : RevenueEmitter} {env : Env} :
    self.Admits env args.amount args.source args.reference ↔
      self.paused = false ∧ (env.caller = self.emitter ∨ env.caller = self.owner) ∧
        args.PassesChecks :=
  Iff.rfl

/-- A record whose arguments pass the checks of the contract. -/
def AgentVaultLog.Passes (accountKey : String → Except Error K) (log : AgentVaultLog) : Prop :=
  ∃ args, emitRevenueArgs accountKey log = .ok args ∧ args.PassesChecks

/-- The amount is a positive `U256`, unless it is a zero that is not spelled as one, or too
large. -/
lemma exists_amount_iff (hn : Value.bigIntOfString log.amountIn = .ok n) (hpos : 0 ≤ n) :
    (∃ m amount, Value.bigIntOfString log.amountText = .ok m ∧
        newCLUInt256 m = some amount ∧ 0 < amount) ↔
      n < 2 ^ 256 ∧ (log.amountIn = "" ∨ log.amountIn = "0" ∨ n ≠ 0) := by
  have hpositive : ∀ a : U256, 0 < a ↔ 0 < a.toNat := by
    intro a
    rw [BitVec.lt_def]
    exact Iff.rfl
  rw [AgentVaultLog.amountText]
  by_cases hspelled : log.amountIn ≠ "" ∧ log.amountIn ≠ "0"
  · have hzero : ¬ (log.amountIn = "" ∨ log.amountIn = "0") := not_or.2 hspelled
    rw [if_pos hspelled, ← or_assoc]
    simp only [hzero, false_or, hn, newCLUInt256_eq_some, hpositive]
    constructor
    · rintro ⟨m, amount, hm, hamount, ha⟩
      obtain rfl := Except.ok.inj hm
      have hlt := amount.isLt
      omega
    · rintro ⟨hlt, hne⟩
      have hnat : (BitVec.ofInt 256 n).toNat = n := by
        rw [BitVec.toNat_ofInt]
        show (n % 2 ^ 256).toNat = n
        omega
      exact ⟨n, BitVec.ofInt 256 n, rfl, hnat.symm, by omega⟩
  · rw [if_neg hspelled]
    have hempty : log.amountIn = "" ∨ log.amountIn = "0" :=
      by_contra fun h => hspelled (not_or.1 h)
    have hzero : n = 0 := by
      rcases hempty with h | h <;> rw [h] at hn <;> exact (Except.ok.inj hn).symm
    have hone : newCLUInt256 1 = some 1 := newCLUInt256_eq_some.2 (by decide)
    exact iff_of_true ⟨1, 1, rfl, hone, by decide⟩ ⟨by norm_num [hzero], or_assoc.1 (Or.inl hempty)⟩

/-- The arguments of a record pass the checks of the contract if and only if the SDK reads its
asset, its amount is a `U256` and no zero in another spelling than `0` or the empty text, and the
beginnings of the source and of the JSON text of the decision have few enough characters outside
of ASCII. -/
theorem passes_checks_iff (hlog : log.Declared action amountOut txHash)
    (hn : Value.bigIntOfString log.amountIn = .ok n) (hpos : 0 ≤ n) :
    log.Passes accountKey ↔
      (∃ asset, buildKeyValue accountKey log.assetText = .ok asset) ∧
        (n < 2 ^ 256 ∧ (log.amountIn = "" ∨ log.amountIn = "0" ∨ n ≠ 0)) ∧
        FitsBytes 60 64 (log.sourceText action) ∧ FitsBytes 120 128 log.decisionJson := by
  rw [← exists_amount_iff hn hpos, FitsBytes, FitsBytes, ← utf8ByteSize_slice16_le_iff,
    ← utf8ByteSize_slice16_le_iff]
  constructor
  · rintro ⟨args, hargs, hamount, hsource, hreference⟩
    obtain ⟨m, asset, hm, hrange, hasset, heq⟩ := (emitRevenueArgs_eq_ok_iff hlog).1 hargs
    rw [heq] at hsource hreference
    exact ⟨⟨asset, hasset⟩, ⟨m, args.amount, hm, hrange, hamount⟩, hsource, hreference⟩
  · rintro ⟨⟨asset, hasset⟩, ⟨m, amount, hm, hrange, hamount⟩, hsource, hreference⟩
    exact ⟨⟨amount, asset, _, _⟩,
      (emitRevenueArgs_eq_ok_iff hlog).2 ⟨m, asset, hm, hrange, hasset, rfl⟩, hamount, hsource,
      hreference⟩

end

/-- The record of a decision to provide liquidity passes the checks. -/
theorem liquidity_record_passes :
    (liquidityLog succeededHash "success").Passes (Except.ok : String → Except Error String) := by
  have hdeclared :
      (liquidityLog succeededHash "success").Declared "add_liquidity" "0" succeededHash :=
    ⟨rfl, rfl, rfl⟩
  have hn : Value.bigIntOfString (liquidityLog succeededHash "success").amountIn =
      .ok 1000000000000 := rfl
  exact (passes_checks_iff hdeclared hn (by decide)).2
    ⟨⟨_, rfl⟩, ⟨by decide, Or.inr (Or.inr (by decide))⟩, by decide, by decide +kernel⟩

/-- A decision on a pair whose second token has a name of thirty characters of three bytes. -/
def wideLog : AgentVaultLog :=
  { liquidityLog succeededHash "success" with
    pair := "CSPR/" ++ String.ofList (List.replicate 30 '€') }

/-- Not every record passes the checks: the source of this one takes 116 bytes. -/
theorem wide_record_is_rejected :
    ¬ ∀ (K : Type) (accountKey : String → Except Error K) (log : AgentVaultLog)
      (action amountOut txHash : String) (n : ℤ) (asset : K),
      log.Declared action amountOut txHash → Value.bigIntOfString log.amountIn = .ok n → 0 ≤ n →
        buildKeyValue accountKey log.assetText = .ok asset → log.Passes accountKey := by
  intro h
  have hdeclared : wideLog.Declared "add_liquidity" "0" succeededHash := ⟨rfl, rfl, rfl⟩
  have hn : Value.bigIntOfString wideLog.amountIn = .ok 1000000000000 := rfl
  obtain ⟨args, hargs, -, hsource, -⟩ :=
    h String .ok wideLog _ _ _ _ _ hdeclared hn (by decide) rfl
  obtain ⟨m, asset, -, -, -, heq⟩ := (emitRevenueArgs_eq_ok_iff hdeclared).1 hargs
  rw [heq, utf8ByteSize_slice16_le_iff] at hsource
  exact absurd hsource (by decide +kernel)

end ArwaAgent
