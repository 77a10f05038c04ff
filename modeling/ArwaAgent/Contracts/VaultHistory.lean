import ArwaAgent.Contracts.VaultSpec
import ArwaAgent.Lib.History

/-!
# Reading the history of an AgentVault

The properties of the vault compare its storage with what its callers did: the
decisions they logged, the motes they moved in and out, the positions they opened
and the yield they recorded.  All of it is read off the arguments of the accepted
calls, never off the storage.
-/

namespace ArwaAgent

/-- An accepted call of an AgentVault. -/
abbrev VaultInvocation := Invocation AgentVault.Call VaultEvent

namespace VaultInvocation

/-- The decision this call logs. -/
def decision (i : VaultInvocation) : Option DecisionLog :=
  match i.call with
  | .executeStrategy args => some (args.decision i.env)
  | _ => none

/-- The motes this call moves into the vault. -/
def deposited (i : VaultInvocation) : Option U256 :=
  match i.call with
  | .depositForStrategy amount _ => some amount
  | _ => none

/-- The motes this call moves out of the vault. -/
def withdrew (i : VaultInvocation) : Option U256 :=
  match i.call with
  | .withdrawForStrategy amount _ => some amount
  | _ => none

/-- The position this call opens. -/
def opening (i : VaultInvocation) : Option AgentVault.Opening :=
  match i.call with
  | .recordStrategyExecution kind target amount openedTx =>
    some ⟨kind, target, amount, i.env.blockTime, openedTx⟩
  | _ => none

/-- The id and the yield this call records. -/
def yielded (i : VaultInvocation) : Option (UInt64 × U256) :=
  match i.call with
  | .recordYieldRealised positionId yieldAmount _ => some (positionId, yieldAmount)
  | _ => none

end VaultInvocation

namespace AgentVault

variable (h : List VaultInvocation)

/-- The logged decisions, in order. -/
def decisionsOf : List DecisionLog := h.filterMap VaultInvocation.decision

/-- The motes of all accepted deposits. -/
def depositedMotes : ℕ := ((h.filterMap VaultInvocation.deposited).map BitVec.toNat).sum

/-- The motes of all accepted withdrawals. -/
def withdrawnMotes : ℕ := ((h.filterMap VaultInvocation.withdrew).map BitVec.toNat).sum

/-- The opened positions, in order. -/
def openingsOf : List Opening := h.filterMap VaultInvocation.opening

/-- The yield recorded for an id. -/
def yieldOf (id : UInt64) : ℕ :=
  ((h.filterMap VaultInvocation.yielded).map fun y => if y.1 = id then y.2.toNat else 0).sum

variable (i : VaultInvocation)

lemma decisionsOf_append : decisionsOf (h ++ [i]) = decisionsOf h ++ i.decision.toList :=
  filterMap_snoc _ h i

lemma depositedMotes_append : depositedMotes (h ++ [i]) =
    depositedMotes h + i.deposited.elim 0 BitVec.toNat :=
  sum_filterMap_snoc _ _ h i

lemma withdrawnMotes_append : withdrawnMotes (h ++ [i]) =
    withdrawnMotes h + i.withdrew.elim 0 BitVec.toNat :=
  sum_filterMap_snoc _ _ h i

lemma openingsOf_append : openingsOf (h ++ [i]) = openingsOf h ++ i.opening.toList :=
  filterMap_snoc _ h i

lemma yieldOf_append (id : UInt64) : yieldOf (h ++ [i]) id =
    yieldOf h id + i.yielded.elim 0 fun y => if y.1 = id then y.2.toNat else 0 :=
  sum_filterMap_snoc _ _ h i

variable {h i}

lemma openingsOf_append_of_none (hi : i.opening = none) : openingsOf (h ++ [i]) = openingsOf h := by
  rw [openingsOf_append, hi, Option.toList_none, List.append_nil]

lemma yieldOf_append_of_none (hi : i.yielded = none) : yieldOf (h ++ [i]) = yieldOf h := by
  funext id
  rw [yieldOf_append, hi, Option.elim_none, Nat.add_zero]

end AgentVault

end ArwaAgent
