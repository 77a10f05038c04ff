import ArwaAgent.Lib.RingBuffer
import ArwaAgent.Odra.Basic

/-!
# Checked integers and lists of the contracts

`U256` of `casper_types` checks its arithmetic: a sum or a difference that does not
fit panics, and the call reverts.

The length of an Odra `List` is a `u32`.  `listPush` reverts when the list has no
index left, so that a list in storage never outgrows its length; `ringWrite` is the
write that the contracts make into their ring buffers, a `push` while there is room
and a `replace` at the head from then on.
-/

namespace ArwaAgent

/-! ### U256 -/

/-- `casper_types::U256`. -/
abbrev U256 := BitVec 256

/-- `CLValue.newCLUInt256`: an argument of a call, from a BigInt in its range. -/
def newCLUInt256 (n : ℤ) : Option U256 :=
  if 0 ≤ n ∧ n < 2 ^ 256 then some (BitVec.ofInt 256 n) else none

lemma newCLUInt256_eq_some {n : ℤ} {a : U256} : newCLUInt256 n = some a ↔ n = a.toNat := by
  rw [newCLUInt256]
  split
  next hrange =>
    rw [Option.some.injEq, ← BitVec.toNat_inj, BitVec.toNat_ofInt]
    show (n % 2 ^ 256).toNat = _ ↔ _
    omega
  next hrange =>
    have hlt := a.isLt
    constructor
    · intro h
      cases h
    · intro h
      omega

namespace U256

/-- The sum, when it fits. -/
def checkedAdd (a b : U256) : Except Revert U256 :=
  if a.toNat + b.toNat < 2 ^ 256 then .ok (a + b) else .error .panic

/-- The difference, when it is not negative. -/
def checkedSub (a b : U256) : Except Revert U256 :=
  if b ≤ a then .ok (a - b) else .error .panic

lemma checkedAdd_eq_ok_iff {a b c : U256} :
    checkedAdd a b = .ok c ↔ c.toNat = a.toNat + b.toNat := by
  by_cases h : a.toNat + b.toNat < 2 ^ 256
  · have hsum : (a + b).toNat = a.toNat + b.toNat := by
      rw [BitVec.toNat_add, Nat.mod_eq_of_lt h]
    rw [checkedAdd, if_pos h, Except.ok.injEq, ← BitVec.toNat_inj, hsum]
    exact eq_comm
  · rw [checkedAdd, if_neg h]
    constructor
    · intro hc
      cases hc
    · intro hc
      have := c.isLt
      omega

end U256

/-! ### Lists -/

section Lists

variable {α : Type}

/-- `List::len`. -/
def listLen (xs : List α) : UInt32 := UInt32.ofNat xs.length

/-- `List::push`. -/
def listPush (xs : List α) (x : α) : Except Revert (List α) :=
  if xs.length + 1 < 2 ^ 32 then .ok (xs ++ [x]) else .error .panic

/-- `Option::unwrap`. -/
def unwrap (x : Option α) : Except Revert α :=
  match x with
  | some a => .ok a
  | none => .error .panic

/-- The write into a ring buffer of `cap` slots. -/
def ringWrite (cap head : UInt32) (xs : List α) (x : α) : Except Revert (List α × UInt32) :=
  if listLen xs < cap then do
    let xs ← listPush xs x
    return (xs, head)
  else do
    let xs ← listReplace xs head.toNat x
    return (xs, (head + 1) % cap)

lemma listPush_eq_ok_iff {xs ys : List α} {x : α} :
    listPush xs x = .ok ys ↔ xs.length + 1 < 2 ^ 32 ∧ ys = xs ++ [x] := by
  by_cases h : xs.length + 1 < 2 ^ 32
  · rw [listPush, if_pos h, Except.ok.injEq]
    exact ⟨fun hy => ⟨h, hy.symm⟩, fun hy => hy.2.symm⟩
  · rw [listPush, if_neg h]
    constructor
    · intro hy
      cases hy
    · rintro ⟨hc, -⟩
      exact absurd hc h

lemma unwrap_eq_ok_iff {x : Option α} {a : α} : unwrap x = .ok a ↔ x = some a := by
  cases x with
  | none =>
    constructor
    · intro h
      cases h
    · intro h
      cases h
  | some b => rw [unwrap, Except.ok.injEq, Option.some.injEq]

lemma toNat_listLen {xs : List α} (h : xs.length < 2 ^ 32) : (listLen xs).toNat = xs.length :=
  UInt32.toNat_ofNat_of_lt' h

lemma ringWrite_spec {cap head : UInt32} {xs log : List α}
    (h : RingBuffer.Holds cap.toNat xs head.toNat log) (x : α) :
    ∃ ys next, ringWrite cap head xs x = .ok (ys, next) ∧
      RingBuffer.Holds cap.toNat ys next.toNat (log ++ [x]) := by
  have hpush := h.push x
  have hlen := h.length_eq
  have hcap := cap.toNat_lt
  have hlt : listLen xs < cap ↔ xs.length < cap.toNat := by
    rw [UInt32.lt_iff_toNat_lt, toNat_listLen (by omega)]
  rw [RingBuffer.push, RingBuffer.pushHead] at hpush
  by_cases hfree : xs.length < cap.toNat
  · rw [if_pos hfree, if_pos hfree] at hpush
    refine ⟨xs ++ [x], head, ?_, hpush⟩
    rw [ringWrite, if_pos (hlt.2 hfree), listPush, if_pos (by omega)]
    rfl
  · rw [if_neg hfree, if_neg hfree] at hpush
    refine ⟨xs.set head.toNat x, (head + 1) % cap, ?_, ?_⟩
    · have hhead := h.head_lt
      rw [ringWrite, if_neg (fun hc => hfree (hlt.1 hc)), listReplace, if_pos (by omega)]
      rfl
    · -- the head stays below the capacity, so its successor does not wrap
      have hhead := h.head_lt
      have hsucc : (head + 1).toNat = head.toNat + 1 := by
        rw [UInt32.toNat_add, UInt32.toNat_one, Nat.mod_eq_of_lt (by omega)]
      rw [UInt32.toNat_mod, hsucc]
      exact hpush

end Lists

end ArwaAgent
