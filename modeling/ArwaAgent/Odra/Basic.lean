import Mathlib.Data.BitVec
import Mathlib.Data.Fintype.EquivFin
import Mathlib.Data.Fintype.Sum

/-!
# What the contracts use of the host

The contracts are Odra modules compiled to Casper wasm.  The storage cells of
Odra are modelled by plain data: a `Var` is a record field, a `Mapping` a function
with the default value outside its keys, a `List` a list.  A call either reverts,
and then leaves no trace, or returns the new storage together with the event it
emits and the native transfer it makes.

The release profile sets no overflow checks, so `u64` and `u32` arithmetic is that
of `UInt64` and `UInt32`, which wraps.
-/

namespace ArwaAgent

/-- `odra::Address`: an account or a contract, by its 32-byte hash. -/
inductive Address
  | account (hash : BitVec 256)
  | contract (hash : BitVec 256)
deriving DecidableEq, Repr

namespace Address

/-- Addresses are two copies of the 32-byte hashes. -/
def equivSum : Address ≃ Fin (2 ^ 256) ⊕ Fin (2 ^ 256) where
  toFun
    | account h => .inl h.toFin
    | contract h => .inr h.toFin
  invFun
    | .inl h => account ⟨h⟩
    | .inr h => contract ⟨h⟩
  left_inv a := by cases a <;> rfl
  right_inv a := by rcases a with h | h <;> rfl

instance : Fintype Address := Fintype.ofEquiv _ equivSum.symm

end Address

/-- The account hash made of zeros. -/
def zeroAddress : Address := .account 0

/-- The ways a call reverts: the `require!` macro ends every failed check with the same
error, whatever its message; `expect` panics; a list access is out of bounds; a native
transfer finds too little in the purse. -/
inductive Revert
  | unexpectedError
  | panic
  | indexOutOfBounds
  | transferFailed
deriving DecidableEq, Repr

/-- The `require!` macro. The message is dropped, as the macro drops it. -/
def require (cond : Prop) [Decidable cond] (_msg : String) : Except Revert Unit :=
  if cond then .ok () else .error .unexpectedError

/-- A native transfer out of the contract's purse. -/
structure Transfer where
  recipient : Address
  amount : ℕ
deriving DecidableEq, Repr

/-- What a call finds in its environment. -/
structure Env where
  caller : Address
  blockTime : UInt64
  /-- The motes in the contract's purse. -/
  purse : ℕ
deriving Repr

/-- `env().transfer_tokens`: debits the purse, and reverts when the purse is short. -/
def Env.transferTokens (env : Env) (recipient : Address) (amount : ℕ) : Except Revert Transfer :=
  if amount ≤ env.purse then .ok ⟨recipient, amount⟩ else .error .transferFailed

/-- `List::replace` of Odra. -/
def listReplace {α : Type*} (xs : List α) (index : ℕ) (x : α) : Except Revert (List α) :=
  if index < xs.length then .ok (xs.set index x) else .error .indexOutOfBounds

/-- `u64::saturating_sub`. -/
def saturatingSub (a b : UInt64) : UInt64 := if b ≤ a then a - b else 0

/-! ### Success of the primitives -/

lemma require_bind_eq_ok_iff {α : Type} {cond : Prop} [Decidable cond] {msg : String}
    {k : Unit → Except Revert α} {r : α} :
    (require cond msg >>= k) = .ok r ↔ cond ∧ k () = .ok r := by
  by_cases h : cond
  · rw [require, if_pos h]
    exact ⟨fun hk => ⟨h, hk⟩, fun hk => hk.2⟩
  · rw [require, if_neg h]
    constructor
    · intro hk
      cases hk
    · rintro ⟨hc, -⟩
      exact absurd hc h

lemma require_bind_eq_error_iff {α : Type} {cond : Prop} [Decidable cond] {msg : String}
    {k : Unit → Except Revert α} {e : Revert} :
    (require cond msg >>= k) = .error e ↔
      (¬ cond ∧ e = .unexpectedError) ∨ (cond ∧ k () = .error e) := by
  by_cases h : cond
  · rw [require, if_pos h]
    exact ⟨fun hk => Or.inr ⟨h, hk⟩, fun hk => hk.elim (fun hc => absurd h hc.1) And.right⟩
  · rw [require, if_neg h]
    constructor
    · intro hk
      cases hk
      exact Or.inl ⟨h, rfl⟩
    · rintro (⟨-, rfl⟩ | ⟨hc, -⟩)
      · rfl
      · exact absurd hc h

lemma bind_eq_ok_iff {α β : Type} {x : Except Revert α} {k : α → Except Revert β} {r : β} :
    (x >>= k) = .ok r ↔ ∃ a, x = .ok a ∧ k a = .ok r := by
  cases x with
  | error e =>
    constructor
    · intro hk
      cases hk
    · rintro ⟨a, ha, -⟩
      cases ha
  | ok a =>
    constructor
    · exact fun hk => ⟨a, rfl, hk⟩
    · rintro ⟨b, hb, hk⟩
      cases hb
      exact hk

lemma transferTokens_eq_ok_iff {env : Env} {recipient : Address} {amount : ℕ} {t : Transfer} :
    env.transferTokens recipient amount = .ok t ↔ amount ≤ env.purse ∧ t = ⟨recipient, amount⟩ := by
  by_cases h : amount ≤ env.purse
  · rw [Env.transferTokens, if_pos h, Except.ok.injEq]
    exact ⟨fun ht => ⟨h, ht.symm⟩, fun ht => ht.2.symm⟩
  · rw [Env.transferTokens, if_neg h]
    constructor
    · intro ht
      cases ht
    · rintro ⟨hc, -⟩
      exact absurd hc h

lemma listReplace_eq_ok_iff {α : Type*} {xs ys : List α} {index : ℕ} {x : α} :
    listReplace xs index x = .ok ys ↔ index < xs.length ∧ ys = xs.set index x := by
  by_cases h : index < xs.length
  · rw [listReplace, if_pos h, Except.ok.injEq]
    exact ⟨fun hy => ⟨h, hy.symm⟩, fun hy => hy.2.symm⟩
  · rw [listReplace, if_neg h]
    constructor
    · intro hy
      cases hy
    · rintro ⟨hc, -⟩
      exact absurd hc h

/-! ### Fixed-width arithmetic -/

@[simp] lemma toNat_saturatingSub (a b : UInt64) :
    (saturatingSub a b).toNat = a.toNat - b.toNat := by
  by_cases h : b ≤ a
  · rw [saturatingSub, if_pos h]
    exact UInt64.toNat_sub_of_le _ _ h
  · rw [saturatingSub, if_neg h, UInt64.toNat_zero]
    rw [UInt64.le_iff_toNat_le] at h
    omega

lemma toNat_add_of_lt {a b : UInt64} (h : a.toNat + b.toNat < 2 ^ 64) :
    (a + b).toNat = a.toNat + b.toNat := by
  rw [UInt64.toNat_add, Nat.mod_eq_of_lt h]

lemma toNat_max (a b : UInt32) : (max a b).toNat = max a.toNat b.toNat := by
  show (if a ≤ b then b else a).toNat = max a.toNat b.toNat
  split
  · next h => exact (Nat.max_eq_right (UInt32.le_iff_toNat_le.1 h)).symm
  · next h =>
    rw [UInt32.le_iff_toNat_le] at h
    omega

lemma toNat_min (a b : UInt32) : (min a b).toNat = min a.toNat b.toNat := by
  show (if a ≤ b then a else b).toNat = min a.toNat b.toNat
  split
  · next h => exact (Nat.min_eq_left (UInt32.le_iff_toNat_le.1 h)).symm
  · next h =>
    rw [UInt32.le_iff_toNat_le] at h
    omega

end ArwaAgent
