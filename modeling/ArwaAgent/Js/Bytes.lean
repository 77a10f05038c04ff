import ArwaAgent.Js.Json
import Mathlib.Data.String.Basic

/-!
# Code units and bytes

The agent cuts a text by its UTF-16 code units, a contract measures it by its UTF-8 bytes.
A character takes at most two bytes more than code units, and `utf8ByteSize_slice16` says how
much more the beginning of a text takes: what its characters take, the one that is cut in
half included.
-/

namespace Js

/-- The bytes of a character beyond its code units. -/
def extraBytes (c : Char) : ℕ :=
  if c.toNat < 0x80 then 0 else if c.toNat < 0x800 then 1 else 2

/-- The bytes beyond the code units of the characters that begin within the first `n` code
units. -/
def excess : ℕ → List Char → ℕ
  | 0, _ => 0
  | _, [] => 0
  | n + 1, c :: cs => extraBytes c + excess (n + 1 - if c.toNat < 0x10000 then 1 else 2) cs

section

variable {c : Char} {cs : List Char} {n : ℕ}

lemma length_le_utf8ByteSize (s : String) : s.toList.length ≤ s.utf8ByteSize := by
  have hlen : ∀ cs : List Char, cs.length ≤ String.utf8Len cs := by
    intro cs
    induction cs with
    | nil => exact Nat.le_refl 0
    | cons c cs ih =>
      rw [List.length_cons, String.utf8Len]
      have := Char.utf8Size_pos c
      omega
  have hbytes := String.utf8ByteSize_ofList s.toList
  rw [String.ofList_toList] at hbytes
  rw [hbytes]
  exact hlen s.toList

lemma utf8Size_eq (c : Char) :
    c.utf8Size = (if c.toNat < 0x10000 then 1 else 2) + extraBytes c := by
  show (if c.toNat ≤ 0x7F then 1 else if c.toNat ≤ 0x7FF then 2 else if c.toNat ≤ 0xFFFF then 3 else 4) = _
  rw [extraBytes]
  split_ifs <;> omega

lemma units_cons_eq (c : Char) (cs : List Char) :
    units (c :: cs) = (if c.toNat < 0x10000 then 1 else 2) + units cs := by
  simp [units]

/-- The bytes of the beginning of a text. -/
lemma utf8Len_slice16 (n : ℕ) (cs : List Char) :
    String.utf8Len (slice16 n cs) = min n (units cs) + excess n cs := by
  induction cs generalizing n with
  | nil => cases n <;> simp [slice16, excess, units]
  | cons c cs ih =>
    rw [units_cons_eq]
    by_cases hc : c.toNat < 0x10000
    · cases n with
      | zero => simp [slice16, excess]
      | succ n =>
        simp only [slice16, excess, hc, decide_true, if_true, String.utf8Len, ih, utf8Size_eq,
          Nat.add_sub_cancel]
        omega
    · rcases n with _ | _ | n
      · simp [slice16, excess]
      · -- half of the character becomes the replacement character
        have hextra : extraBytes c = 2 := by
          rw [extraBytes, if_neg (by omega), if_neg (by omega)]
        have hslice : slice16 1 (c :: cs) = [Char.ofNat 0xFFFD] := by simp [slice16, hc]
        have hexcess : excess 1 (c :: cs) = 2 := by simp [excess, hc, hextra]
        have hreplacement : String.utf8Len [Char.ofNat 0xFFFD] = 3 := by decide
        rw [Nat.zero_add, hslice, hexcess, hreplacement, if_neg hc]
        omega
      · have hsub : n + 1 + 1 - 2 = n := by omega
        simp only [slice16, excess, hc, decide_false, if_false, String.utf8Len, ih, utf8Size_eq, hsub]
        omega

/-- The beginning of a text of a given length has at most so many bytes. -/
lemma utf8ByteSize_slice16_le_iff {n limit : ℕ} :
    (String.ofList (slice16 n cs)).utf8ByteSize ≤ limit ↔ min n (units cs) + excess n cs ≤ limit := by
  rw [String.utf8ByteSize_ofList, utf8Len_slice16]

end

end Js
