import Mathlib.Data.List.Basic

/-!
# UTF-8

Bytes are natural numbers below 256.  `encode` is the encoding of a text; `decode` is the decoder
that never fails: what is no character is replaced, and a byte that cannot go on with a character
begins the next one.  Decoding what has been encoded gives it back.
-/

namespace Utf8

/-- The replacement character. -/
def replacement : Char :=
  Char.ofNat 0xFFFD

/-- The bytes of a character. -/
def encodeChar (c : Char) : List ℕ :=
  let n := c.toNat
  if n < 0x80 then [n]
  else if n < 0x800 then [0xC0 + n / 0x40, 0x80 + n % 0x40]
  else if n < 0x10000 then [0xE0 + n / 0x1000, 0x80 + n / 0x40 % 0x40, 0x80 + n % 0x40]
  else [0xF0 + n / 0x40000, 0x80 + n / 0x1000 % 0x40, 0x80 + n / 0x40 % 0x40, 0x80 + n % 0x40]

/-- The bytes of a text. -/
def encode (cs : List Char) : List ℕ :=
  cs.flatMap encodeChar

/-- A character that is not complete: its bits so far, how many bytes are missing, and the bounds
of the next one. -/
structure Pending where
  bits : ℕ
  needed : ℕ
  lower : ℕ
  upper : ℕ

/-- The first byte of a character, which may be the only one. -/
def start (b : ℕ) : Char ⊕ Pending :=
  if b < 0x80 then .inl (Char.ofNat b)
  else if 0xC2 ≤ b ∧ b ≤ 0xDF then .inr ⟨b % 0x20, 1, 0x80, 0xBF⟩
  else if 0xE0 ≤ b ∧ b ≤ 0xEF then
    .inr ⟨b % 0x10, 2, if b = 0xE0 then 0xA0 else 0x80, if b = 0xED then 0x9F else 0xBF⟩
  else if 0xF0 ≤ b ∧ b ≤ 0xF4 then
    .inr ⟨b % 0x8, 3, if b = 0xF0 then 0x90 else 0x80, if b = 0xF4 then 0x8F else 0xBF⟩
  else .inl replacement

/-- The text of some bytes, after a character that may not be complete. -/
def decodeFrom : Option Pending → List ℕ → List Char
  | none, [] => []
  | some _, [] => [replacement]
  | none, b :: bs =>
    match start b with
    | .inl c => c :: decodeFrom none bs
    | .inr p => decodeFrom (some p) bs
  | some p, b :: bs =>
    if p.lower ≤ b ∧ b ≤ p.upper then
      if p.needed = 1 then Char.ofNat (p.bits * 0x40 + b % 0x40) :: decodeFrom none bs
      else decodeFrom (some ⟨p.bits * 0x40 + b % 0x40, p.needed - 1, 0x80, 0xBF⟩) bs
    else
      replacement :: match start b with
        | .inl c => c :: decodeFrom none bs
        | .inr p => decodeFrom (some p) bs

/-- The text of some bytes. -/
def decode (bs : List ℕ) : List Char :=
  decodeFrom none bs

section

variable {c : Char} {cs : List Char} {bs : List ℕ} {b bits needed lower upper : ℕ}

lemma lt_of_mem_encodeChar (hb : b ∈ encodeChar c) : b < 256 := by
  have hvalid : c.toNat < 0x110000 := by
    rcases c.valid with h | ⟨-, h⟩
    · exact Nat.lt_trans h (by decide)
    · exact h
  simp only [encodeChar] at hb
  split_ifs at hb <;> simp only [List.mem_cons, List.not_mem_nil, or_false] at hb <;> omega

lemma lt_of_mem_encode (hb : b ∈ encode cs) : b < 256 := by
  obtain ⟨c, -, hc⟩ := List.mem_flatMap.1 hb
  exact lt_of_mem_encodeChar hc

lemma decodeFrom_more (hlower : lower ≤ b) (hupper : b ≤ upper) :
    decodeFrom (some ⟨bits, needed + 2, lower, upper⟩) (b :: bs) =
      decodeFrom (some ⟨bits * 0x40 + b % 0x40, needed + 1, 0x80, 0xBF⟩) bs := by
  simp [decodeFrom, hlower, hupper]

lemma decodeFrom_last (hlower : lower ≤ b) (hupper : b ≤ upper) :
    decodeFrom (some ⟨bits, 1, lower, upper⟩) (b :: bs) =
      Char.ofNat (bits * 0x40 + b % 0x40) :: decodeFrom none bs := by
  simp [decodeFrom, hlower, hupper]

/-- The bytes of a character are read as this character. -/
lemma decodeFrom_encodeChar : decodeFrom none (encodeChar c ++ bs) = c :: decodeFrom none bs := by
  have hvalid : c.toNat < 0xD800 ∨ 0xDFFF < c.toNat ∧ c.toNat < 0x110000 := c.valid
  have hchar : ∀ n, n = c.toNat → Char.ofNat n = c := by
    rintro n rfl
    exact Char.ofNat_toNat c
  simp only [encodeChar]
  generalize c.toNat = n at hvalid hchar ⊢
  split_ifs with h₁ h₂ h₃
  · simp [decodeFrom, start, h₁, hchar]
  · have hstart : start (0xC0 + n / 0x40) = .inr ⟨(0xC0 + n / 0x40) % 0x20, 1, 0x80, 0xBF⟩ := by
      rw [start, if_neg (by omega), if_pos (by omega)]
    rw [List.cons_append, List.cons_append, List.nil_append, decodeFrom, hstart]
    dsimp only
    rw [decodeFrom_last (by omega) (by omega), hchar _ (by omega)]
  · have hstart : start (0xE0 + n / 0x1000) = .inr ⟨(0xE0 + n / 0x1000) % 0x10, 2,
        if 0xE0 + n / 0x1000 = 0xE0 then 0xA0 else 0x80,
        if 0xE0 + n / 0x1000 = 0xED then 0x9F else 0xBF⟩ := by
      rw [start, if_neg (by omega), if_neg (by omega), if_pos (by omega)]
    simp only [List.cons_append, List.nil_append]
    rw [decodeFrom, hstart]
    dsimp only
    rw [decodeFrom_more (by split_ifs <;> omega) (by split_ifs <;> omega),
      decodeFrom_last (by omega) (by omega), hchar _ (by omega)]
  · have hstart : start (0xF0 + n / 0x40000) = .inr ⟨(0xF0 + n / 0x40000) % 0x8, 3,
        if 0xF0 + n / 0x40000 = 0xF0 then 0x90 else 0x80,
        if 0xF0 + n / 0x40000 = 0xF4 then 0x8F else 0xBF⟩ := by
      rw [start, if_neg (by omega), if_neg (by omega), if_neg (by omega), if_pos (by omega)]
    simp only [List.cons_append, List.nil_append]
    rw [decodeFrom, hstart]
    dsimp only
    rw [decodeFrom_more (by split_ifs <;> omega) (by split_ifs <;> omega),
      decodeFrom_more (by omega) (by omega), decodeFrom_last (by omega) (by omega),
      hchar _ (by omega)]

theorem decode_encode (cs : List Char) : decode (encode cs) = cs := by
  induction cs with
  | nil => rfl
  | cons c cs ih =>
    rw [decode, encode, List.flatMap_cons, decodeFrom_encodeChar, ← encode]
    exact congrArg (c :: ·) ih

end

end Utf8
