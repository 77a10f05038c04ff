import Mathlib.Data.List.Basic

/-!
# Base64

Three bytes are written as four digits, and the last group is filled up with `=`.  The reader
skips what is no digit and takes the digits of the URL-safe alphabet too.  Reading what has
been written gives it back.
-/

namespace Base64

/-- The digits. -/
def alphabet : List Char :=
  "ABCDEFGHIJKLMNOPQRSTUVWXYZabcdefghijklmnopqrstuvwxyz0123456789+/".toList

/-- The digit of six bits. -/
def digit (n : ℕ) : Char :=
  alphabet.getD n 'A'

/-- The six bits of a digit. -/
def value (c : Char) : Option ℕ :=
  if c = '-' then some 62
  else if c = '_' then some 63
  else
    let n := alphabet.idxOf c
    if n < 64 then some n else none

/-- The digits of some bytes. -/
def encode : List ℕ → List Char
  | [] => []
  | [a] => [digit (a / 4), digit (a % 4 * 16), '=', '=']
  | [a, b] => [digit (a / 4), digit (a % 4 * 16 + b / 16), digit (b % 16 * 4), '=']
  | a :: b :: c :: rest =>
    digit (a / 4) :: digit (a % 4 * 16 + b / 16) :: digit (b % 16 * 4 + c / 64) ::
      digit (c % 64) :: encode rest

/-- The bytes of some groups of six bits; a last group without a second one is dropped. -/
def toBytes : List ℕ → List ℕ
  | a :: b :: c :: d :: rest =>
    (a * 4 + b / 16) :: (b % 16 * 16 + c / 4) :: (c % 4 * 64 + d) :: toBytes rest
  | [a, b, c] => [a * 4 + b / 16, b % 16 * 16 + c / 4]
  | [a, b] => [a * 4 + b / 16]
  | _ => []

/-- The bytes of a text. -/
def decode (cs : List Char) : List ℕ :=
  toBytes (cs.filterMap value)

lemma value_digit : ∀ n < 64, value (digit n) = some n := by
  decide +kernel

lemma value_padding : value '=' = none := by
  decide

theorem decode_encode {bs : List ℕ} (h : ∀ b ∈ bs, b < 256) : decode (encode bs) = bs := by
  induction bs using encode.induct with
  | case1 => rfl
  | case2 a =>
    have ha : a < 256 := h a (by simp)
    simp only [decode, encode, List.filterMap_cons, List.filterMap_nil, value_padding,
      value_digit (a / 4) (by omega), value_digit (a % 4 * 16) (by omega), toBytes]
    rw [show a / 4 * 4 + a % 4 * 16 / 16 = a by omega]
  | case3 a b =>
    have ha : a < 256 := h a (by simp)
    have hb : b < 256 := h b (by simp)
    simp only [decode, encode, List.filterMap_cons, List.filterMap_nil, value_padding,
      value_digit (a / 4) (by omega), value_digit (a % 4 * 16 + b / 16) (by omega),
      value_digit (b % 16 * 4) (by omega), toBytes]
    rw [show a / 4 * 4 + (a % 4 * 16 + b / 16) / 16 = a by omega,
      show (a % 4 * 16 + b / 16) % 16 * 16 + b % 16 * 4 / 4 = b by omega]
  | case4 a b c rest ih =>
    have ha : a < 256 := h a (by simp)
    have hb : b < 256 := h b (by simp)
    have hc : c < 256 := h c (by simp)
    have hrest : decode (encode rest) = rest := ih fun b hb => h b (by simp [hb])
    rw [decode] at hrest
    simp only [decode, encode, List.filterMap_cons, value_digit (a / 4) (by omega),
      value_digit (a % 4 * 16 + b / 16) (by omega), value_digit (b % 16 * 4 + c / 64) (by omega),
      value_digit (c % 64) (by omega), toBytes, hrest]
    rw [show a / 4 * 4 + (a % 4 * 16 + b / 16) / 16 = a by omega,
      show (a % 4 * 16 + b / 16) % 16 * 16 + (b % 16 * 4 + c / 64) / 4 = b by omega,
      show (b % 16 * 4 + c / 64) % 4 * 64 + c % 64 = c by omega]

end Base64
