import Mathlib.Data.Int.Log
import Mathlib.Data.Rat.Floor

/-!
# JavaScript numbers

A Number is NaN, an infinity or a finite double; a finite double is the rational it
stands for, the two zeros being one.  Arithmetic is exact arithmetic followed by
`Number.round`, which rounds to the nearest double, ties to even.

Strings are read character by character, as the grammar of numeric literals says:
`decimalPrefix` is the longest prefix that is a decimal literal, shared by `Number(s)`
and `parseFloat(s)`, and `stringToBigInt` is the reading of `BigInt(s)`.
-/

namespace Js

/-- A Number. -/
inductive Number
  | nan
  | infinity (negative : Bool)
  | finite (q : ℚ)
  deriving DecidableEq

namespace Number

/-- The nearest integer, ties to even. -/
def roundHalfEven (x : ℚ) : ℤ :=
  let d := x - ⌊x⌋
  if d < 1 / 2 then ⌊x⌋
  else if 1 / 2 < d then ⌊x⌋ + 1
  else if ⌊x⌋ % 2 = 0 then ⌊x⌋
  else ⌊x⌋ + 1

/-- The double nearest to a rational: 53 significant bits, exponents from -1074 on, and an
infinity from 2^1024 on. -/
def round (q : ℚ) : Number :=
  if q = 0 then finite 0
  else
    let e := max (Int.log 2 |q| - 52) (-1074)
    let r := roundHalfEven (|q| / 2 ^ e) * (2 : ℚ) ^ e
    if 2 ^ 1024 ≤ r then infinity (q < 0)
    else finite (if q < 0 then -r else r)

/-- `x - y` -/
def sub : Number → Number → Number
  | nan, _ | _, nan => nan
  | infinity a, infinity b => if a = b then nan else infinity a
  | infinity a, finite _ => infinity a
  | finite _, infinity b => infinity !b
  | finite p, finite q => round (p - q)

/-- `-x` -/
def neg : Number → Number
  | nan => nan
  | infinity a => infinity !a
  | finite q => finite (-q)

/-- `x + y` -/
def add (x y : Number) : Number :=
  x.sub y.neg

/-- `x * y` -/
def mul : Number → Number → Number
  | nan, _ | _, nan => nan
  | infinity a, infinity b => infinity (a != b)
  | infinity a, finite q | finite q, infinity a =>
    if q = 0 then nan else infinity (a != decide (q < 0))
  | finite p, finite q => round (p * q)

/-- `Math.floor(x)` -/
def floor : Number → Number
  | finite q => finite ⌊q⌋
  | x => x

/-- `x / y` -/
def div : Number → Number → Number
  | nan, _ | _, nan => nan
  | infinity _, infinity _ => nan
  | infinity a, finite q => infinity (a != decide (q < 0))
  | finite _, infinity _ => finite 0
  | finite p, finite q =>
    if q = 0 then if p = 0 then nan else infinity (p < 0)
    else round (p / q)

/-- `x < y`, which is false as soon as one side is NaN. -/
def lt : Number → Number → Bool
  | nan, _ | _, nan => false
  | infinity a, infinity b => a && !b
  | infinity a, finite _ => a
  | finite _, infinity b => !b
  | finite p, finite q => p < q

/-- `Math.max(x, y)` -/
def max (x y : Number) : Number :=
  if x = nan ∨ y = nan then nan else if x.lt y then y else x

/-- `Math.min(x, y)` -/
def min (x y : Number) : Number :=
  if x = nan ∨ y = nan then nan else if y.lt x then y else x

/-- A number counts as true unless it is zero or NaN. -/
def truthy : Number → Bool
  | nan => false
  | infinity _ => true
  | finite q => q ≠ 0

/-- The shortest decimal digits that round to the double `q`, with at least `k` of them,
and the exponent of the first one; `fuel` bounds the search. -/
def shortestDigits (q : ℚ) (n : ℤ) (k : ℕ) : ℕ → ℤ × ℕ
  | 0 => (roundHalfEven (q / 10 ^ (n - k)), k)
  | fuel + 1 =>
    let s := roundHalfEven (q / 10 ^ (n - k))
    if round (s * (10 : ℚ) ^ (n - k)) = finite q then (s, k) else shortestDigits q n (k + 1) fuel

/-- `String(q)` for a positive double: plain digits from 10^-7 to 10^21, else an exponent. -/
def positiveToString (q : ℚ) : String :=
  let n := Int.log 10 q + 1
  let (s, k) := shortestDigits q n 1 16
  let digits := toString s
  if k ≤ n ∧ n ≤ 21 then digits ++ String.ofList (List.replicate (n - k).toNat '0')
  else if 0 < n ∧ n ≤ 21 then
    String.ofList (digits.toList.take n.toNat) ++ "." ++ String.ofList (digits.toList.drop n.toNat)
  else if -6 < n ∧ n ≤ 0 then "0." ++ String.ofList (List.replicate (-n).toNat '0') ++ digits
  else
    let e := if 0 < n then "e+" ++ toString (n - 1) else "e-" ++ toString (1 - n)
    if k = 1 then digits ++ e
    else String.ofList (digits.toList.take 1) ++ "." ++ String.ofList (digits.toList.drop 1) ++ e

/-- `x.toFixed(d)` for a double below 10^21: the nearest decimal, upwards on a tie. -/
def finiteToFixed (q : ℚ) (d : ℕ) : String :=
  let n := ⌊|q| * 10 ^ d + 1 / 2⌋.toNat
  let fraction := toString (n % 10 ^ d)
  let sign := if q < 0 then "-" else ""
  if d = 0 then sign ++ toString n
  else sign ++ toString (n / 10 ^ d) ++ "." ++
    String.ofList (List.replicate (d - fraction.length) '0') ++ fraction

/-- `String(x)` -/
def toStr : Number → String
  | nan => "NaN"
  | infinity negative => if negative then "-Infinity" else "Infinity"
  | finite q =>
    if q = 0 then "0" else if q < 0 then "-" ++ positiveToString (-q) else positiveToString q

/-- `x.toFixed(d)` -/
def toFixed (x : Number) (d : ℕ) : String :=
  match x with
  | finite q => if |q| < 10 ^ 21 then finiteToFixed q d else toStr x
  | x => toStr x

/-! ### Bounds -/

@[simp] lemma finite_lt_finite (p q : ℚ) : (finite p).lt (finite q) = decide (p < q) := rfl

@[simp] lemma max_eq_nan {x y : Number} : x.max y = nan ↔ x = nan ∨ y = nan := by
  constructor
  · intro h
    by_contra hnot
    rw [max, if_neg hnot] at h
    rw [not_or] at hnot
    split at h
    · exact hnot.2 h
    · exact hnot.1 h
  · exact fun h => if_pos h

@[simp] lemma min_eq_nan {x y : Number} : x.min y = nan ↔ x = nan ∨ y = nan := by
  constructor
  · intro h
    by_contra hnot
    rw [min, if_neg hnot] at h
    rw [not_or] at hnot
    split at h
    · exact hnot.2 h
    · exact hnot.1 h
  · exact fun h => if_pos h

lemma round_ne_nan (q : ℚ) : round q ≠ nan := by
  intro h
  simp only [round] at h
  split_ifs at h

@[simp] lemma sub_finite_eq_nan {x : Number} {q : ℚ} : x.sub (finite q) = nan ↔ x = nan := by
  cases x with
  | nan => simp [sub]
  | infinity negative => simp [sub]
  | finite p => exact iff_of_false (round_ne_nan _) (by simp)

lemma finite_max_finite (p q : ℚ) : (finite p).max (finite q) = finite (p ⊔ q) := by
  rw [max, if_neg (by simp), finite_lt_finite]
  by_cases h : p < q
  · rw [if_pos (decide_eq_true h), sup_of_le_right h.le]
  · rw [if_neg (by simpa using h), sup_of_le_left (not_lt.1 h)]

lemma finite_min_finite (p q : ℚ) : (finite p).min (finite q) = finite (p ⊓ q) := by
  rw [min, if_neg (by simp), finite_lt_finite]
  by_cases h : q < p
  · rw [if_pos (decide_eq_true h), inf_of_le_right h.le]
  · rw [if_neg (by simpa using h), inf_of_le_left (not_lt.1 h)]

lemma max_finite_lt {p q : ℚ} (h : p ≤ q) (x : Number) :
    (x.max (finite q)).lt (finite p) = false := by
  have hq : (finite q).lt (finite p) = false := decide_eq_false (not_lt.2 h)
  cases x with
  | nan => rfl
  | infinity negative => cases negative <;> first | rfl | exact hq
  | finite r =>
    rw [finite_max_finite, finite_lt_finite]
    exact decide_eq_false (not_lt.2 (h.trans le_sup_right))

lemma finite_max_lt {p q : ℚ} (h : p ≤ q) (x : Number) :
    ((finite q).max x).lt (finite p) = false := by
  have hq : (finite q).lt (finite p) = false := decide_eq_false (not_lt.2 h)
  cases x with
  | nan => rfl
  | infinity negative => cases negative <;> first | rfl | exact hq
  | finite r =>
    rw [finite_max_finite, finite_lt_finite]
    exact decide_eq_false (not_lt.2 (h.trans le_sup_left))

/-- Clamping moves no number across a bound inside the range. -/
lemma clamp_lt {lo p hi : ℚ} (hlo : lo < p) (hhi : p ≤ hi) (x : Number) :
    ((finite lo).max ((finite hi).min x)).lt (finite p) = x.lt (finite p) := by
  cases x with
  | nan => rfl
  | infinity negative =>
    cases negative with
    | false =>
      -- infinity is cut to `hi`
      exact max_finite_lt hhi (finite lo)
    | true => exact decide_eq_true hlo
  | finite r =>
    rw [finite_min_finite, finite_max_finite, finite_lt_finite, finite_lt_finite,
      decide_eq_decide, sup_lt_iff, inf_lt_iff]
    exact ⟨fun h => h.2.resolve_left (not_lt.2 hhi), fun h => ⟨hlo, Or.inr h⟩⟩

end Number

/-! ### Reading numbers -/

/-- White space and line ends. -/
def isSpace (c : Char) : Bool :=
  c.toNat ∈ [0x9, 0xA, 0xB, 0xC, 0xD, 0x20, 0xA0, 0x1680, 0x2000, 0x2001, 0x2002, 0x2003, 0x2004,
    0x2005, 0x2006, 0x2007, 0x2008, 0x2009, 0x200A, 0x2028, 0x2029, 0x202F, 0x205F, 0x3000, 0xFEFF]

/-- `s.trim()` -/
def trim (s : List Char) : List Char :=
  ((s.dropWhile isSpace).reverse.dropWhile isSpace).reverse

/-- The value of a digit in bases up to 16. -/
def digitValue (c : Char) : ℕ :=
  if c.isDigit then c.toNat - '0'.toNat else c.toLower.toNat - 'a'.toNat + 10

/-- Digits of a base, read from the left. -/
def ofDigits (base : ℕ) (ds : List Char) : ℕ :=
  ds.foldl (fun n d => n * base + digitValue d) 0

/-- A character that is a digit of the base. -/
def isDigitOf (base : ℕ) (c : Char) : Bool :=
  (c.isDigit || c.isAlpha) && digitValue c < base

/-- A literal in base 16, 8 or 2, with its prefix. -/
def prefixedLiteral : List Char → Option ℕ
  | '0' :: b :: ds =>
    let base := match b.toLower with
      | 'x' => 16
      | 'o' => 8
      | 'b' => 2
      | _ => 0
    if base ≠ 0 ∧ ds ≠ [] ∧ ds.all (isDigitOf base) then some (ofDigits base ds) else none
  | _ => none

/-- An exponent with at least one digit, and the rest; zero when there is none. -/
def exponentPart (s : List Char) : ℤ × List Char :=
  match s with
  | c :: r =>
    if c.toLower = 'e' then
      let (sign, ds) := match r with
        | '-' :: ds => (-1, ds)
        | '+' :: ds => (1, ds)
        | ds => ((1 : ℤ), ds)
      let (e, rest) := ds.span Char.isDigit
      if e = [] then (0, s) else (sign * ofDigits 10 e, rest)
    else (0, s)
  | [] => (0, s)

/-- The longest prefix that is an unsigned decimal literal, and the rest. -/
def decimalPrefix (s : List Char) : Option (ℚ × List Char) :=
  let (whole, rest) := s.span Char.isDigit
  let (fraction, rest) := match rest with
    | '.' :: r =>
      let (f, r') := r.span Char.isDigit
      if whole = [] ∧ f = [] then ([], rest) else (f, r')
    | _ => ([], rest)
  if whole = [] ∧ fraction = [] then none
  else
    let (e, rest) := exponentPart rest
    some (ofDigits 10 (whole ++ fraction) * (10 : ℚ) ^ (e - fraction.length), rest)

/-- The longest prefix that is a signed decimal literal or infinity, and the rest. -/
def signedPrefix (s : List Char) : Option (Number × List Char) :=
  let (negative, s) := match s with
    | '-' :: r => (true, r)
    | '+' :: r => (false, r)
    | _ => (false, s)
  if "Infinity".toList.isPrefixOf s then some (.infinity negative, s.drop 8)
  else (decimalPrefix s).map fun (q, rest) => (Number.round (if negative then -q else q), rest)

/-- `parseFloat(s)` -/
def parseFloat (s : String) : Number :=
  ((signedPrefix (s.toList.dropWhile isSpace)).map Prod.fst).getD .nan

/-- `parseInt(s, 10)` -/
def parseInt (s : String) : Number :=
  let (negative, t) := match s.toList.dropWhile isSpace with
    | '-' :: r => (true, r)
    | '+' :: r => (false, r)
    | r => (false, r)
  let ds := t.takeWhile Char.isDigit
  if ds = [] then .nan
  else Number.round (if negative then -(ofDigits 10 ds : ℚ) else ofDigits 10 ds)

/-- `Number(s)` -/
def stringToNumber (s : String) : Number :=
  let t := trim s.toList
  if t = [] then .finite 0
  else match prefixedLiteral t with
    | some n => Number.round n
    | none =>
      match signedPrefix t with
      | some (x, []) => x
      | _ => .nan

/-- What `BigInt(s)` reads, if the string is an integer literal. -/
def stringToBigInt (s : String) : Option ℤ :=
  let t := trim s.toList
  if t = [] then some 0
  else match prefixedLiteral t with
    | some n => some n
    | none =>
      let (sign, ds) := match t with
        | '-' :: ds => (-1, ds)
        | '+' :: ds => (1, ds)
        | ds => ((1 : ℤ), ds)
      if ds ≠ [] ∧ ds.all Char.isDigit then some (sign * ofDigits 10 ds) else none

end Js
