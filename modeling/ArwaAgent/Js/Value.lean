import ArwaAgent.Js.Number

/-!
# JavaScript values

What arrives from outside is any JSON value, and the program reads it as it is: a
missing field is `undefined`, reading a field of `undefined` or `null` throws, and
operators convert.  Conversions throw only on an object with a field of its own named
`toString`, since a field of a JSON value is never a function.
-/

namespace Js

/-- A thrown error. -/
structure Error where
  message : String
  deriving DecidableEq

@[simp] lemma ok_bind {ε α β : Type} (a : α) (f : α → Except ε β) :
    (Except.ok a >>= f) = f a := rfl

lemma bind_eq_ok {ε α β : Type} {x : Except ε α} {f : α → Except ε β} {b : β} :
    x >>= f = .ok b ↔ ∃ a, x = .ok a ∧ f a = .ok b := by
  cases x with
  | error e => exact ⟨(fun h => nomatch h), fun ⟨_, h, _⟩ => nomatch h⟩
  | ok a =>
    constructor
    · exact fun h => ⟨a, rfl, h⟩
    · rintro ⟨_, ⟨⟩, h⟩
      exact h

lemma exists_of_isOk {ε α : Type} {x : Except ε α} (h : x.isOk = true) : ∃ a, x = .ok a := by
  cases x with
  | error e => cases h
  | ok a => exact ⟨a, rfl⟩

/-- `undefined` and the JSON values. -/
inductive Value
  | undefined
  | null
  | bool (b : Bool)
  | num (x : Number)
  | str (s : String)
  | arr (elems : List Value)
  | obj (fields : List (String × Value))
  deriving Inhabited

/-- `s.length`: characters beyond the first 2^16 count twice. -/
def length16 (s : String) : ℕ :=
  (s.toList.map fun c => if c.toNat < 0x10000 then 1 else 2).sum

namespace Value

/-- `v.name` on a value that has fields. -/
def ownField (name : String) : Value → Value
  | str s => if name = "length" then num (.finite (length16 s)) else undefined
  | arr elems => if name = "length" then num (.finite elems.length) else undefined
  | obj fields => (fields.lookup name).getD undefined
  | _ => undefined

/-- `v.name` -/
def field (v : Value) (name : String) : Except Error Value :=
  match v with
  | undefined => .error ⟨s!"Cannot read properties of undefined (reading '{name}')"⟩
  | null => .error ⟨s!"Cannot read properties of null (reading '{name}')"⟩
  | v => .ok (v.ownField name)

lemma field_eq_ok {v w : Value} {name : String} (h : v.field name = .ok w) :
    w = v.ownField name := by
  cases v <;> first | exact (Except.ok.inj h).symm | cases h

lemma exists_field {v w : Value} {name : String} (h : v.field name = .ok w) (name' : String) :
    ∃ w', v.field name' = .ok w' := by
  cases v <;> first | exact ⟨_, rfl⟩ | cases h

/-- `v?.name`: the values without fields have only undefined ones. -/
def field? (v : Value) (name : String) : Value :=
  v.ownField name

/-- `v?.[i]` on the values that have indices. -/
def index? (v : Value) (i : ℕ) : Value :=
  match v with
  | arr elems => elems[i]?.getD undefined
  | str s => (s.toList[i]?.map fun c => str (String.ofList [c])).getD undefined
  | _ => undefined

/-- What counts as true in a condition. -/
def truthy : Value → Bool
  | undefined | null => false
  | bool b => b
  | num x => x.truthy
  | str s => s ≠ ""
  | arr _ | obj _ => true

/-- `v || w` -/
def or (v w : Value) : Value :=
  if v.truthy then v else w

/-- `v ?? w` -/
def orElse (v w : Value) : Value :=
  match v with
  | undefined | null => w
  | v => v

/-- `v === s` for a string `s`. -/
def is (v : Value) (s : String) : Bool :=
  match v with
  | str t => t = s
  | _ => false

/-- `v === q` for a number `q`. -/
def isNumber (v : Value) (q : ℚ) : Bool :=
  match v with
  | num (.finite p) => p = q
  | _ => false

mutual

/-- `String(v)` -/
def toStr : Value → Except Error String
  | undefined => .ok "undefined"
  | null => .ok "null"
  | bool b => .ok (if b then "true" else "false")
  | num x => .ok x.toStr
  | str s => .ok s
  | arr elems => do return ",".intercalate (← elemStrs elems)
  | obj fields =>
    if (fields.lookup "toString").isSome then
      .error ⟨"Cannot convert object to primitive value"⟩
    else .ok "[object Object]"

/-- The strings that `join` puts together. -/
def elemStrs : List Value → Except Error (List String)
  | [] => .ok []
  | undefined :: vs => do return "" :: (← elemStrs vs)
  | null :: vs => do return "" :: (← elemStrs vs)
  | v :: vs => do return (← v.toStr) :: (← elemStrs vs)

end

/-- `Number(v)`, which the comparisons and `Math` apply to their arguments too. -/
def toNumber : Value → Except Error Number
  | undefined => .ok .nan
  | null => .ok (.finite 0)
  | bool b => .ok (.finite (if b then 1 else 0))
  | num x => .ok x
  | str s => .ok (stringToNumber s)
  | v => do return stringToNumber (← v.toStr)

/-- `x + v` for a number `x`: what becomes a text is appended to it. -/
def addTo (x : Number) : Value → Except Error Value
  | str s => .ok (str (x.toStr ++ s))
  | arr elems => do return str (x.toStr ++ (← (arr elems).toStr))
  | obj fields => do return str (x.toStr ++ (← (obj fields).toStr))
  | v => do return num (x.add (← v.toNumber))

/-- `{ ...v, name: w }`: the elements of a list and the characters of a text, below 2^16, are
fields too. -/
def withField (v : Value) (name : String) (w : Value) : Value :=
  let fields := match v with
    | obj fields => fields
    | arr elems => elems.mapIdx fun i e => (toString i, e)
    | str s => s.toList.mapIdx fun i c => (toString i, str (String.ofList [c]))
    | _ => []
  obj ((name, w) :: fields.filter (·.1 ≠ name))

/-- `BigInt(s)` for a string. -/
def bigIntOfString (s : String) : Except Error ℤ :=
  match stringToBigInt s with
  | some n => .ok n
  | none => .error ⟨s!"Cannot convert {s} to a BigInt"⟩

/-- `BigInt(v)` -/
def toBigInt : Value → Except Error ℤ
  | undefined => .error ⟨"Cannot convert undefined to a BigInt"⟩
  | null => .error ⟨"Cannot convert null to a BigInt"⟩
  | bool b => .ok (if b then 1 else 0)
  | num (.finite q) =>
    if q.den = 1 then .ok q.num
    else .error ⟨s!"The number {Number.toStr (.finite q)} cannot be converted to a BigInt because it is not an integer"⟩
  | num x =>
    .error ⟨s!"The number {x.toStr} cannot be converted to a BigInt because it is not an integer"⟩
  | str s => bigIntOfString s
  | v => do bigIntOfString (← v.toStr)

end Value

/-- `s.replace(c, '')` for one character: the first occurrence goes. -/
def removeFirst (s : String) (c : Char) : String :=
  String.ofList (s.toList.erase c)

/-- `s.slice(0, n)`; half of a character beyond the first 2^16 becomes the replacement
character, as it does when the string is encoded. -/
def slice16 (n : ℕ) : List Char → List Char
  | [] => []
  | c :: cs =>
    match n, decide (c.toNat < 0x10000) with
    | 0, _ => []
    | n + 1, true => c :: slice16 n cs
    | 1, false => [Char.ofNat 0xFFFD]
    | n + 2, false => c :: slice16 n cs

end Js
