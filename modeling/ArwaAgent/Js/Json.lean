import ArwaAgent.Js.Text

/-!
# JSON

`Json.stringify` and `Json.parse`.  The reader is a recursive descent with as much fuel as
any text can need.  Two facts about objects of strings are proved: their text reads back, and
no cut of it is read at all, however the cut falls, since the closing brace comes last.
-/

namespace Js

/-- The length of a text in code units of UTF-16. -/
def units (cs : List Char) : ℕ :=
  (cs.map fun c => if c.toNat < 0x10000 then 1 else 2).sum

namespace Json

/-! ### Writing -/

/-- A character inside a string. -/
def escapeChar (c : Char) : List Char :=
  if c = '"' then ['\\', '"']
  else if c = '\\' then ['\\', '\\']
  else if c.toNat = 8 then ['\\', 'b']
  else if c.toNat = 9 then ['\\', 't']
  else if c.toNat = 10 then ['\\', 'n']
  else if c.toNat = 12 then ['\\', 'f']
  else if c.toNat = 13 then ['\\', 'r']
  else if c.toNat < 0x20 then
    ['\\', 'u', '0', '0', Nat.digitChar (c.toNat / 16), Nat.digitChar (c.toNat % 16)]
  else [c]

/-- A text inside a string. -/
def escape (cs : List Char) : List Char :=
  cs.flatMap escapeChar

/-- A string, in its quotes. -/
def quote (s : String) : List Char :=
  '"' :: escape s.toList ++ ['"']

mutual

/-- `JSON.stringify(v)` -/
def stringify : Value → Option (List Char)
  | .undefined => none
  | .null => some "null".toList
  | .bool b => some (if b then "true".toList else "false".toList)
  | .num (.finite q) => some (Number.toStr (.finite q)).toList
  | .num _ => some "null".toList
  | .str s => some (quote s)
  | .arr elems => some ('[' :: [','].intercalate (elements elems) ++ [']'])
  | .obj fields => some ('{' :: [','].intercalate (members fields) ++ ['}'])

/-- The elements of an array; those that cannot be written are `null`. -/
def elements : List Value → List (List Char)
  | [] => []
  | v :: vs => (stringify v).getD "null".toList :: elements vs

/-- The members of an object; those that cannot be written are left out. -/
def members : List (String × Value) → List (List Char)
  | [] => []
  | (k, v) :: fields =>
    match stringify v with
    | some t => (quote k ++ ':' :: t) :: members fields
    | none => members fields

end

/-! ### Reading -/

/-- White space between the tokens. -/
def isWhite (c : Char) : Bool :=
  c.toNat ∈ [0x9, 0xA, 0xD, 0x20]

/-- The code unit that an escape stands for, and the rest. -/
def readEscape : List Char → Option (ℕ × List Char)
  | [] => none
  | e :: rest =>
    if e = '"' ∨ e = '\\' ∨ e = '/' then some (e.toNat, rest)
    else if e = 'b' then some (8, rest)
    else if e = 't' then some (9, rest)
    else if e = 'n' then some (10, rest)
    else if e = 'f' then some (12, rest)
    else if e = 'r' then some (13, rest)
    else if e = 'u' then
      let ds := rest.take 4
      if ds.length = 4 ∧ ds.all (isDigitOf 16) then some (ofDigits 16 ds, rest.drop 4) else none
    else none

/-- The rest of a string: its code points, or code units, up to the closing quote, and what
follows. -/
def readChars : ℕ → List Char → Option (List ℕ × List Char)
  | 0, _ => none
  | _ + 1, [] => none
  | fuel + 1, c :: rest =>
    if c = '"' then some ([], rest)
    else if c = '\\' then do
      let (u, rest) ← readEscape rest
      let (us, rest) ← readChars fuel rest
      return (u :: us, rest)
    else if c.toNat < 0x20 then none
    else do
      let (us, rest) ← readChars fuel rest
      return (c.toNat :: us, rest)

/-- The text that some code units make: surrogates are joined, and what is left of them is
the replacement character. -/
def ofUnits : List ℕ → List Char
  | [] => []
  | [u] => [if 0xD800 ≤ u ∧ u < 0xE000 then Char.ofNat 0xFFFD else Char.ofNat u]
  | u :: v :: us =>
    if 0xD800 ≤ u ∧ u < 0xDC00 ∧ 0xDC00 ≤ v ∧ v < 0xE000 then
      Char.ofNat (0x10000 + (u - 0xD800) * 0x400 + (v - 0xDC00)) :: ofUnits us
    else (if 0xD800 ≤ u ∧ u < 0xE000 then Char.ofNat 0xFFFD else Char.ofNat u) :: ofUnits (v :: us)

/-- The rest of a string as a string. -/
def readString (fuel : ℕ) (s : List Char) : Option (String × List Char) :=
  (readChars fuel s).map fun (us, rest) => (String.ofList (ofUnits us), rest)

/-- A number: no leading zeros, and a digit on both sides of the point. -/
def readNumber (s : List Char) : Option (Number × List Char) :=
  let (negative, t) := match s with
    | '-' :: r => (true, r)
    | _ => (false, s)
  let whole := t.takeWhile Char.isDigit
  let pointless := match t.dropWhile Char.isDigit with
    | '.' :: r => (r.takeWhile Char.isDigit).isEmpty
    | _ => false
  if whole = [] ∨ (1 < whole.length ∧ whole.head? = some '0') ∨ pointless then none
  else (decimalPrefix t).map fun (q, rest) => (Number.round (if negative then -q else q), rest)

/-- A field of an object that is being read; a later one replaces an earlier one of its name. -/
def setField (fields : List (String × Value)) (k : String) (v : Value) : List (String × Value) :=
  if k ∈ fields.map Prod.fst then fields.map fun f => if f.1 = k then (k, v) else f
  else fields ++ [(k, v)]

mutual

/-- A value, and the rest. -/
def readValue : ℕ → List Char → Option (Value × List Char)
  | 0, _ => none
  | fuel + 1, s =>
    match s.dropWhile isWhite with
    | [] => none
    | c :: r =>
      if c = '"' then (readString fuel r).map fun (s, rest) => (.str s, rest)
      else if c = '{' then
        match r.dropWhile isWhite with
        | '}' :: rest => some (.obj [], rest)
        | r => (readMembers fuel [] r).map fun (fields, rest) => (.obj fields, rest)
      else if c = '[' then
        match r.dropWhile isWhite with
        | ']' :: rest => some (.arr [], rest)
        | r => (readElements fuel r).map fun (elems, rest) => (.arr elems, rest)
      else if "null".toList.isPrefixOf (c :: r) then some (.null, r.drop 3)
      else if "true".toList.isPrefixOf (c :: r) then some (.bool true, r.drop 3)
      else if "false".toList.isPrefixOf (c :: r) then some (.bool false, r.drop 4)
      else (readNumber (c :: r)).map fun (x, rest) => (.num x, rest)

/-- The rest of an array that is not empty. -/
def readElements : ℕ → List Char → Option (List Value × List Char)
  | 0, _ => none
  | fuel + 1, s => do
    let (v, r) ← readValue fuel s
    match r.dropWhile isWhite with
    | ',' :: r => do
      let (vs, rest) ← readElements fuel r
      return (v :: vs, rest)
    | ']' :: rest => return ([v], rest)
    | _ => none

/-- The rest of an object that is not empty, after some fields. -/
def readMembers : ℕ → List (String × Value) → List Char →
    Option (List (String × Value) × List Char)
  | 0, _, _ => none
  | fuel + 1, fields, s =>
    match s.dropWhile isWhite with
    | '"' :: r => do
      let (k, r) ← readString fuel r
      match r.dropWhile isWhite with
      | ':' :: r => do
        let (v, r) ← readValue fuel r
        match r.dropWhile isWhite with
        | ',' :: r => readMembers fuel (setField fields k v) r
        | '}' :: rest => return (setField fields k v, rest)
        | _ => none
      | _ => none
    | _ => none

end

/-- `JSON.parse(s)`; `none` where it throws. -/
def parse (s : String) : Option Value :=
  match readValue (2 * s.toList.length + 2) s.toList with
  | some (v, rest) => if rest.all isWhite then some v else none
  | none => none

/-! ### Lengths -/

/-- The length of a text inside a string. -/
def innerLength (s : String) : ℕ :=
  units (escape s.toList)

/-! ### Strings read back -/

section

variable {c : Char} {s t rest : List Char} {fuel : ℕ}

lemma control_digits : ∀ n < 0x20,
    (['0', '0', Nat.digitChar (n / 16), Nat.digitChar (n % 16)].all (isDigitOf 16)) = true ∧
      ofDigits 16 ['0', '0', Nat.digitChar (n / 16), Nat.digitChar (n % 16)] = n := by
  decide

lemma readChars_escapeChar :
    readChars (fuel + 1) (escapeChar c ++ rest) =
      (readChars fuel rest).map fun r => (c.toNat :: r.1, r.2) := by
  rw [escapeChar]
  split_ifs with h₁ h₂ h₃ h₄ h₅ h₆ h₇ h₈
  · subst h₁
    cases h : readChars fuel rest <;> simp [readChars, readEscape, h]
  · subst h₂
    cases h : readChars fuel rest <;> simp [readChars, readEscape, h]
  · cases h : readChars fuel rest <;> simp [readChars, readEscape, h, h₃]
  · cases h : readChars fuel rest <;> simp [readChars, readEscape, h, h₄]
  · cases h : readChars fuel rest <;> simp [readChars, readEscape, h, h₅]
  · cases h : readChars fuel rest <;> simp [readChars, readEscape, h, h₆]
  · cases h : readChars fuel rest <;> simp [readChars, readEscape, h, h₇]
  · obtain ⟨hdigits, hvalue⟩ := control_digits c.toNat h₈
    cases h : readChars fuel rest <;>
      simp only [readChars, readEscape, List.cons_append, List.nil_append] <;>
      simp [h, hvalue, List.all_eq_true.1 hdigits]
  · cases h : readChars fuel rest <;> simp [readChars, h, h₁, h₂, h₈]

/-- A text that has been written is read back, if there is a unit of fuel for every character. -/
lemma readChars_escape :
    readChars fuel (escape s ++ '"' :: rest) =
      if s.length < fuel then some (s.map Char.toNat, rest) else none := by
  induction s generalizing fuel with
  | nil =>
    cases fuel with
    | zero => rfl
    | succ fuel => simp [escape, readChars]
  | cons c s ih =>
    cases fuel with
    | zero => rfl
    | succ fuel =>
      rw [escape, List.flatMap_cons, List.append_assoc, readChars_escapeChar, ← escape, ih]
      simp only [List.length_cons, Nat.add_lt_add_iff_right]
      split_ifs <;> rfl

lemma not_surrogate (c : Char) : ¬ (0xD800 ≤ c.toNat ∧ c.toNat < 0xE000) := by
  rcases c.valid with h | ⟨h, -⟩
  · exact fun h' => absurd h (Nat.not_lt.2 h'.1)
  · exact fun h' => absurd h (Nat.not_lt.2 (Nat.le_of_lt_succ h'.2))

lemma ofUnits_toNat : ofUnits (s.map Char.toNat) = s := by
  induction s with
  | nil => rfl
  | cons c s ih =>
    have hc := not_surrogate c
    cases s with
    | nil => rw [List.map_cons, List.map_nil, ofUnits, if_neg hc, Char.ofNat_toNat]
    | cons d s =>
      rw [List.map_cons, List.map_cons, ofUnits, if_neg (fun h => hc ⟨h.1, by omega⟩), if_neg hc,
        Char.ofNat_toNat, ← List.map_cons, ih]

/-- A string that has been written is read back. -/
lemma readString_quote {k : String} :
    readString fuel (escape k.toList ++ '"' :: rest) =
      if k.toList.length < fuel then some (k, rest) else none := by
  rw [readString, readChars_escape]
  split_ifs
  · simp only [Option.map_some, ofUnits_toNat, String.ofList_toList]
  · rfl

end

/-! ### Objects of strings -/

/-- The text of an object of strings after its opening brace. -/
def fieldsText : List (String × String) → List Char
  | [] => ['}']
  | [(k, v)] => quote k ++ ':' :: (quote v ++ ['}'])
  | (k, v) :: fields => quote k ++ ':' :: (quote v ++ ',' :: fieldsText fields)

/-- The fields that a reader has after some strings. -/
def setStrings (fields : List (String × Value)) (strings : List (String × String)) :
    List (String × Value) :=
  strings.foldl (fun fields s => setField fields s.1 (.str s.2)) fields

section

variable {fields : List (String × Value)} {strings : List (String × String)} {k v : String}
  {rest s t : List Char} {fuel : ℕ}

lemma intercalate_members : [','].intercalate (members (strings.map fun s => (s.1, .str s.2))) ++
    ['}'] = fieldsText strings := by
  induction strings with
  | nil => rfl
  | cons f strings ih =>
    cases strings with
    | nil => simp [members, stringify, fieldsText, List.intercalate]
    | cons g strings =>
      rw [fieldsText, ← ih]
      · simp [members, stringify, List.intercalate]
      · simp

lemma stringify_strings : stringify (.obj (strings.map fun s => (s.1, .str s.2))) =
    some ('{' :: fieldsText strings) := by
  rw [stringify, List.cons_append, intercalate_members]

lemma readValue_quote : readValue (fuel + 1) (quote v ++ rest) =
    if v.toList.length < fuel then some (.str v, rest) else none := by
  have hstr : readValue (fuel + 1) ('"' :: (escape v.toList ++ '"' :: rest)) =
      (readString fuel (escape v.toList ++ '"' :: rest)).map fun r => (.str r.1, r.2) := rfl
  rw [quote, List.cons_append, List.cons_append, List.append_assoc, List.singleton_append, hstr,
    readString_quote]
  split_ifs <;> rfl

/-- How the reading of an object goes on after a value. -/
def afterValue (fuel : ℕ) (fields : List (String × Value)) : List Char →
    Option (List (String × Value) × List Char)
  | ',' :: r => readMembers fuel fields r
  | '}' :: rest => some (fields, rest)
  | _ => none

/-- How the reading of an object goes on after the name of a field. -/
def afterName (fuel : ℕ) (fields : List (String × Value)) (k : String) : List Char →
    Option (List (String × Value) × List Char)
  | ':' :: r => do
    let (v, r) ← readValue fuel r
    afterValue fuel (setField fields k v) (r.dropWhile isWhite)
  | _ => none

lemma readMembers_quote : readMembers (fuel + 1) fields ('"' :: s) =
    (readString fuel s).bind fun r => afterName fuel fields r.1 (r.2.dropWhile isWhite) := by
  have hwhite : ('"' :: s).dropWhile isWhite = '"' :: s := rfl
  rw [readMembers, hwhite]
  rfl

lemma readMembers_name : readMembers (fuel + 1) fields (quote k ++ s) =
    if k.toList.length < fuel then afterName fuel fields k (s.dropWhile isWhite) else none := by
  rw [quote, List.cons_append, List.cons_append, List.append_assoc, List.singleton_append,
    readMembers_quote, readString_quote]
  split_ifs <;> rfl

lemma afterName_value : afterName (fuel + 1) fields k (':' :: (quote v ++ s)) =
    if v.toList.length < fuel then
      afterValue (fuel + 1) (setField fields k (.str v)) (s.dropWhile isWhite)
    else none := by
  rw [afterName, readValue_quote]
  split_ifs <;> rfl

lemma length_le_escape : s.length ≤ (escape s).length := by
  induction s with
  | nil => exact le_rfl
  | cons c s ih =>
    have hpos : 1 ≤ (escapeChar c).length := by
      rw [escapeChar]
      split_ifs <;> simp
    rw [escape, List.flatMap_cons, List.length_append, ← escape, List.length_cons]
    omega

lemma length_lt_quote : k.toList.length + 1 < (quote k).length := by
  have := length_le_escape (s := k.toList)
  simp only [quote, List.length_append, List.length_cons, List.length_nil]
  omega

/-- An object of strings is read back. -/
lemma readMembers_fieldsText (hne : strings ≠ []) (hfuel : (fieldsText strings).length ≤ fuel) :
    readMembers fuel fields (fieldsText strings ++ rest) =
      some (setStrings fields strings, rest) := by
  induction strings generalizing fields fuel with
  | nil => exact absurd rfl hne
  | cons f strings ih =>
    obtain ⟨k, v⟩ := f
    have hk := length_lt_quote (k := k)
    have hv := length_lt_quote (k := v)
    cases strings with
    | nil =>
      rw [fieldsText] at hfuel ⊢
      simp only [List.length_append, List.length_cons, List.length_nil] at hfuel
      obtain ⟨fuel, rfl⟩ : ∃ n, fuel = n + 1 + 1 := ⟨fuel - 2, by omega⟩
      rw [List.append_assoc, readMembers_name, if_pos (by omega)]
      show afterName _ _ _ (':' :: (quote v ++ ['}'] ++ rest)) = _
      rw [List.append_assoc, afterName_value, if_pos (by omega)]
      rfl
    | cons g strings =>
      have htext : fieldsText ((k, v) :: g :: strings) =
          quote k ++ ':' :: (quote v ++ ',' :: fieldsText (g :: strings)) := rfl
      rw [htext] at hfuel ⊢
      simp only [List.length_append, List.length_cons] at hfuel
      obtain ⟨fuel, rfl⟩ : ∃ n, fuel = n + 1 + 1 := ⟨fuel - 2, by omega⟩
      rw [List.append_assoc, readMembers_name, if_pos (by omega)]
      show afterName _ _ _ (':' :: (quote v ++ ',' :: fieldsText (g :: strings) ++ rest)) = _
      rw [List.append_assoc, afterName_value, if_pos (by omega)]
      exact ih (by simp) (by omega)

lemma exists_fieldsText (hne : strings ≠ []) : ∃ s, fieldsText strings = '"' :: s := by
  rcases strings with _ | ⟨f, _ | ⟨g, strings⟩⟩
  · exact absurd rfl hne
  · exact ⟨_, rfl⟩
  · exact ⟨_, rfl⟩

lemma readValue_object : readValue (fuel + 1) ('{' :: '"' :: s) =
    (readMembers fuel [] ('"' :: s)).map fun r => (.obj r.1, r.2) := rfl

/-- The text of an object of strings parses, and gives its fields. -/
lemma parse_strings (hne : strings ≠ []) :
    parse (String.ofList ('{' :: fieldsText strings)) = some (.obj (setStrings [] strings)) := by
  obtain ⟨s, hs⟩ := exists_fieldsText hne
  have hread := @readMembers_fieldsText [] strings [] _ hne
    (by rw [List.length_cons]; omega :
      (fieldsText strings).length ≤ 2 * ('{' :: fieldsText strings).length + 1)
  rw [List.append_nil] at hread
  rw [parse, String.toList_ofList, hs, readValue_object, ← hs, hread]
  rfl

/-! ### Cuts -/

/-- What is left of a text when it is cut off, possibly in the middle of a character. -/
inductive Cut : List Char → List Char → Prop
  | nil (c : Char) (s : List Char) : Cut (c :: s) []
  | half {c : Char} (s : List Char) (h : 0x10000 ≤ c.toNat) : Cut (c :: s) [Char.ofNat 0xFFFD]
  | cons (c : Char) {s t : List Char} (h : Cut s t) : Cut (c :: s) (c :: t)

lemma cut_of_units {n : ℕ} (h : n < units s) : Cut s (slice16 n s) := by
  induction s generalizing n with
  | nil => simp [units] at h
  | cons c s ih =>
    rw [units, List.map_cons, List.sum_cons, ← units] at h
    by_cases hc : c.toNat < 0x10000
    · rw [if_pos hc] at h
      cases n with
      | zero => simpa [slice16] using Cut.nil c s
      | succ n => simpa [slice16, hc] using Cut.cons c (ih (n := n) (by omega))
    · rw [if_neg hc] at h
      rcases n with _ | _ | n
      · simpa [slice16] using Cut.nil c s
      · simpa [slice16, hc] using Cut.half s (not_lt.1 hc)
      · simpa [slice16, hc] using Cut.cons c (ih (n := n) (by omega))

/-- A cut of two texts falls into the first one or into the second one. -/
lemma Cut.append (h : Cut (s ++ rest) t) : Cut s t ∨ ∃ t', t = s ++ t' ∧ Cut rest t' := by
  induction s generalizing t with
  | nil => exact Or.inr ⟨t, rfl, h⟩
  | cons c s ih =>
    cases h with
    | nil => exact Or.inl (.nil c s)
    | half _ hc => exact Or.inl (.half s hc)
    | cons _ hcut =>
      rcases ih hcut with hleft | ⟨t', rfl, hright⟩
      · exact Or.inl (.cons c hleft)
      · exact Or.inr ⟨t', rfl, hright⟩

lemma Cut.of_cons {c : Char} (h : Cut (c :: s) t) (hc : c.toNat < 0x10000) :
    t = [] ∨ ∃ t', t = c :: t' ∧ Cut s t' := by
  cases h with
  | nil => exact Or.inl rfl
  | half _ h => exact absurd hc (not_lt.2 h)
  | cons _ h => exact Or.inr ⟨_, rfl, h⟩

lemma not_cut_nil : ¬ Cut [] t := nofun

@[simp] lemma readChars_nil : readChars fuel [] = none := by
  cases fuel <;> rfl

lemma readChars_cut_pair {e : Char} (he : e.toNat < 0x10000) (h : Cut ['\\', e] t) :
    readChars fuel t = none := by
  rcases h.of_cons (by decide) with rfl | ⟨t₁, rfl, h₁⟩
  · exact readChars_nil
  · rcases h₁.of_cons he with rfl | ⟨t₂, rfl, h₂⟩
    · cases fuel <;> simp [readChars, readEscape]
    · exact absurd h₂ not_cut_nil

lemma readChars_cut_code {a b c d : Char} (ha : a.toNat < 0x10000) (hb : b.toNat < 0x10000)
    (hc : c.toNat < 0x10000) (hd : d.toNat < 0x10000) (h : Cut ['\\', 'u', a, b, c, d] t) :
    readChars fuel t = none := by
  rcases h.of_cons (by decide) with rfl | ⟨t₁, rfl, h₁⟩
  · exact readChars_nil
  rcases h₁.of_cons (by decide) with rfl | ⟨t₂, rfl, h₂⟩
  · cases fuel <;> simp [readChars, readEscape]
  rcases h₂.of_cons ha with rfl | ⟨t₃, rfl, h₃⟩
  · cases fuel <;> simp [readChars, readEscape]
  rcases h₃.of_cons hb with rfl | ⟨t₄, rfl, h₄⟩
  · cases fuel <;> simp [readChars, readEscape]
  rcases h₄.of_cons hc with rfl | ⟨t₅, rfl, h₅⟩
  · cases fuel <;> simp [readChars, readEscape]
  rcases h₅.of_cons hd with rfl | ⟨t₆, rfl, h₆⟩
  · cases fuel <;> simp [readChars, readEscape]
  · exact absurd h₆ not_cut_nil

lemma digitChar_lt : ∀ n < 0x20, (Nat.digitChar (n / 16)).toNat < 0x10000 ∧
    (Nat.digitChar (n % 16)).toNat < 0x10000 := by
  decide

lemma readChars_cut_escapeChar {c : Char} (h : Cut (escapeChar c) t) : readChars fuel t = none := by
  rw [escapeChar] at h
  split_ifs at h with h₁ h₂ h₃ h₄ h₅ h₆ h₇ h₈
  · exact readChars_cut_pair (by decide) h
  · exact readChars_cut_pair (by decide) h
  · exact readChars_cut_pair (by decide) h
  · exact readChars_cut_pair (by decide) h
  · exact readChars_cut_pair (by decide) h
  · exact readChars_cut_pair (by decide) h
  · exact readChars_cut_pair (by decide) h
  · obtain ⟨hc, hd⟩ := digitChar_lt c.toNat h₈
    exact readChars_cut_code (by decide) (by decide) hc hd h
  · cases h with
    | nil => exact readChars_nil
    | half _ h =>
      cases fuel with
      | zero => rfl
      | succ fuel => simp [readChars]
    | cons _ h => exact absurd h not_cut_nil

/-- A string that has been cut cannot be read, unless the cut comes after it. -/
lemma readChars_cut (h : Cut (escape s ++ '"' :: rest) t) :
    (∀ fuel, readChars fuel t = none) ∨ ∃ t', t = escape s ++ '"' :: t' ∧ Cut rest t' := by
  induction s generalizing t with
  | nil =>
    rcases h.of_cons (by decide) with rfl | ⟨t', rfl, hcut⟩
    · exact Or.inl fun _ => readChars_nil
    · exact Or.inr ⟨t', rfl, hcut⟩
  | cons c s ih =>
    rw [escape, List.flatMap_cons, ← escape, List.append_assoc] at h
    rcases h.append with hchar | ⟨t₁, rfl, hrest⟩
    · exact Or.inl fun _ => readChars_cut_escapeChar hchar
    · rcases ih hrest with hnone | ⟨t', rfl, hcut⟩
      · refine Or.inl fun fuel => ?_
        cases fuel with
        | zero => rfl
        | succ fuel => rw [readChars_escapeChar, hnone fuel, Option.map_none]
      · exact Or.inr ⟨t', by simp [escape], hcut⟩

lemma cut_quote (h : Cut (quote k ++ rest) t) :
    t = [] ∨ (∃ s, t = '"' :: s ∧ ∀ fuel, readString fuel s = none) ∨
      ∃ t', t = quote k ++ t' ∧ Cut rest t' := by
  rw [quote, List.cons_append, List.cons_append, List.append_assoc, List.singleton_append] at h
  rcases h.of_cons (by decide) with rfl | ⟨s, rfl, hs⟩
  · exact Or.inl rfl
  · rcases readChars_cut hs with hnone | ⟨t', rfl, hcut⟩
    · refine Or.inr (Or.inl ⟨s, rfl, fun fuel => ?_⟩)
      rw [readString, hnone fuel, Option.map_none]
    · exact Or.inr (Or.inr ⟨t', by simp [quote], hcut⟩)

/-- A member that has been cut cannot be read, nor one whose text goes on with a cut tail. -/
lemma readMembers_cut_member {tail : List Char}
    (htail : ∀ t fuel fields, Cut tail t → afterValue fuel fields (t.dropWhile isWhite) = none)
    (h : Cut (quote k ++ ':' :: (quote v ++ tail)) t) : readMembers fuel fields t = none := by
  cases fuel with
  | zero => rfl
  | succ fuel =>
    rcases cut_quote h with rfl | ⟨s, rfl, hnone⟩ | ⟨t₁, rfl, h₁⟩
    · rfl
    · rw [readMembers_quote, hnone fuel, Option.bind_none]
    · rw [readMembers_name]
      split_ifs
      · rcases h₁.of_cons (by decide) with rfl | ⟨t₂, rfl, h₂⟩
        · rfl
        · show afterName fuel fields k (':' :: t₂) = none
          cases fuel with
          | zero => rfl
          | succ fuel =>
            rcases cut_quote h₂ with rfl | ⟨s, rfl, hnone⟩ | ⟨t₃, rfl, h₃⟩
            · rfl
            · have hread : readValue (fuel + 1) ('"' :: s) =
                  (readString fuel s).map fun r => (.str r.1, r.2) := rfl
              rw [afterName, hread, hnone fuel]
              rfl
            · rw [afterName_value]
              split_ifs
              · exact htail t₃ _ _ h₃
              · rfl
      · rfl

lemma readMembers_cut (hne : strings ≠ []) (h : Cut (fieldsText strings) t) :
    readMembers fuel fields t = none := by
  induction strings generalizing fields fuel t with
  | nil => exact absurd rfl hne
  | cons f strings ih =>
    obtain ⟨k, v⟩ := f
    cases strings with
    | nil =>
      refine readMembers_cut_member (fun t fuel fields htail => ?_) h
      rcases htail.of_cons (by decide) with rfl | ⟨t', -, hnil⟩
      · rfl
      · exact absurd hnil not_cut_nil
    | cons g strings =>
      refine readMembers_cut_member (fun t fuel fields htail => ?_) h
      rcases htail.of_cons (by decide) with rfl | ⟨t', rfl, hrest⟩
      · rfl
      · exact ih (by simp) hrest

/-- No cut of an object of strings parses. -/
lemma parse_cut (hne : strings ≠ []) (h : Cut ('{' :: fieldsText strings) t) :
    parse (String.ofList t) = none := by
  obtain ⟨s, hs⟩ := exists_fieldsText hne
  rw [parse, String.toList_ofList]
  rcases h.of_cons (by decide) with rfl | ⟨t', rfl, hcut⟩
  · rfl
  · have hread : readValue (2 * ('{' :: t').length + 2) ('{' :: t') = none := by
      have hcut' := hcut
      rw [hs] at hcut'
      rcases hcut'.of_cons (by decide) with rfl | ⟨t'', rfl, -⟩
      · rfl
      · rw [readValue_object, readMembers_cut hne hcut, Option.map_none]
    rw [hread]

/-- An object of strings that is sliced parses exactly when nothing is cut off. -/
theorem parse_slice16 (hne : strings ≠ []) {n : ℕ} :
    parse (String.ofList (slice16 n ('{' :: fieldsText strings))) =
      if units ('{' :: fieldsText strings) ≤ n then some (.obj (setStrings [] strings))
      else none := by
  split_ifs with h
  · rw [slice16_eq_self h, parse_strings hne]
  · exact parse_cut hne (cut_of_units (not_le.1 h))

end

/-! ### The length of an object of strings -/

section

variable {c : Char} {s t : List Char} {k text : String} {n : ℕ}

lemma units_append : units (s ++ t) = units s + units t := by
  rw [units, List.map_append, List.sum_append]
  rfl

lemma units_cons (h : c.toNat < 0x10000) : units (c :: s) = units s + 1 := by
  rw [units, List.map_cons, List.sum_cons, if_pos h, Nat.add_comm]
  rfl

lemma units_quote : units (quote k) = innerLength k + 2 := by
  rw [quote, List.cons_append, units_cons (by decide), units_append]
  rfl

/-- Quotes, colon, and comma or brace take six code units for every field. -/
lemma units_fieldsText {strings : List (String × String)} (hne : strings ≠ []) :
    units (fieldsText strings) =
      (strings.map fun f => innerLength f.1 + innerLength f.2 + 6).sum := by
  induction strings with
  | nil => exact absurd rfl hne
  | cons f strings ih =>
    obtain ⟨k, v⟩ := f
    cases strings with
    | nil =>
      rw [fieldsText, units_append, units_cons (by decide), units_append, units_quote, units_quote]
      simp only [List.map_cons, List.map_nil, List.sum_cons, List.sum_nil]
      show innerLength k + 2 + (innerLength v + 2 + 1 + 1) = _
      omega
    | cons g strings =>
      have htext : fieldsText ((k, v) :: g :: strings) =
          quote k ++ ':' :: (quote v ++ ',' :: fieldsText (g :: strings)) := rfl
      rw [htext, units_append, units_cons (by decide), units_append, units_cons (by decide),
        units_quote, units_quote, ih (by simp)]
      simp only [List.map_cons, List.sum_cons]
      omega

lemma escapeChar_of_isDigitOf (h : isDigitOf n c = true) : escapeChar c = [c] := by
  have hquote : c ≠ '"' := by
    rintro rfl
    exact absurd (Bool.and_eq_true_iff.1 h).1 (by decide)
  have hbackslash : c ≠ '\\' := by
    rintro rfl
    exact absurd (Bool.and_eq_true_iff.1 h).1 (by decide)
  have hge : 48 ≤ c.toNat := (toNat_of_isDigitOf h).1
  rw [escapeChar, if_neg hquote, if_neg hbackslash, if_neg (by omega), if_neg (by omega),
    if_neg (by omega), if_neg (by omega), if_neg (by omega), if_neg (by omega)]

lemma innerLength_of_isHex (h : IsHex n text) : innerLength text = n := by
  have hescape : ∀ cs : List Char, (∀ c ∈ cs, isDigitOf 16 c = true) → escape cs = cs := by
    intro cs hcs
    induction cs with
    | nil => rfl
    | cons c cs ih =>
      rw [escape, List.flatMap_cons, escapeChar_of_isDigitOf (hcs c (List.mem_cons_self ..)),
        ← escape, ih fun d hd => hcs d (List.mem_cons_of_mem _ hd)]
      rfl
  rw [innerLength, hescape _ h.digits]
  exact h.length16

end

end Json

end Js
