import ArwaAgent.Js.Indented

/-!
# Nested JSON

`Spells v t` says that the text `t` is JSON for the value `v`, with any white space between the
tokens, for trees of integers, texts and the like whose objects name no field twice (`Readable`).
`JSON.parse` reads every such text as its value (`parse_spells`), and `JSON.stringify` writes one
(`spells_stringify`), so that what is written is read back (`parse_stringify`).  The readers are
followed over the whole text: each of them takes what is there for it, and leaves what follows.
-/

namespace Js.Json

/-- A text of white space. -/
def White (w : List Char) : Prop :=
  ∀ c ∈ w, isWhite c = true

/-- A text that `trim` removes. -/
def Blank (w : List Char) : Prop :=
  ∀ c ∈ w, isSpace c = true

instance (w : List Char) : Decidable (Blank w) := List.decidableBAll _ w

/-- An integer as it is written. -/
def intText (z : ℤ) : List Char :=
  if z < 0 then '-' :: Nat.toDigits 10 z.natAbs else Nat.toDigits 10 z.natAbs

mutual

/-- A value that reads back: integers of up to 15 digits, texts, booleans and `null`, in lists and
in objects. -/
def Readable : Value → Prop
  | .undefined => False
  | .null | .bool _ | .str _ => True
  | .num x => ∃ z : ℤ, |z| < 10 ^ 15 ∧ x = .finite z
  | .arr elems => ReadableElements elems
  | .obj fields => (fields.map Prod.fst).Nodup ∧ ReadableMembers fields

/-- Elements that read back. -/
def ReadableElements : List Value → Prop
  | [] => True
  | v :: vs => Readable v ∧ ReadableElements vs

/-- Members that read back. -/
def ReadableMembers : List (String × Value) → Prop
  | [] => True
  | (_, v) :: fields => Readable v ∧ ReadableMembers fields

end

mutual

/-- The text is JSON for the value. -/
def Spells : Value → List Char → Prop
  | .undefined, _ => False
  | .null, t => t = "null".toList
  | .bool b, t => t = if b then "true".toList else "false".toList
  | .num x, t => ∃ z : ℤ, |z| < 10 ^ 15 ∧ x = .finite z ∧ t = intText z
  | .str s, t => t = quote s
  | .arr elems, t => ∃ body, t = '[' :: (body ++ [']']) ∧ SpellsElements elems body
  | .obj fields, t => (fields.map Prod.fst).Nodup ∧
      ∃ body, t = '{' :: (body ++ ['}']) ∧ SpellsMembers fields body

/-- What stands between the brackets of a list. -/
def SpellsElements : List Value → List Char → Prop
  | [], t => White t
  | v :: vs, t => ∃ w text w', White w ∧ Spells v text ∧ White w' ∧
      ((vs = [] ∧ t = w ++ (text ++ w')) ∨
        (vs ≠ [] ∧ ∃ rest, t = w ++ (text ++ (w' ++ ',' :: rest)) ∧ SpellsElements vs rest))

/-- What stands between the braces of an object. -/
def SpellsMembers : List (String × Value) → List Char → Prop
  | [], t => White t
  | (k, v) :: fields, t => ∃ w w₁ w₂ text w', White w ∧ White w₁ ∧ White w₂ ∧ Spells v text ∧
      White w' ∧
      ((fields = [] ∧ t = w ++ (quote k ++ (w₁ ++ ':' :: (w₂ ++ (text ++ w'))))) ∨
        (fields ≠ [] ∧ ∃ rest,
          t = w ++ (quote k ++ (w₁ ++ ':' :: (w₂ ++ (text ++ (w' ++ ',' :: rest))))) ∧
            SpellsMembers fields rest))

end

section

variable {v : Value} {vs : List Value} {fields members : List (String × Value)} {k : String}
  {t s w rest : List Char} {c : Char} {fuel n : ℕ} {z : ℤ}

/-! ### White space -/

lemma isSpace_of_isWhite {c : Char} (hc : isWhite c = true) : isSpace c = true := by
  rw [isWhite, decide_eq_true_eq] at hc
  rw [isSpace, decide_eq_true_eq]
  simp only [List.mem_cons, List.not_mem_nil, or_false] at hc ⊢
  tauto

lemma White.blank (hw : White w) : Blank w :=
  fun c hc => isSpace_of_isWhite (hw c hc)

lemma readValue_append (hw : White w) : readValue fuel (w ++ t) = readValue fuel t := by
  induction w with
  | nil => rfl
  | cons c w ih =>
    rw [List.cons_append, readValue_white (hw c List.mem_cons_self)]
    exact ih fun c hc => hw c (List.mem_cons_of_mem _ hc)

lemma readMembers_append (hw : White w) :
    readMembers fuel fields (w ++ t) = readMembers fuel fields t := by
  induction w with
  | nil => rfl
  | cons c w ih =>
    rw [List.cons_append, readMembers_white (hw c List.mem_cons_self)]
    exact ih fun c hc => hw c (List.mem_cons_of_mem _ hc)

lemma readElements_append (hw : White w) :
    readElements fuel (w ++ t) = readElements fuel t := by
  cases fuel with
  | zero => rfl
  | succ fuel => rw [readElements, readElements, readValue_append hw]

lemma dropWhile_append (hw : White w) (hc : isWhite c = false) :
    (w ++ c :: t).dropWhile isWhite = c :: t := by
  rw [List.dropWhile_append_of_pos hw, List.dropWhile_cons_of_neg (by simp [hc])]

lemma Blank.stops (hw : Blank w)
    (hc : c.isDigit = false ∧ c ≠ '.' ∧ c.toLower ≠ 'e') : Stops (w ++ c :: t) := by
  have hblank : ∀ d, isSpace d = true → d.isDigit = false ∧ d ≠ '.' ∧ d.toLower ≠ 'e' := by
    intro d hd
    rw [isSpace, decide_eq_true_eq] at hd
    obtain ⟨n, hn, rfl⟩ : ∃ n, n ∈ [0x9, 0xA, 0xB, 0xC, 0xD, 0x20, 0xA0, 0x1680, 0x2000, 0x2001,
        0x2002, 0x2003, 0x2004, 0x2005, 0x2006, 0x2007, 0x2008, 0x2009, 0x200A, 0x2028, 0x2029,
        0x202F, 0x205F, 0x3000, 0xFEFF] ∧ d = Char.ofNat n :=
      ⟨d.toNat, hd, (Char.ofNat_toNat d).symm⟩
    revert n
    decide
  cases w with
  | nil =>
    rintro d ⟨⟩
    exact hc
  | cons d w =>
    rintro e ⟨⟩
    exact hblank _ (hw _ List.mem_cons_self)

lemma stops_append (hw : White w) (hc : c = ',' ∨ c = ']' ∨ c = '}') :
    Stops (w ++ c :: t) := by
  refine hw.blank.stops ?_
  rcases hc with rfl | rfl | rfl <;> decide

/-! ### Leaves -/

/-- The text is read as the value, with as much fuel as it has characters, wherever no number would
go on. -/
structure ReadAs (v : Value) (t : List Char) : Prop where
  /-- it does not look like white space or the end of a list -/
  head : ∃ c s, t = c :: s ∧ isWhite c = false ∧ c ≠ ']'
  read : ∀ fuel rest, t.length ≤ fuel → Stops rest → readValue fuel (t ++ rest) = some (v, rest)

lemma readAs_null : ReadAs .null "null".toList where
  head := ⟨'n', _, rfl, by decide, by decide⟩
  read fuel rest hfuel _ := by
    cases fuel with
    | zero => exact absurd hfuel (by decide)
    | succ fuel => rfl

lemma readAs_bool (b : Bool) : ReadAs (.bool b) (if b then "true".toList else "false".toList) := by
  cases b with
  | true =>
    refine ⟨⟨'t', _, rfl, by decide, by decide⟩, fun fuel rest hfuel _ => ?_⟩
    cases fuel with
    | zero => exact absurd hfuel (by decide)
    | succ fuel => rfl
  | false =>
    refine ⟨⟨'f', _, rfl, by decide, by decide⟩, fun fuel rest hfuel _ => ?_⟩
    cases fuel with
    | zero => exact absurd hfuel (by decide)
    | succ fuel => rfl

lemma readAs_str (s : String) : ReadAs (.str s) (quote s) where
  head := ⟨'"', _, rfl, by decide, by decide⟩
  read fuel rest hfuel _ := by
    have hlen := length_lt_quote (k := s)
    obtain ⟨fuel, rfl⟩ : ∃ m, fuel = m + 1 := ⟨fuel - 1, by omega⟩
    rw [readValue_quote, if_pos (by omega)]

lemma readNumber_minus : readNumber ('-' :: t) =
    if t.takeWhile Char.isDigit = [] ∨
        (1 < (t.takeWhile Char.isDigit).length ∧ (t.takeWhile Char.isDigit).head? = some '0') ∨
        (match t.dropWhile Char.isDigit with
          | '.' :: r => (r.takeWhile Char.isDigit).isEmpty
          | _ => false) = true then none
    else (decimalPrefix t).map fun r => (Number.round (-r.1), r.2) := rfl

lemma readNumber_neg (hn : n < 2 ^ 53) (hrest : Stops rest) :
    readNumber ('-' :: (Nat.toDigits 10 n ++ rest)) = some (.finite (-n), rest) := by
  obtain ⟨hdecimal, htake, hdrop⟩ := decimalPrefix_toDigits (n := n) hrest
  have hround : Number.round (-(n : ℚ)) = .finite (-n) := by
    have := Number.round_intCast (z := -n)
      (by rw [abs_neg, abs_of_nonneg (Int.natCast_nonneg n)]; exact_mod_cast hn)
    exact_mod_cast this
  rw [readNumber_minus, htake, hdrop, if_neg, hdecimal, Option.map_some, hround]
  rintro (hnil | ⟨hlen, hhead⟩ | hdot)
  · exact Nat.toDigits_ne_nil hnil
  · rcases Nat.eq_zero_or_pos n with rfl | hpos
    · rw [Nat.toDigits_zero] at hlen
      exact absurd hlen (by decide)
    · exact head?_toDigits_ne hpos hhead
  · split at hdot
    · next r => exact (hrest '.' rfl).2.1 rfl
    · exact Bool.false_ne_true hdot

lemma stringify_intCast (hz : |z| < 10 ^ 15) :
    stringify (.num (.finite z)) = some (intText z) := by
  rw [stringify, intText]
  rcases lt_or_ge z 0 with hlt | hge
  · obtain ⟨n, rfl⟩ : ∃ n : ℕ, z = -n := ⟨z.natAbs, by omega⟩
    have hq : ¬ ((-(n : ℤ) : ℤ) : ℚ) = 0 := by exact_mod_cast hlt.ne
    have hneg : -((-(n : ℤ) : ℤ) : ℚ) = n := by push_cast; ring
    rw [Number.toStr, if_neg hq, if_pos (by exact_mod_cast hlt), hneg,
      positiveToString_natCast (by omega) (by simpa using hz), if_pos hlt]
    simp
  · obtain ⟨n, rfl⟩ : ∃ n : ℕ, z = n := ⟨z.toNat, by omega⟩
    rw [Int.cast_natCast, toStr_natCast (by simpa using hz), String.toList_ofList, if_neg (by omega),
      Int.natAbs_natCast]

lemma exists_digits (n : ℕ) : ∃ d ds, Nat.toDigits 10 n = d :: ds ∧ d.isDigit = true := by
  cases htext : Nat.toDigits 10 n with
  | nil => exact absurd htext Nat.toDigits_ne_nil
  | cons d ds =>
    exact ⟨d, ds, rfl,
      List.all_eq_true.1 (all_isDigit_toDigits n) d (by rw [htext]; exact List.mem_cons_self)⟩

lemma isDigit_ne (hc : c.isDigit = true) : isWhite c = false ∧ c ≠ ']' := by
  obtain ⟨d, hd, rfl⟩ := exists_digit hc
  revert d
  decide

lemma readAs_num (hz : |z| < 10 ^ 15) : ReadAs (.num (.finite z)) (intText z) := by
  obtain ⟨d, ds, htext, hd⟩ := exists_digits z.natAbs
  rw [intText]
  refine ⟨?_, fun fuel rest hfuel hrest => ?_⟩
  · split
    · exact ⟨'-', _, rfl, by decide, by decide⟩
    · exact ⟨d, ds, htext, (isDigit_ne hd).1, (isDigit_ne hd).2⟩
  · have hsmall : z.natAbs < 2 ^ 53 := by
      rw [abs_lt] at hz
      omega
    obtain ⟨fuel, rfl⟩ : ∃ m, fuel = m + 1 := by
      refine ⟨fuel - 1, ?_⟩
      split at hfuel
      · rw [List.length_cons] at hfuel
        omega
      · rw [htext, List.length_cons] at hfuel
        omega
    split
    · next hlt =>
      have hneg : (-(z.natAbs : ℚ)) = z := by
        have : -(z.natAbs : ℤ) = z := by omega
        exact_mod_cast this
      have hread : readValue (fuel + 1) ('-' :: (Nat.toDigits 10 z.natAbs ++ rest)) =
          (readNumber ('-' :: (Nat.toDigits 10 z.natAbs ++ rest))).map fun r => (.num r.1, r.2) := rfl
      rw [List.cons_append, hread, readNumber_neg hsmall hrest, hneg]
      rfl
    · next hge =>
      have hpos : ((z.natAbs : ℕ) : ℚ) = z := by
        have : (z.natAbs : ℤ) = z := by omega
        rw [← Int.cast_natCast, this]
      have hnumber := readNumber_toDigits hsmall hrest
      rw [htext, List.cons_append] at hnumber ⊢
      rw [readValue_digit hd, hnumber, hpos]
      rfl

/-! ### Lists -/

lemma readElements_value (ht : ReadAs v t) (hw : White w) (hfuel : t.length ≤ fuel) :
    readElements (fuel + 1) (t ++ (w ++ ']' :: rest)) = some ([v], rest) ∧
      readElements (fuel + 1) (t ++ (w ++ ',' :: rest)) =
        (readElements fuel rest).map fun r => (v :: r.1, r.2) := by
  have hclose := ht.read fuel (w ++ ']' :: rest) hfuel (stops_append hw (Or.inr (Or.inl rfl)))
  have hcomma := ht.read fuel (w ++ ',' :: rest) hfuel (stops_append hw (Or.inl rfl))
  constructor
  · rw [readElements, hclose]
    simp only [Option.bind_eq_bind, Option.bind_some,
      dropWhile_append hw (by decide : isWhite ']' = false)]
    rfl
  · rw [readElements, hcomma]
    simp only [Option.bind_eq_bind, Option.bind_some,
      dropWhile_append hw (by decide : isWhite ',' = false)]
    cases readElements fuel rest <;> rfl

/-- All elements are read. -/
lemma readElements_spells (hne : vs ≠ []) (hvs : ∀ v ∈ vs, ∀ t, Spells v t → ReadAs v t)
    (ht : SpellsElements vs t) (hfuel : t.length + 1 ≤ fuel) :
    readElements fuel (t ++ ']' :: rest) = some (vs, rest) := by
  induction vs generalizing fuel t with
  | nil => exact absurd rfl hne
  | cons v vs ih =>
    rw [SpellsElements] at ht
    obtain ⟨w, text, w', hw, hv, hw', ht⟩ := ht
    have hread := hvs v List.mem_cons_self text hv
    obtain ⟨fuel, rfl⟩ : ∃ m, fuel = m + 1 := ⟨fuel - 1, by omega⟩
    rcases ht with ⟨rfl, rfl⟩ | ⟨hvs', r, rfl, hr⟩
    · simp only [List.length_append] at hfuel
      rw [List.append_assoc, List.append_assoc, readElements_append hw,
        (readElements_value hread hw' (by omega)).1]
    · simp only [List.length_append, List.length_cons] at hfuel
      rw [List.append_assoc, List.append_assoc, List.append_assoc, List.cons_append,
        readElements_append hw, (readElements_value hread hw' (by omega)).2,
        ih hvs' (fun v hv => hvs v (List.mem_cons_of_mem _ hv)) hr (by omega)]
      rfl

lemma readValue_list (hw : White w) (hc : isWhite c = false) (hclose : c ≠ ']') :
    readValue (fuel + 1) ('[' :: (w ++ c :: s)) =
      (readElements fuel (w ++ c :: s)).map fun r => (.arr r.1, r.2) := by
  have hopen : ('[' :: (w ++ c :: s)).dropWhile isWhite = '[' :: (w ++ c :: s) := rfl
  rw [readElements_append hw, readValue, hopen]
  simp only [if_neg (by decide : ¬ '[' = '"'), if_neg (by decide : ¬ '[' = '{'), if_true,
    dropWhile_append hw hc]
  split
  · next r hr => exact absurd (List.cons.inj hr).1 hclose
  · rfl

lemma spellsElements_cons (ht : SpellsElements (v :: vs) t)
    (hv : ∀ t, Spells v t → ReadAs v t) :
    ∃ w c s, White w ∧ t = w ++ c :: s ∧ isWhite c = false ∧ c ≠ ']' := by
  rw [SpellsElements] at ht
  obtain ⟨w, text, w', hw, hspells, -, ⟨-, rfl⟩ | ⟨-, r, rfl, -⟩⟩ := ht
  all_goals
    obtain ⟨c, s, rfl, hc, hclose⟩ := (hv _ hspells).head
    exact ⟨w, c, _, hw, rfl, hc, hclose⟩

lemma readAs_arr (hvs : ∀ v ∈ vs, ∀ t, Spells v t → ReadAs v t) (ht : Spells (.arr vs) t) :
    ReadAs (.arr vs) t := by
  rw [Spells] at ht
  obtain ⟨body, rfl, hbody⟩ := ht
  refine ⟨⟨'[', _, rfl, by decide, by decide⟩, fun fuel rest hfuel _ => ?_⟩
  simp only [List.length_append, List.length_cons, List.length_nil] at hfuel
  obtain ⟨fuel, rfl⟩ : ∃ m, fuel = m + 1 := ⟨fuel - 1, by omega⟩
  have htext : '[' :: (body ++ [']']) ++ rest = '[' :: (body ++ ']' :: rest) := by simp
  rw [htext]
  cases vs with
  | nil =>
    have hwhite : White body := by rwa [SpellsElements] at hbody
    have hopen : ('[' :: (body ++ ']' :: rest)).dropWhile isWhite = '[' :: (body ++ ']' :: rest) :=
      rfl
    rw [readValue, hopen]
    simp only [if_neg (by decide : ¬ '[' = '"'), if_neg (by decide : ¬ '[' = '{'), if_true,
      dropWhile_append hwhite (by decide : isWhite ']' = false)]
  | cons v vs =>
    have hread : readElements fuel (body ++ ']' :: rest) = some (v :: vs, rest) :=
      readElements_spells (List.cons_ne_nil v vs) hvs hbody (by omega)
    obtain ⟨w, c, s, hw, rfl, hc, hclose⟩ := spellsElements_cons hbody (hvs v List.mem_cons_self)
    rw [List.append_assoc, List.cons_append] at hread ⊢
    rw [readValue_list hw hc hclose, hread]
    rfl

/-! ### Objects -/

lemma readMembers_member {w₁ w₂ w' : List Char} (ht : ReadAs v t) (hw₁ : White w₁) (hw₂ : White w₂)
    (hw' : White w') (hfuel : (quote k).length + t.length ≤ fuel) (hc : c = ',' ∨ c = '}') :
    readMembers (fuel + 1) fields (quote k ++ (w₁ ++ ':' :: (w₂ ++ (t ++ (w' ++ c :: rest))))) =
      afterValue fuel (setField fields k v) (c :: rest) := by
  have hk := length_lt_quote (k := k)
  have hvalue := ht.read fuel (w' ++ c :: rest) (by omega)
    (stops_append hw' (by rcases hc with rfl | rfl <;> simp))
  have hdrop : (w' ++ c :: rest).dropWhile isWhite = c :: rest :=
    dropWhile_append hw' (by rcases hc with rfl | rfl <;> decide)
  rw [readMembers_name, if_pos (by omega), dropWhile_append hw₁ (by decide), afterName,
    readValue_append hw₂, hvalue]
  show afterValue fuel (setField fields k v) ((w' ++ c :: rest).dropWhile isWhite) = _
  rw [hdrop]

lemma readMembers_spells (hne : members ≠ [])
    (hmembers : ∀ f ∈ members, ∀ t, Spells f.2 t → ReadAs f.2 t) (ht : SpellsMembers members t)
    (hfuel : t.length + 1 ≤ fuel) :
    readMembers fuel fields (t ++ '}' :: rest) = some (setFields fields members, rest) := by
  induction members generalizing fields fuel t with
  | nil => exact absurd rfl hne
  | cons f members ih =>
    obtain ⟨k, v⟩ := f
    rw [SpellsMembers] at ht
    obtain ⟨w, w₁, w₂, text, w', hw, hw₁, hw₂, hv, hw', ht⟩ := ht
    have hread := hmembers (k, v) List.mem_cons_self text hv
    obtain ⟨fuel, rfl⟩ : ∃ m, fuel = m + 1 := ⟨fuel - 1, by omega⟩
    rcases ht with ⟨rfl, rfl⟩ | ⟨hne', r, rfl, hr⟩
    · simp only [List.length_append, List.length_cons] at hfuel
      have htext : w ++ (quote k ++ (w₁ ++ ':' :: (w₂ ++ (text ++ w')))) ++ '}' :: rest =
          w ++ (quote k ++ (w₁ ++ ':' :: (w₂ ++ (text ++ (w' ++ '}' :: rest))))) := by simp
      rw [htext, readMembers_append hw,
        readMembers_member hread hw₁ hw₂ hw' (by omega) (Or.inr rfl)]
      rfl
    · simp only [List.length_append, List.length_cons] at hfuel
      have htext : w ++ (quote k ++ (w₁ ++ ':' :: (w₂ ++ (text ++ (w' ++ ',' :: r))))) ++
          '}' :: rest =
            w ++ (quote k ++ (w₁ ++ ':' :: (w₂ ++ (text ++ (w' ++ ',' :: (r ++ '}' :: rest)))))) := by
        simp
      rw [htext, readMembers_append hw,
        readMembers_member hread hw₁ hw₂ hw' (by omega) (Or.inl rfl)]
      exact ih hne' (fun f hf => hmembers f (List.mem_cons_of_mem _ hf)) hr (by omega)

lemma setFields_eq (h : ((fields ++ members).map Prod.fst).Nodup) :
    setFields fields members = fields ++ members := by
  induction members generalizing fields with
  | nil => exact (List.append_nil fields).symm
  | cons f members ih =>
    have hnew : f.1 ∉ fields.map Prod.fst := by
      rw [List.map_append, List.map_cons] at h
      exact fun hmem => (List.nodup_append.1 h).2.2 f.1 hmem f.1 List.mem_cons_self rfl
    rw [List.append_cons] at h
    rw [setFields, List.foldl_cons, ← setFields, setField, if_neg hnew, ih h]
    simp

lemma spellsMembers_cons (ht : SpellsMembers ((k, v) :: members) t) :
    ∃ w s, White w ∧ t = w ++ '"' :: s := by
  rw [SpellsMembers] at ht
  obtain ⟨w, w₁, w₂, text, w', hw, -, -, -, -, ⟨-, rfl⟩ | ⟨-, r, rfl, -⟩⟩ := ht
  · exact ⟨w, _, hw, rfl⟩
  · exact ⟨w, _, hw, rfl⟩

lemma readAs_obj (hmembers : ∀ f ∈ members, ∀ t, Spells f.2 t → ReadAs f.2 t)
    (ht : Spells (.obj members) t) : ReadAs (.obj members) t := by
  rw [Spells] at ht
  obtain ⟨hnodup, body, rfl, hbody⟩ := ht
  refine ⟨⟨'{', _, rfl, by decide, by decide⟩, fun fuel rest hfuel _ => ?_⟩
  simp only [List.length_append, List.length_cons, List.length_nil] at hfuel
  obtain ⟨fuel, rfl⟩ : ∃ m, fuel = m + 1 := ⟨fuel - 1, by omega⟩
  have htext : '{' :: (body ++ ['}']) ++ rest = '{' :: (body ++ '}' :: rest) := by simp
  have hopen : ('{' :: (body ++ '}' :: rest)).dropWhile isWhite = '{' :: (body ++ '}' :: rest) := rfl
  rw [htext]
  cases members with
  | nil =>
    have hwhite : White body := by rwa [SpellsMembers] at hbody
    rw [readValue, hopen]
    simp only [if_neg (by decide : ¬ '{' = '"'), if_true,
      dropWhile_append hwhite (by decide : isWhite '}' = false)]
  | cons f members =>
    obtain ⟨k, v⟩ := f
    have hread : readMembers fuel [] (body ++ '}' :: rest) =
        some (setFields [] ((k, v) :: members), rest) :=
      readMembers_spells (List.cons_ne_nil (k, v) members) hmembers hbody (by omega)
    rw [setFields_eq hnodup, List.nil_append] at hread
    obtain ⟨w, s, hw, rfl⟩ := spellsMembers_cons hbody
    rw [List.append_assoc, List.cons_append] at hread hopen ⊢
    rw [readMembers_append hw] at hread
    rw [readValue, hopen]
    simp only [if_neg (by decide : ¬ '{' = '"'), if_true,
      dropWhile_append hw (by decide : isWhite '"' = false)]
    show (readMembers fuel [] ('"' :: (s ++ '}' :: rest))).map
      (fun r => (Value.obj r.1, r.2)) = _
    rw [hread]
    rfl

end

/-! ### Trees -/

mutual

theorem readAs_spells : ∀ (v : Value) (t : List Char), Spells v t → ReadAs v t
  | .undefined, _, h => by rw [Spells] at h; exact h.elim
  | .null, _, h => by rw [Spells] at h; exact h ▸ readAs_null
  | .bool b, _, h => by rw [Spells] at h; exact h ▸ readAs_bool b
  | .num _, _, h => by
    rw [Spells] at h
    obtain ⟨z, hz, rfl, rfl⟩ := h
    exact readAs_num hz
  | .str s, _, h => by rw [Spells] at h; exact h ▸ readAs_str s
  | .arr elems, _, h => readAs_arr (readAs_elements elems) h
  | .obj fields, _, h => readAs_obj (readAs_members fields) h

theorem readAs_elements : ∀ vs : List Value, ∀ v ∈ vs, ∀ t, Spells v t → ReadAs v t
  | [] => fun _ hv => absurd hv List.not_mem_nil
  | v :: vs => List.forall_mem_cons.2 ⟨readAs_spells v, readAs_elements vs⟩

theorem readAs_members :
    ∀ fields : List (String × Value), ∀ f ∈ fields, ∀ t, Spells f.2 t → ReadAs f.2 t
  | [] => fun _ hf => absurd hf List.not_mem_nil
  | (_, v) :: fields => List.forall_mem_cons.2 ⟨readAs_spells v, readAs_members fields⟩

end

/-- `JSON.parse` reads a text for a value, with white space around it. -/
theorem parse_spells {v : Value} {t w w' : List Char} (h : Spells v t) (hw : White w)
    (hw' : White w') : parse (String.ofList (w ++ (t ++ w'))) = some v := by
  have hstops : Stops w' := by
    cases w' with
    | nil => rintro c ⟨⟩
    | cons c w' =>
      have hwhite : Stops ([c] ++ ',' :: []) :=
        stops_append (fun d hd => hw' d (List.mem_singleton.1 hd ▸ List.mem_cons_self)) (Or.inl rfl)
      rintro d ⟨⟩
      exact hwhite c rfl
  have hread := (readAs_spells v t h).read (2 * (w ++ (t ++ w')).length + 2) w'
    (by simp only [List.length_append]; omega) hstops
  have hall : w'.all isWhite = true := List.all_eq_true.2 hw'
  rw [parse, String.toList_ofList, readValue_append hw, hread]
  simp only [hall, if_true]

/-! ### The ends of a text -/

/-- A character that `trim` keeps, and that no fence is made of. -/
def Solid (c : Char) : Prop :=
  isSpace c = false ∧ c ≠ '`'

instance (c : Char) : Decidable (Solid c) := inferInstanceAs (Decidable (_ ∧ _))

/-- A text that begins and ends with such a character. -/
structure SolidEnds (t : List Char) : Prop where
  first : ∃ c s, t = c :: s ∧ Solid c
  last : ∃ s c, t = s ++ [c] ∧ Solid c

lemma solid_of_isDigit {c : Char} (hc : c.isDigit = true) : Solid c := by
  obtain ⟨d, hd, rfl⟩ := exists_digit hc
  revert d
  decide

lemma solidEnds_intText (z : ℤ) : SolidEnds (intText z) := by
  have hdigits : SolidEnds (Nat.toDigits 10 z.natAbs) := by
    have hall := List.all_eq_true.1 (all_isDigit_toDigits z.natAbs)
    have hne : Nat.toDigits 10 z.natAbs ≠ [] := Nat.toDigits_ne_nil
    exact ⟨⟨_, _, (List.cons_head_tail hne).symm, solid_of_isDigit (hall _ (List.head_mem hne))⟩,
      ⟨_, _, (List.dropLast_append_getLast hne).symm,
        solid_of_isDigit (hall _ (List.getLast_mem hne))⟩⟩
  rw [intText]
  split
  · obtain ⟨s, c, hs, hc⟩ := hdigits.last
    exact ⟨⟨'-', _, rfl, by decide⟩, ⟨'-' :: s, c, by rw [hs, List.cons_append], hc⟩⟩
  · exact hdigits

/-- JSON begins and ends with what is no white space and no fence. -/
lemma Spells.solidEnds {v : Value} {t : List Char} (h : Spells v t) : SolidEnds t := by
  cases v with
  | undefined => rw [Spells] at h; exact h.elim
  | null => rw [Spells] at h; exact h ▸ ⟨⟨_, _, rfl, by decide⟩, ⟨['n', 'u', 'l'], _, rfl, by decide⟩⟩
  | bool b =>
    rw [Spells] at h
    subst h
    cases b with
    | true => exact ⟨⟨_, _, rfl, by decide⟩, ⟨['t', 'r', 'u'], _, rfl, by decide⟩⟩
    | false => exact ⟨⟨_, _, rfl, by decide⟩, ⟨['f', 'a', 'l', 's'], _, rfl, by decide⟩⟩
  | num x =>
    rw [Spells] at h
    obtain ⟨z, -, -, rfl⟩ := h
    exact solidEnds_intText z
  | str s =>
    rw [Spells] at h
    exact h ▸ ⟨⟨'"', _, rfl, by decide⟩, ⟨'"' :: escape s.toList, '"', rfl, by decide⟩⟩
  | arr elems =>
    rw [Spells] at h
    obtain ⟨body, rfl, -⟩ := h
    exact ⟨⟨'[', _, rfl, by decide⟩, ⟨'[' :: body, ']', rfl, by decide⟩⟩
  | obj fields =>
    rw [Spells] at h
    obtain ⟨-, body, rfl, -⟩ := h
    exact ⟨⟨'{', _, rfl, by decide⟩, ⟨'{' :: body, '}', rfl, by decide⟩⟩

/-- Blanks around a text are trimmed. -/
lemma trim_append {t w w' : List Char} (hw : Blank w) (ht : SolidEnds t) (hw' : Blank w') :
    trim (w ++ (t ++ w')) = t := by
  obtain ⟨⟨c, s, hfirst, hc, -⟩, s', d, hlast, hd, -⟩ := ht
  have hleft : (w ++ (t ++ w')).dropWhile isSpace = t ++ w' := by
    rw [List.dropWhile_append_of_pos hw, hfirst, List.cons_append,
      List.dropWhile_cons_of_neg (by simp [hc])]
  have hright : (t ++ w').reverse.dropWhile isSpace = t.reverse := by
    rw [List.reverse_append, List.dropWhile_append_of_pos
      fun e he => hw' e (List.mem_reverse.1 he), hlast, List.reverse_append,
      List.reverse_singleton, List.singleton_append, List.dropWhile_cons_of_neg (by simp [hd])]
  rw [trim, hleft, hright, List.reverse_reverse]

/-- Up to the last character that is no blank, nothing is trimmed after the blanks. -/
lemma exists_trim_append {t w s r : List Char} {c : Char} (hw : Blank w) (ht : SolidEnds t)
    (hc : isSpace c = false) : ∃ r', trim (w ++ (t ++ (s ++ c :: r))) = t ++ (s ++ c :: r') := by
  obtain ⟨⟨d, t', hfirst, hd, -⟩, -⟩ := ht
  have hleft : (w ++ (t ++ (s ++ c :: r))).dropWhile isSpace = t ++ (s ++ c :: r) := by
    rw [List.dropWhile_append_of_pos hw, hfirst, List.cons_append,
      List.dropWhile_cons_of_neg (by simp [hd])]
  refine ⟨(r.reverse.dropWhile isSpace).reverse, ?_⟩
  have hright : (t ++ (s ++ c :: r)).reverse.dropWhile isSpace =
      r.reverse.dropWhile isSpace ++ c :: (s.reverse ++ t.reverse) := by
    have hrev : (t ++ (s ++ c :: r)).reverse = r.reverse ++ c :: (s.reverse ++ t.reverse) := by
      simp
    have hkeep : (c :: (s.reverse ++ t.reverse)).dropWhile isSpace =
        c :: (s.reverse ++ t.reverse) := List.dropWhile_cons_of_neg (by simp [hc])
    rw [hrev, List.dropWhile_append, hkeep]
    split
    · next hempty => rw [List.isEmpty_iff.1 hempty, List.nil_append]
    · rfl
  rw [trim, hleft, hright]
  simp

/-- A text with something after it that is no white space is no JSON. -/
lemma parse_append_of_not_white {v : Value} {t s : List Char} (h : Spells v t) (hs : Stops s)
    (hnot : ¬ White s) : parse (String.ofList (t ++ s)) = none := by
  have hread := (readAs_spells v t h).read (2 * (t ++ s).length + 2) s
    (by simp only [List.length_append]; omega) hs
  have hall : ¬ s.all isWhite = true := fun hall => hnot (List.all_eq_true.1 hall)
  rw [parse, String.toList_ofList, hread]
  simp only [if_neg hall]

/-! ### What is written -/

section

variable {v : Value} {vs : List Value} {fields : List (String × Value)}

lemma white_nil : White [] := nofun

lemma spellsElements_intercalate
    (hvs : ∀ v ∈ vs, ∃ t, stringify v = some t ∧ Spells v t) :
    SpellsElements vs ([','].intercalate (elements vs)) := by
  induction vs with
  | nil => rw [SpellsElements]; exact white_nil
  | cons v vs ih =>
    obtain ⟨t, ht, hspells⟩ := hvs v List.mem_cons_self
    have hrest := ih fun v hv => hvs v (List.mem_cons_of_mem _ hv)
    rw [SpellsElements, elements, ht, Option.getD_some]
    refine ⟨[], t, [], white_nil, hspells, white_nil, ?_⟩
    cases vs with
    | nil =>
      refine Or.inl ⟨rfl, ?_⟩
      rw [elements, List.intercalate_singleton, List.append_nil, List.nil_append]
    | cons v' vs =>
      refine Or.inr ⟨List.cons_ne_nil v' vs, _, ?_, hrest⟩
      rw [elements, List.intercalate_cons_cons]
      simp

lemma spellsMembers_intercalate
    (hfields : ∀ f ∈ fields, ∃ t, stringify f.2 = some t ∧ Spells f.2 t) :
    SpellsMembers fields ([','].intercalate (members fields)) := by
  induction fields with
  | nil => rw [SpellsMembers]; exact white_nil
  | cons f fields ih =>
    obtain ⟨k, v⟩ := f
    obtain ⟨t, ht, hspells⟩ := hfields (k, v) List.mem_cons_self
    have hrest := ih fun f hf => hfields f (List.mem_cons_of_mem _ hf)
    have htexts : members ((k, v) :: fields) = (quote k ++ ':' :: t) :: members fields := by
      rw [members, ht]
    rw [SpellsMembers, htexts]
    refine ⟨[], [], [], t, [], white_nil, white_nil, white_nil, hspells, white_nil, ?_⟩
    cases fields with
    | nil =>
      refine Or.inl ⟨rfl, ?_⟩
      rw [members, List.intercalate_singleton]
      simp
    | cons g fields =>
      obtain ⟨l, u⟩ := g
      obtain ⟨t', ht', -⟩ := hfields (l, u) (List.mem_cons_of_mem _ List.mem_cons_self)
      refine Or.inr ⟨List.cons_ne_nil (l, u) fields, _, ?_, hrest⟩
      rw [members, ht']
      dsimp only
      rw [List.intercalate_cons_cons]
      simp

end

mutual

/-- What `JSON.stringify` writes for a readable value is a text for it. -/
theorem spells_stringify : ∀ v : Value, Readable v → ∃ t, stringify v = some t ∧ Spells v t
  | .undefined, h => by rw [Readable] at h; exact h.elim
  | .null, _ => ⟨_, rfl, by rw [Spells]⟩
  | .bool b, _ => ⟨_, rfl, by rw [Spells]⟩
  | .num _, h => by
    rw [Readable] at h
    obtain ⟨z, hz, rfl⟩ := h
    exact ⟨_, stringify_intCast hz, by rw [Spells]; exact ⟨z, hz, rfl, rfl⟩⟩
  | .str s, _ => ⟨_, rfl, by rw [Spells]⟩
  | .arr elems, h => by
    rw [Readable] at h
    refine ⟨_, rfl, ?_⟩
    rw [Spells]
    exact ⟨_, rfl, spellsElements_intercalate (spells_elements elems h)⟩
  | .obj fields, h => by
    rw [Readable] at h
    refine ⟨_, rfl, ?_⟩
    rw [Spells]
    exact ⟨h.1, _, rfl, spellsMembers_intercalate (spells_members fields h.2)⟩

theorem spells_elements :
    ∀ vs : List Value, ReadableElements vs → ∀ v ∈ vs, ∃ t, stringify v = some t ∧ Spells v t
  | [], _ => fun _ hv => absurd hv List.not_mem_nil
  | v :: vs, h => by
    rw [ReadableElements] at h
    exact List.forall_mem_cons.2 ⟨spells_stringify v h.1, spells_elements vs h.2⟩

theorem spells_members : ∀ fields : List (String × Value), ReadableMembers fields →
    ∀ f ∈ fields, ∃ t, stringify f.2 = some t ∧ Spells f.2 t
  | [], _ => fun _ hf => absurd hf List.not_mem_nil
  | (_, v) :: fields, h => by
    rw [ReadableMembers] at h
    exact List.forall_mem_cons.2 ⟨spells_stringify v h.1, spells_members fields h.2⟩

end

/-- `JSON.parse(JSON.stringify(v))` is `v`. -/
theorem parse_stringify {v : Value} (h : Readable v) :
    ∃ t, stringify v = some t ∧ parse (String.ofList t) = some v := by
  obtain ⟨t, ht, hspells⟩ := spells_stringify v h
  have hparse := parse_spells hspells white_nil white_nil
  rw [List.nil_append, List.append_nil] at hparse
  exact ⟨t, ht, hparse⟩

/-! ### The characters of a text -/

/-- A character that is no control character. -/
def isPrinted (c : Char) : Bool :=
  0x20 ≤ c.toNat

section

variable {c : Char} {s t : List Char} {k : String}

lemma isPrinted_of_isNumeral (h : isNumeral c = true) : isPrinted c = true := by
  rw [isNumeral, Bool.or_eq_true] at h
  rcases h with hdigit | hmem
  · obtain ⟨d, hd, rfl⟩ := exists_digit hdigit
    revert d
    decide
  · exact List.all_eq_true.1 (by decide) c (of_decide_eq_true hmem)

lemma isPrinted_of_mem (h : s.all isPrinted = true) (hc : c ∈ s) : isPrinted c = true :=
  List.all_eq_true.1 h c hc

lemma printed_control : ∀ n < 0x20, isPrinted (Nat.digitChar (n / 16)) = true ∧
    isPrinted (Nat.digitChar (n % 16)) = true := by
  decide

lemma isPrinted_of_mem_escapeChar {d : Char} (hc : c ∈ escapeChar d) : isPrinted c = true := by
  rw [escapeChar] at hc
  split_ifs at hc with h₁ h₂ h₃ h₄ h₅ h₆ h₇ h₈
  · exact isPrinted_of_mem (by decide) hc
  · exact isPrinted_of_mem (by decide) hc
  · exact isPrinted_of_mem (by decide) hc
  · exact isPrinted_of_mem (by decide) hc
  · exact isPrinted_of_mem (by decide) hc
  · exact isPrinted_of_mem (by decide) hc
  · exact isPrinted_of_mem (by decide) hc
  · obtain ⟨hhigh, hlow⟩ := printed_control d.toNat h₈
    simp only [List.mem_cons, List.not_mem_nil, or_false] at hc
    rcases hc with rfl | rfl | rfl | rfl | rfl | rfl
    · decide
    · decide
    · decide
    · decide
    · exact hhigh
    · exact hlow
  · rw [List.mem_singleton.1 hc]
    exact decide_eq_true (Nat.not_lt.1 h₈)

lemma isPrinted_of_mem_quote (hc : c ∈ quote k) : isPrinted c = true := by
  rw [quote, List.cons_append, List.mem_cons, List.mem_append, List.mem_singleton, escape,
    List.mem_flatMap] at hc
  rcases hc with rfl | ⟨d, -, hc⟩ | rfl
  · decide
  · exact isPrinted_of_mem_escapeChar hc
  · decide

lemma isPrinted_of_mem_intercalate {lines : List (List Char)}
    (hlines : ∀ line ∈ lines, ∀ c ∈ line, isPrinted c = true) (hc : c ∈ [','].intercalate lines) :
    isPrinted c = true := by
  rcases mem_intercalate hc with hc | ⟨line, hline, hc⟩
  · exact isPrinted_of_mem (by decide) hc
  · exact hlines line hline c hc

end

mutual

theorem isPrinted_stringify :
    ∀ (v : Value) (t : List Char), stringify v = some t → ∀ c ∈ t, isPrinted c = true
  | .undefined, t, h => by cases h
  | .null, t, h => by
    cases h
    exact fun c hc => isPrinted_of_mem (by decide) hc
  | .bool b, t, h => by
    cases h
    cases b with
    | true => exact fun c hc => isPrinted_of_mem (by decide) hc
    | false => exact fun c hc => isPrinted_of_mem (by decide) hc
  | .num (.finite q), t, h => by
    cases h
    exact fun c hc => isPrinted_of_isNumeral (IsNumeral.toStr q c hc)
  | .num .nan, t, h => by
    cases h
    exact fun c hc => isPrinted_of_mem (by decide) hc
  | .num (.infinity _), t, h => by
    cases h
    exact fun c hc => isPrinted_of_mem (by decide) hc
  | .str s, t, h => by
    cases h
    exact fun c hc => isPrinted_of_mem_quote hc
  | .arr elems, t, h => by
    cases h
    intro c hc
    rw [List.cons_append, List.mem_cons, List.mem_append, List.mem_singleton] at hc
    rcases hc with rfl | hc | rfl
    · decide
    · exact isPrinted_of_mem_intercalate (isPrinted_elements elems) hc
    · decide
  | .obj fields, t, h => by
    cases h
    intro c hc
    rw [List.cons_append, List.mem_cons, List.mem_append, List.mem_singleton] at hc
    rcases hc with rfl | hc | rfl
    · decide
    · exact isPrinted_of_mem_intercalate (isPrinted_members fields) hc
    · decide

theorem isPrinted_elements :
    ∀ vs : List Value, ∀ line ∈ elements vs, ∀ c ∈ line, isPrinted c = true
  | [] => fun line hline => absurd hline List.not_mem_nil
  | v :: vs => by
    rw [elements]
    refine List.forall_mem_cons.2 ⟨?_, isPrinted_elements vs⟩
    cases ht : stringify v with
    | none => exact fun c hc => isPrinted_of_mem (by decide) hc
    | some t => exact isPrinted_stringify v t ht

theorem isPrinted_members :
    ∀ fields : List (String × Value), ∀ line ∈ members fields, ∀ c ∈ line, isPrinted c = true
  | [] => fun line hline => absurd hline List.not_mem_nil
  | (k, v) :: fields => by
    rw [members]
    cases ht : stringify v with
    | none => exact isPrinted_members fields
    | some t =>
      refine List.forall_mem_cons.2 ⟨fun c hc => ?_, isPrinted_members fields⟩
      rcases List.mem_append.1 hc with hc | hc
      · exact isPrinted_of_mem_quote hc
      · rcases List.mem_cons.1 hc with rfl | hc
        · decide
        · exact isPrinted_stringify v t ht c hc

end

end Js.Json
