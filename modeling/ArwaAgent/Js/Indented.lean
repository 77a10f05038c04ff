import ArwaAgent.Js.Integers
import ArwaAgent.Js.Json

/-!
# Indented JSON

`Json.stringifyFlat` is `JSON.stringify(v, null, 2)` for an object without objects and arrays
in it.  Its text is read back (`parse_flat`).  A writer that is stopped before its end leaves a
text without a closing brace, and no such text is read (`parse_torn`), since every reader
only moves forward and that of objects stops at a closing brace.
-/

namespace Js.Json

/-- The lines of an object, one for each member; those that cannot be written are left out. -/
def memberLines : List (String × Value) → List (List Char)
  | [] => []
  | (k, v) :: fields =>
    match stringify v with
    | some t => (' ' :: ' ' :: (quote k ++ ':' :: ' ' :: t)) :: memberLines fields
    | none => memberLines fields

/-- `JSON.stringify(v, null, 2)` for an object without objects and arrays in it. -/
def stringifyFlat (fields : List (String × Value)) : List Char :=
  match memberLines fields with
  | [] => ['{', '}']
  | lines => '{' :: '\n' :: ([',', '\n'].intercalate lines ++ ['\n', '}'])

section

variable {fields out : List (String × Value)} {elems : List Value} {k : String} {v : Value}
  {x : Number} {q : ℚ} {u : ℕ} {us : List ℕ} {s rest : List Char} {fuel : ℕ}

/-! ### The reader moves forward -/

lemma dropWhile_suffix_of_cons {c : Char} {p : Char → Bool} (h : s.dropWhile p = c :: rest) :
    rest <:+ s :=
  (List.suffix_cons c rest).trans (h ▸ List.dropWhile_suffix p)

lemma readEscape_suffix (h : readEscape s = some (u, rest)) : rest <:+ s := by
  cases s with
  | nil => cases h
  | cons e s =>
    have hskip : ∀ {n : ℕ}, some (n, s) = some (u, rest) → rest <:+ e :: s := fun h => by
      cases h
      exact List.suffix_cons e _
    simp only [readEscape] at h
    split_ifs at h
    · exact hskip h
    · exact hskip h
    · exact hskip h
    · exact hskip h
    · exact hskip h
    · exact hskip h
    · cases h
      exact (List.drop_suffix 4 s).trans (List.suffix_cons e s)

lemma readChars_suffix (h : readChars fuel s = some (us, rest)) : rest <:+ s := by
  induction fuel generalizing s us with
  | zero => cases h
  | succ fuel ih =>
    cases s with
    | nil => cases h
    | cons c s =>
      rw [readChars] at h
      split_ifs at h with hquote hslash
      · cases h
        exact List.suffix_cons c rest
      · obtain ⟨⟨u, r⟩, hu, h⟩ := Option.bind_eq_some_iff.1 h
        obtain ⟨⟨us', r'⟩, hus, h⟩ := Option.bind_eq_some_iff.1 h
        cases h
        exact ((ih hus).trans (readEscape_suffix hu)).trans (List.suffix_cons c s)
      · obtain ⟨⟨us', r'⟩, hus, h⟩ := Option.bind_eq_some_iff.1 h
        cases h
        exact (ih hus).trans (List.suffix_cons c s)

lemma readString_suffix (h : readString fuel s = some (k, rest)) : rest <:+ s := by
  obtain ⟨⟨us, r⟩, hus, h⟩ := Option.map_eq_some_iff.1 h
  cases h
  exact readChars_suffix hus

lemma span_suffix (p : Char → Bool) (s : List Char) : (s.span p).2 <:+ s := by
  rw [List.span_eq_takeWhile_dropWhile]
  exact List.dropWhile_suffix p

lemma sign_suffix (r : List Char) : (match r with
    | '-' :: ds => ((-1 : ℤ), ds)
    | '+' :: ds => (1, ds)
    | ds => (1, ds)).2 <:+ r := by
  split
  · exact List.suffix_cons _ _
  · exact List.suffix_cons _ _
  · exact List.suffix_rfl

lemma exponentPart_suffix (s : List Char) : (exponentPart s).2 <:+ s := by
  cases s with
  | nil => exact List.suffix_rfl
  | cons c r =>
    simp only [exponentPart]
    split_ifs
    · exact List.suffix_rfl
    · exact ((span_suffix _ _).trans (sign_suffix r)).trans (List.suffix_cons c r)
    · exact List.suffix_rfl

lemma decimalPrefix_suffix (h : decimalPrefix s = some (q, rest)) : rest <:+ s := by
  simp only [decimalPrefix, Option.ite_none_left_eq_some] at h
  obtain ⟨-, h⟩ := h
  cases h
  refine (exponentPart_suffix _).trans ?_
  have hspan := span_suffix Char.isDigit s
  split
  · next r hr =>
    have hr' : r <:+ s := (List.suffix_cons '.' r).trans (hr ▸ hspan)
    split_ifs
    · exact hspan
    · exact (span_suffix _ r).trans hr'
  · exact hspan

lemma readNumber_suffix (h : readNumber s = some (x, rest)) : rest <:+ s := by
  simp only [readNumber, Option.ite_none_left_eq_some] at h
  obtain ⟨-, h⟩ := h
  obtain ⟨⟨q, r⟩, hq, h⟩ := Option.map_eq_some_iff.1 h
  cases h
  refine (decimalPrefix_suffix hq).trans ?_
  split
  · exact List.suffix_cons _ _
  · exact List.suffix_rfl

/-- The reader leaves what follows the value that it has read. -/
def ReadsValue (fuel : ℕ) : Prop :=
  ∀ s v rest, readValue fuel s = some (v, rest) → rest <:+ s

/-- The reader of elements has stopped at a closing bracket. -/
def ReadsElements (fuel : ℕ) : Prop :=
  ∀ s elems rest, readElements fuel s = some (elems, rest) → ']' :: rest <:+ s

/-- The reader of members has stopped at a closing brace. -/
def ReadsMembers (fuel : ℕ) : Prop :=
  ∀ fields s out rest, readMembers fuel fields s = some (out, rest) → '}' :: rest <:+ s

lemma readValue_suffix {fuel : ℕ} (helements : ReadsElements fuel) (hmembers : ReadsMembers fuel) :
    ReadsValue (fuel + 1) := by
  intro s v rest h
  rw [readValue] at h
  split at h
  · cases h
  · next c r hs =>
    have hcr : c :: r <:+ s := hs ▸ List.dropWhile_suffix isWhite
    have hr : r <:+ s := dropWhile_suffix_of_cons hs
    split_ifs at h
    · obtain ⟨⟨k, r'⟩, hk, h⟩ := Option.map_eq_some_iff.1 h
      cases h
      exact (readString_suffix hk).trans hr
    · split at h
      · next r' hr' =>
        cases h
        exact (dropWhile_suffix_of_cons hr').trans hr
      · obtain ⟨⟨out, r'⟩, hout, h⟩ := Option.map_eq_some_iff.1 h
        cases h
        refine (List.suffix_cons '}' _).trans ?_
        exact ((hmembers _ _ _ _ hout).trans (List.dropWhile_suffix _)).trans hr
    · split at h
      · next r' hr' =>
        cases h
        exact (dropWhile_suffix_of_cons hr').trans hr
      · obtain ⟨⟨out, r'⟩, hout, h⟩ := Option.map_eq_some_iff.1 h
        cases h
        refine (List.suffix_cons ']' _).trans ?_
        exact ((helements _ _ _ hout).trans (List.dropWhile_suffix _)).trans hr
    · cases h
      exact (List.drop_suffix 3 r).trans hr
    · cases h
      exact (List.drop_suffix 3 r).trans hr
    · cases h
      exact (List.drop_suffix 4 r).trans hr
    · obtain ⟨⟨x, r'⟩, hx, h⟩ := Option.map_eq_some_iff.1 h
      cases h
      exact (readNumber_suffix hx).trans hcr

lemma readElements_suffix {fuel : ℕ} (hvalue : ReadsValue fuel) (helements : ReadsElements fuel) :
    ReadsElements (fuel + 1) := by
  intro s elems rest h
  rw [readElements] at h
  obtain ⟨⟨v, r⟩, hv, h⟩ := Option.bind_eq_some_iff.1 h
  refine List.IsSuffix.trans ?_ (hvalue _ _ _ hv)
  dsimp only at h
  split at h
  · next r' hr' =>
    obtain ⟨⟨vs, r''⟩, hvs, h⟩ := Option.bind_eq_some_iff.1 h
    cases h
    exact (helements _ _ _ hvs).trans (dropWhile_suffix_of_cons hr')
  · next r' hr' =>
    cases h
    exact hr' ▸ List.dropWhile_suffix isWhite
  · cases h

lemma readMembers_suffix {fuel : ℕ} (hvalue : ReadsValue fuel) (hmembers : ReadsMembers fuel) :
    ReadsMembers (fuel + 1) := by
  intro fields s out rest h
  rw [readMembers] at h
  split at h
  · next r hr =>
    refine List.IsSuffix.trans ?_ (dropWhile_suffix_of_cons hr)
    obtain ⟨⟨k, r₁⟩, hk, h⟩ := Option.bind_eq_some_iff.1 h
    refine List.IsSuffix.trans ?_ (readString_suffix hk)
    dsimp only at h
    split at h
    · next r₂ hr₂ =>
      refine List.IsSuffix.trans ?_ (dropWhile_suffix_of_cons hr₂)
      obtain ⟨⟨v, r₃⟩, hv, h⟩ := Option.bind_eq_some_iff.1 h
      refine List.IsSuffix.trans ?_ (hvalue _ _ _ hv)
      dsimp only at h
      split at h
      · next r₄ hr₄ => exact (hmembers _ _ _ _ h).trans (dropWhile_suffix_of_cons hr₄)
      · next r₄ hr₄ =>
        cases h
        exact hr₄ ▸ List.dropWhile_suffix isWhite
      · cases h
    · cases h
  · cases h

lemma reader_suffix (fuel : ℕ) : ReadsValue fuel ∧ ReadsElements fuel ∧ ReadsMembers fuel := by
  induction fuel with
  | zero =>
    exact ⟨fun s v rest h => (by cases h), fun s elems rest h => (by cases h),
      fun fields s out rest h => (by cases h)⟩
  | succ fuel ih =>
    obtain ⟨hvalue, helements, hmembers⟩ := ih
    exact ⟨readValue_suffix helements hmembers, readElements_suffix hvalue helements,
      readMembers_suffix hvalue hmembers⟩

/-! ### Torn objects -/

/-- No object is read without a closing brace. -/
lemma parse_of_not_mem (h : '}' ∉ s) : parse (String.ofList ('{' :: s)) = none := by
  have hread : readValue (2 * ('{' :: s).length + 2) ('{' :: s) = none := by
    have hmem : '}' ∉ s.dropWhile isWhite := fun hmem => h ((List.dropWhile_suffix _).subset hmem)
    have hobj : ∀ fuel, readMembers fuel [] (s.dropWhile isWhite) = none := by
      intro fuel
      rw [Option.eq_none_iff_forall_ne_some]
      rintro ⟨out, rest⟩ hout
      exact hmem (((reader_suffix fuel).2.2 _ _ _ _ hout).subset List.mem_cons_self)
    have hopen : ('{' :: s).dropWhile isWhite = '{' :: s := rfl
    rw [readValue, hopen]
    simp only [if_neg (by decide : ¬ '{' = '"'), if_true]
    split
    · next rest hrest =>
      rw [hrest] at hmem
      exact absurd List.mem_cons_self hmem
    · rw [hobj, Option.map_none]
  rw [parse, String.toList_ofList, hread]

/-- Nothing is read of an object whose writer has been stopped before its end, where the only
closing brace is. -/
lemma parse_torn {k : ℕ} (h : '}' ∉ s) (hk : k ≤ s.length + 1) :
    parse (String.ofList (('{' :: (s ++ ['}'])).take k)) = none := by
  cases k with
  | zero => rfl
  | succ k =>
    rw [List.take_succ_cons, List.take_append_of_le_length (by omega)]
    exact parse_of_not_mem fun hmem => h (List.mem_of_mem_take hmem)

end

/-! ### What is written of a number -/

/-- A digit, a sign, a point, or the letter of an exponent. -/
def isNumeral (c : Char) : Bool :=
  c.isDigit || c ∈ ['-', '+', '.', 'e']

lemma isNumeral_of_isDigit {c : Char} (h : c.isDigit = true) : isNumeral c = true := by
  rw [isNumeral, h, Bool.true_or]

/-- A text of numerals only. -/
def IsNumeral (s : String) : Prop :=
  ∀ c ∈ s.toList, isNumeral c = true

instance (s : String) : Decidable (IsNumeral s) :=
  inferInstanceAs (Decidable (∀ c ∈ s.toList, _))

namespace IsNumeral

lemma append {s t : String} (hs : IsNumeral s) (ht : IsNumeral t) : IsNumeral (s ++ t) := by
  intro c hc
  rw [String.toList_append, List.mem_append] at hc
  exact hc.elim (hs c) (ht c)

lemma of_all {s : String} (h : s.toList.all isNumeral = true) : IsNumeral s :=
  List.all_eq_true.1 h

lemma zeros (n : ℕ) : IsNumeral (String.ofList (List.replicate n '0')) := by
  intro c hc
  rw [String.toList_ofList] at hc
  rw [List.eq_of_mem_replicate hc]
  decide

lemma take {s : String} (hs : IsNumeral s) (n : ℕ) : IsNumeral (String.ofList (s.toList.take n)) := by
  intro c hc
  rw [String.toList_ofList] at hc
  exact hs c (List.mem_of_mem_take hc)

lemma drop {s : String} (hs : IsNumeral s) (n : ℕ) : IsNumeral (String.ofList (s.toList.drop n)) := by
  intro c hc
  rw [String.toList_ofList] at hc
  exact hs c (List.mem_of_mem_drop hc)

lemma ofInt (z : ℤ) : IsNumeral (toString z) := by
  have hdigits : ∀ n : ℕ, IsNumeral n.repr := by
    intro n c hc
    rw [Nat.toList_repr] at hc
    exact isNumeral_of_isDigit (List.all_eq_true.1 (all_isDigit_toDigits n) c hc)
  rw [Int.toString_eq_repr, Int.repr_eq_if]
  split
  · exact hdigits _
  · exact append (of_all (by decide)) (hdigits _)

lemma positiveToString (q : ℚ) : IsNumeral (Number.positiveToString q) := by
  have hpoint : IsNumeral "." := of_all (by decide)
  simp only [Number.positiveToString]
  generalize Number.shortestDigits q (Int.log 10 q + 1) 1 16 = digits
  have hdigits := ofInt digits.1
  split_ifs
  · exact hdigits.append (zeros _)
  · exact ((hdigits.take _).append hpoint).append (hdigits.drop _)
  · exact (append (of_all (by decide)) (zeros _)).append hdigits
  · exact hdigits.append (append (of_all (by decide)) (ofInt _))
  · exact hdigits.append (append (of_all (by decide)) (ofInt _))
  · exact (((hdigits.take _).append hpoint).append (hdigits.drop _)).append
      (append (of_all (by decide)) (ofInt _))
  · exact (((hdigits.take _).append hpoint).append (hdigits.drop _)).append
      (append (of_all (by decide)) (ofInt _))

lemma toStr (q : ℚ) : IsNumeral (Number.toStr (.finite q)) := by
  simp only [Number.toStr]
  split_ifs
  · exact of_all (by decide)
  · exact append (of_all (by decide)) (positiveToString _)
  · exact positiveToString q

end IsNumeral

/-! ### Plain texts -/

/-- A character of one byte that is no closing brace. -/
def isPlain (c : Char) : Bool :=
  c.toNat < 128 && c ≠ '}'

/-- A value whose text has plain characters only. -/
def Plain : Value → Prop
  | .str s => ∀ c ∈ s.toList, isPlain c = true
  | .num _ | .null | .bool _ | .undefined => True
  | .arr _ | .obj _ => False

section

variable {c : Char} {s t : List Char} {k : String} {v : Value} {fields : List (String × Value)}

lemma isPlain_of_all (h : s.all isPlain = true) (hc : c ∈ s) : isPlain c = true :=
  List.all_eq_true.1 h c hc

lemma isPlain_of_isNumeral (h : isNumeral c = true) : isPlain c = true := by
  rw [isNumeral, Bool.or_eq_true] at h
  rcases h with hdigit | hmem
  · obtain ⟨d, hd, rfl⟩ := exists_digit hdigit
    revert d
    decide
  · exact isPlain_of_all (by decide) (of_decide_eq_true hmem)

lemma plain_control : ∀ n < 0x20, isPlain (Nat.digitChar (n / 16)) = true ∧
    isPlain (Nat.digitChar (n % 16)) = true := by
  decide

lemma isPlain_of_mem_escapeChar {d : Char} (hd : isPlain d = true) (hc : c ∈ escapeChar d) :
    isPlain c = true := by
  rw [escapeChar] at hc
  split_ifs at hc with h₁ h₂ h₃ h₄ h₅ h₆ h₇ h₈
  · exact isPlain_of_all (by decide) hc
  · exact isPlain_of_all (by decide) hc
  · exact isPlain_of_all (by decide) hc
  · exact isPlain_of_all (by decide) hc
  · exact isPlain_of_all (by decide) hc
  · exact isPlain_of_all (by decide) hc
  · exact isPlain_of_all (by decide) hc
  · obtain ⟨hhigh, hlow⟩ := plain_control d.toNat h₈
    simp only [List.mem_cons, List.not_mem_nil, or_false] at hc
    rcases hc with rfl | rfl | rfl | rfl | rfl | rfl
    · decide
    · decide
    · decide
    · decide
    · exact hhigh
    · exact hlow
  · rw [List.mem_singleton.1 hc]
    exact hd

lemma isPlain_of_mem_quote (hk : ∀ c ∈ k.toList, isPlain c = true) (hc : c ∈ quote k) :
    isPlain c = true := by
  rw [quote, List.cons_append, List.mem_cons, List.mem_append, List.mem_singleton, escape,
    List.mem_flatMap] at hc
  rcases hc with rfl | ⟨d, hd, hc⟩ | rfl
  · decide
  · exact isPlain_of_mem_escapeChar (hk d hd) hc
  · decide

lemma isPlain_of_mem_stringify (hv : Plain v) (ht : stringify v = some t) (hc : c ∈ t) :
    isPlain c = true := by
  cases v with
  | undefined => cases ht
  | null =>
    cases ht
    exact isPlain_of_all (by decide) hc
  | bool b =>
    cases ht
    cases b with
    | true => exact isPlain_of_all (by decide) hc
    | false => exact isPlain_of_all (by decide) hc
  | num x =>
    cases x with
    | finite q =>
      cases ht
      exact isPlain_of_isNumeral (IsNumeral.toStr q c hc)
    | _ =>
      cases ht
      exact isPlain_of_all (by decide) hc
  | str s =>
    cases ht
    exact isPlain_of_mem_quote hv hc
  | arr elems => exact hv.elim
  | obj fields => exact hv.elim

lemma isPlain_of_mem_memberLines
    (hfields : ∀ f ∈ fields, (∀ c ∈ f.1.toList, isPlain c = true) ∧ Plain f.2) :
    ∀ line ∈ memberLines fields, ∀ c ∈ line, isPlain c = true := by
  induction fields with
  | nil => exact fun line hline => absurd hline List.not_mem_nil
  | cons f fields ih =>
    obtain ⟨k, v⟩ := f
    obtain ⟨hk, hv⟩ := hfields (k, v) List.mem_cons_self
    have hrest := ih fun f hf => hfields f (List.mem_cons_of_mem _ hf)
    intro line hline c hc
    rw [memberLines] at hline
    split at hline
    · next t ht =>
      rcases List.mem_cons.1 hline with rfl | hline
      · simp only [List.mem_cons, List.mem_append] at hc
        rcases hc with rfl | rfl | hc | rfl | rfl | hc
        · decide
        · decide
        · exact isPlain_of_mem_quote hk hc
        · decide
        · decide
        · exact isPlain_of_mem_stringify hv ht hc
      · exact hrest line hline c hc
    · exact hrest line hline c hc

lemma mem_intercalate {sep : List Char} {lines : List (List Char)} (hc : c ∈ sep.intercalate lines) :
    c ∈ sep ∨ ∃ line ∈ lines, c ∈ line := by
  induction lines with
  | nil => exact absurd hc List.not_mem_nil
  | cons line lines ih =>
    cases lines with
    | nil =>
      rw [List.intercalate_singleton] at hc
      exact Or.inr ⟨line, List.mem_cons_self, hc⟩
    | cons line' lines =>
      rw [List.intercalate_cons_cons, List.append_assoc, List.mem_append, List.mem_append] at hc
      rcases hc with hc | hc | hc
      · exact Or.inr ⟨line, List.mem_cons_self, hc⟩
      · exact Or.inl hc
      · rcases ih hc with hsep | ⟨l, hl, hc⟩
        · exact Or.inl hsep
        · exact Or.inr ⟨l, List.mem_cons_of_mem _ hl, hc⟩

lemma exists_plain
    (hfields : ∀ f ∈ fields, (∀ c ∈ f.1.toList, isPlain c = true) ∧ Plain f.2) :
    ∃ body, stringifyFlat fields = '{' :: (body ++ ['}']) ∧ ∀ c ∈ body, isPlain c = true := by
  have hlines := isPlain_of_mem_memberLines hfields
  rw [stringifyFlat]
  split
  · exact ⟨[], rfl, fun c hc => absurd hc List.not_mem_nil⟩
  · refine ⟨'\n' :: ([',', '\n'].intercalate (memberLines fields) ++ ['\n']), by simp, ?_⟩
    intro c hc
    rw [List.mem_cons, List.mem_append, List.mem_singleton] at hc
    rcases hc with rfl | hc | rfl
    · decide
    · rcases mem_intercalate hc with hsep | ⟨line, hline, hc⟩
      · exact isPlain_of_all (by decide) hsep
      · exact hlines line hline c hc
    · decide

/-- Every character of plain members is one byte, and nothing is read of them when their writer has
been stopped before the end. -/
theorem parse_flat_torn
    (hfields : ∀ f ∈ fields, (∀ c ∈ f.1.toList, isPlain c = true) ∧ Plain f.2) :
    (∀ c ∈ stringifyFlat fields, c.toNat < 128) ∧
      ∀ n < (stringifyFlat fields).length,
        parse (String.ofList ((stringifyFlat fields).take n)) = none := by
  obtain ⟨body, htext, hbody⟩ := exists_plain hfields
  rw [htext]
  constructor
  · intro c hc
    rw [List.mem_cons, List.mem_append, List.mem_singleton] at hc
    rcases hc with rfl | hc | rfl
    · decide
    · exact of_decide_eq_true (Bool.and_eq_true_iff.1 (hbody c hc)).1
    · decide
  · intro n hn
    rw [List.length_cons, List.length_append, List.length_singleton] at hn
    exact parse_torn (fun hmem => absurd (hbody '}' hmem) (by decide)) (by omega)

end

/-! ### Members that are read back -/

/-- The value is written, and its text is read back wherever a line ends after it. -/
def ReadsBack (v : Value) : Prop :=
  ∃ t, stringify v = some t ∧ ∀ fuel rest, t.length < fuel →
    (∃ r, rest = ',' :: r ∨ rest = '\n' :: r) → readValue fuel (t ++ rest) = some (v, rest)

/-- The text of an object after its opening brace and the end of the line. -/
def linesText : List (String × Value) → List Char
  | [] => ['\n', '}']
  | [(k, v)] => ' ' :: ' ' :: (quote k ++ ':' :: ' ' :: ((stringify v).getD [] ++ ['\n', '}']))
  | (k, v) :: fields =>
    ' ' :: ' ' :: (quote k ++ ':' :: ' ' :: ((stringify v).getD [] ++ ',' :: '\n' ::
      linesText fields))

/-- The fields that a reader has after some members. -/
def setFields (fields : List (String × Value)) (members : List (String × Value)) :
    List (String × Value) :=
  members.foldl (fun fields f => setField fields f.1 f.2) fields

section

variable {fields members : List (String × Value)} {k s : String} {v : Value} {n fuel : ℕ}
  {c : Char} {t rest : List Char}

lemma readsBack_str : ReadsBack (.str s) := by
  refine ⟨quote s, rfl, fun fuel rest hfuel _ => ?_⟩
  have hlen := length_lt_quote (k := s)
  obtain ⟨fuel, rfl⟩ : ∃ m, fuel = m + 1 := ⟨fuel - 1, by omega⟩
  rw [readValue_quote, if_pos (by omega)]

lemma head?_toDigits_ne (hpos : 0 < n) : (Nat.toDigits 10 n).head? ≠ some '0' := by
  induction n using Nat.strong_induction_on with
  | _ n ih =>
    rcases Nat.lt_or_ge n 10 with hlt | hge
    · rw [Nat.toDigits_of_lt_base hlt]
      interval_cases n <;> decide
    · rw [Nat.toDigits_of_base_le (by decide) hge, List.head?_append]
      have hrest := ih (n / 10) (by omega) (by omega)
      cases hhead : (Nat.toDigits 10 (n / 10)).head? with
      | none => exact absurd (List.head?_eq_none_iff.1 hhead) Nat.toDigits_ne_nil
      | some d =>
        rw [hhead] at hrest
        exact hrest

lemma readNumber_of_ne (h : ∀ r, t ≠ '-' :: r) : readNumber t =
    if t.takeWhile Char.isDigit = [] ∨
        (1 < (t.takeWhile Char.isDigit).length ∧ (t.takeWhile Char.isDigit).head? = some '0') ∨
        (match t.dropWhile Char.isDigit with
          | '.' :: r => (r.takeWhile Char.isDigit).isEmpty
          | _ => false) = true then none
    else (decimalPrefix t).map fun r => (Number.round r.1, r.2) := by
  unfold readNumber
  split
  next negative t' hsign =>
    split at hsign
    · next r => exact absurd rfl (h r)
    · cases hsign
      rfl

lemma decimalPrefix_of_ne {ds : List Char} (ht : t.span Char.isDigit = (ds, rest)) (hne : ds ≠ [])
    (h : ∀ r, rest ≠ '.' :: r) : decimalPrefix t =
      some (ofDigits 10 ds * (10 : ℚ) ^ (exponentPart rest).1, (exponentPart rest).2) := by
  unfold decimalPrefix
  rw [ht]
  dsimp only
  split
  · next r => exact absurd rfl (h r)
  · simp [hne]

/-- A text that a number does not go on with. -/
def Stops (s : List Char) : Prop :=
  ∀ c ∈ s.head?, c.isDigit = false ∧ c ≠ '.' ∧ c.toLower ≠ 'e'

/-- The digits of a number are read up to their end, as `decimalPrefix` reads them. -/
lemma decimalPrefix_toDigits (hrest : Stops rest) :
    decimalPrefix (Nat.toDigits 10 n ++ rest) = some ((n : ℚ), rest) ∧
      (Nat.toDigits 10 n ++ rest).takeWhile Char.isDigit = Nat.toDigits 10 n ∧
      (Nat.toDigits 10 n ++ rest).dropWhile Char.isDigit = rest := by
  have hall := List.all_eq_true.1 (all_isDigit_toDigits n)
  have htake : (Nat.toDigits 10 n ++ rest).takeWhile Char.isDigit = Nat.toDigits 10 n := by
    rw [List.takeWhile_append_of_pos hall]
    cases rest with
    | nil => simp
    | cons c r => simp [(hrest c rfl).1]
  have hdrop : (Nat.toDigits 10 n ++ rest).dropWhile Char.isDigit = rest := by
    rw [List.dropWhile_append_of_pos hall]
    cases rest with
    | nil => rfl
    | cons c r => simp [(hrest c rfl).1]
  have hspan : (Nat.toDigits 10 n ++ rest).span Char.isDigit = (Nat.toDigits 10 n, rest) := by
    rw [List.span_eq_takeWhile_dropWhile, htake, hdrop]
  have hpoint : ∀ r, rest ≠ '.' :: r := by
    rintro r rfl
    exact (hrest '.' rfl).2.1 rfl
  have hexp : exponentPart rest = (0, rest) := by
    cases rest with
    | nil => rfl
    | cons c r => simp [exponentPart, (hrest c rfl).2.2]
  refine ⟨?_, htake, hdrop⟩
  rw [decimalPrefix_of_ne hspan Nat.toDigits_ne_nil hpoint, hexp, ofDigits_toDigits, zpow_zero,
    mul_one]

lemma readNumber_toDigits (hn : n < 2 ^ 53) (hrest : Stops rest) :
    readNumber (Nat.toDigits 10 n ++ rest) = some (.finite n, rest) := by
  obtain ⟨hdecimal, htake, hdrop⟩ := decimalPrefix_toDigits (n := n) hrest
  have hsign : ∀ r, Nat.toDigits 10 n ++ rest ≠ '-' :: r := by
    intro r hr
    rw [hr] at htake
    exact Nat.toDigits_ne_nil htake.symm
  have hzero : ¬ (1 < (Nat.toDigits 10 n).length ∧ (Nat.toDigits 10 n).head? = some '0') := by
    rintro ⟨hlen, hhead⟩
    rcases Nat.eq_zero_or_pos n with rfl | hpos
    · rw [Nat.toDigits_zero] at hlen
      exact absurd hlen (by decide)
    · exact head?_toDigits_ne hpos hhead
  have hround : Number.round (n : ℚ) = .finite n :=
    Number.round_intCast (z := n) (by rw [abs_of_nonneg (Int.natCast_nonneg n)]; exact_mod_cast hn)
  rw [readNumber_of_ne hsign, htake, hdrop, if_neg, hdecimal, Option.map_some, hround]
  rintro (hnil | hlead | hdot)
  · exact Nat.toDigits_ne_nil hnil
  · exact hzero hlead
  · split at hdot
    · next r => exact (hrest '.' rfl).2.1 rfl
    · cases hdot

lemma readValue_digit (hc : c.isDigit = true) : readValue (fuel + 1) (c :: t) =
    (readNumber (c :: t)).map fun r => (.num r.1, r.2) := by
  obtain ⟨d, hd, rfl⟩ := exists_digit hc
  interval_cases d <;> rfl

lemma readsBack_natCast (hn : n < 10 ^ 15) : ReadsBack (.num (.finite n)) := by
  refine ⟨Nat.toDigits 10 n, ?_, ?_⟩
  · rw [stringify, toStr_natCast hn, String.toList_ofList]
  · intro fuel rest hfuel hrest
    obtain ⟨fuel, rfl⟩ : ∃ m, fuel = m + 1 := ⟨fuel - 1, by omega⟩
    have hnumber : readNumber (Nat.toDigits 10 n ++ rest) = some (.finite n, rest) := by
      refine readNumber_toDigits (by omega) ?_
      obtain ⟨r, rfl | rfl⟩ := hrest
      · simp [Stops]
      · simp [Stops]
    cases htext : Nat.toDigits 10 n with
    | nil => exact absurd htext Nat.toDigits_ne_nil
    | cons d ds =>
      have hd : d.isDigit = true :=
        List.all_eq_true.1 (all_isDigit_toDigits n) d (by rw [htext]; exact List.mem_cons_self)
      rw [htext, List.cons_append] at hnumber
      rw [List.cons_append, readValue_digit hd, hnumber]
      rfl

/-! ### Objects that are read back -/

lemma readValue_white (hc : isWhite c = true) : readValue fuel (c :: t) = readValue fuel t := by
  cases fuel with
  | zero => rfl
  | succ fuel => rw [readValue, readValue, List.dropWhile_cons_of_pos hc]

lemma readMembers_white (hc : isWhite c = true) :
    readMembers fuel fields (c :: t) = readMembers fuel fields t := by
  cases fuel with
  | zero => rfl
  | succ fuel => rw [readMembers, readMembers, List.dropWhile_cons_of_pos hc]

lemma readMembers_line (hv : ReadsBack v) (hrest : ∃ r, rest = ',' :: r ∨ rest = '\n' :: r)
    (hfuel : (quote k).length + ((stringify v).getD []).length ≤ fuel) :
    readMembers (fuel + 1) fields
      (' ' :: ' ' :: (quote k ++ ':' :: ' ' :: ((stringify v).getD [] ++ rest))) =
        afterValue fuel (setField fields k v) (rest.dropWhile isWhite) := by
  obtain ⟨t, ht, hread⟩ := hv
  have hk := length_lt_quote (k := k)
  rw [ht, Option.getD_some] at hfuel ⊢
  rw [readMembers_white (by decide), readMembers_white (by decide), readMembers_name,
    if_pos (by omega)]
  show afterName fuel fields k (':' :: ' ' :: (t ++ rest)) = _
  rw [afterName, readValue_white (by decide), hread fuel rest (by omega) hrest]
  rfl

lemma readMembers_linesText (hne : members ≠ []) (hmembers : ∀ f ∈ members, ReadsBack f.2)
    (hfuel : (linesText members).length ≤ fuel) :
    readMembers fuel fields (linesText members ++ rest) = some (setFields fields members, rest) := by
  induction members generalizing fields fuel with
  | nil => exact absurd rfl hne
  | cons f members ih =>
    obtain ⟨k, v⟩ := f
    have hv : ReadsBack v := hmembers (k, v) List.mem_cons_self
    cases members with
    | nil =>
      simp only [linesText, List.length_append, List.length_cons, List.length_nil] at hfuel
      obtain ⟨fuel, rfl⟩ : ∃ m, fuel = m + 1 := ⟨fuel - 1, by omega⟩
      have htext : linesText [(k, v)] ++ rest = ' ' :: ' ' ::
          (quote k ++ ':' :: ' ' :: ((stringify v).getD [] ++ '\n' :: '}' :: rest)) := by
        simp [linesText]
      rw [htext, readMembers_line hv ⟨_, Or.inr rfl⟩ (by omega)]
      rfl
    | cons g members =>
      have hlines : linesText ((k, v) :: g :: members) = ' ' :: ' ' ::
          (quote k ++ ':' :: ' ' :: ((stringify v).getD [] ++ ',' :: '\n' ::
            linesText (g :: members))) := rfl
      rw [hlines] at hfuel ⊢
      simp only [List.length_append, List.length_cons] at hfuel
      obtain ⟨fuel, rfl⟩ : ∃ m, fuel = m + 1 := ⟨fuel - 1, by omega⟩
      have htext : ' ' :: ' ' :: (quote k ++ ':' :: ' ' :: ((stringify v).getD [] ++ ',' :: '\n' ::
          linesText (g :: members))) ++ rest = ' ' :: ' ' :: (quote k ++ ':' :: ' ' ::
            ((stringify v).getD [] ++ ',' :: '\n' :: (linesText (g :: members) ++ rest))) := by
        simp
      rw [htext, readMembers_line hv ⟨_, Or.inl rfl⟩ (by omega)]
      show readMembers fuel (setField fields k v) ('\n' :: (linesText (g :: members) ++ rest)) = _
      rw [readMembers_white (by decide)]
      exact ih (by simp) (fun f hf => hmembers f (List.mem_cons_of_mem _ hf)) (by omega)

lemma memberLines_cons (hv : ReadsBack v) : memberLines ((k, v) :: members) =
    (' ' :: ' ' :: (quote k ++ ':' :: ' ' :: (stringify v).getD [])) :: memberLines members := by
  obtain ⟨t, ht, -⟩ := hv
  rw [memberLines, ht]
  rfl

lemma stringifyFlat_eq (hne : members ≠ []) (hmembers : ∀ f ∈ members, ReadsBack f.2) :
    stringifyFlat members = '{' :: '\n' :: linesText members := by
  have hlines : [',', '\n'].intercalate (memberLines members) ++ ['\n', '}'] =
      linesText members := by
    induction members with
    | nil => exact absurd rfl hne
    | cons f members ih =>
      obtain ⟨k, v⟩ := f
      rw [memberLines_cons (hmembers (k, v) List.mem_cons_self)]
      cases members with
      | nil => simp [memberLines, linesText]
      | cons g members =>
        obtain ⟨k', v'⟩ := g
        have hrest := ih (by simp) fun f hf => hmembers f (List.mem_cons_of_mem _ hf)
        rw [linesText]
        · rw [← hrest, memberLines_cons (hmembers (k', v') (by simp)), List.intercalate_cons_cons]
          simp
        · simp
  rw [stringifyFlat, ← hlines]
  split
  · next hnil =>
    obtain ⟨⟨k, v⟩, members, rfl⟩ := List.exists_cons_of_ne_nil hne
    rw [memberLines_cons (hmembers (k, v) List.mem_cons_self)] at hnil
    cases hnil
  · rfl

lemma exists_linesText (hne : members ≠ []) :
    ∃ s, linesText members = ' ' :: ' ' :: '"' :: s := by
  rcases members with _ | ⟨f, _ | ⟨g, members⟩⟩
  · exact absurd rfl hne
  · exact ⟨_, rfl⟩
  · exact ⟨_, rfl⟩

theorem parse_flat (hne : members ≠ []) (hmembers : ∀ f ∈ members, ReadsBack f.2) :
    parse (String.ofList (stringifyFlat members)) = some (.obj (setFields [] members)) := by
  obtain ⟨s, hs⟩ := exists_linesText hne
  have hlines : ∀ fuel, (linesText members).length ≤ fuel →
      readMembers fuel [] ('"' :: s) = some (setFields [] members, []) := by
    intro fuel hfuel
    have hread : readMembers fuel [] (linesText members ++ []) = some (setFields [] members, []) :=
      readMembers_linesText hne hmembers hfuel
    rwa [List.append_nil, hs, readMembers_white (by decide), readMembers_white (by decide)] at hread
  have hobj : ∀ fuel, readValue (fuel + 1) ('{' :: '\n' :: ' ' :: ' ' :: '"' :: s) =
      (readMembers fuel [] ('"' :: s)).map fun r => (.obj r.1, r.2) := fun fuel => rfl
  rw [stringifyFlat_eq hne hmembers, parse, String.toList_ofList, hs, hobj, ← hs,
    hlines _ (by simp only [List.length_cons]; omega)]
  rfl

end

end Js.Json
