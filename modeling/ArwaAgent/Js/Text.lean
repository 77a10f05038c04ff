import ArwaAgent.Js.Value

/-!
# Strings and bytes

The string methods that normalise hexadecimal text, and the bytes that `Buffer` reads
from it and writes in it.
-/

namespace Js

/-- `s.padStart(n, c)` for a character below 2^16. -/
def padStart (n : ℕ) (c : Char) (s : String) : String :=
  String.ofList (List.replicate (n - length16 s) c ++ s.toList)

/-- `s.padEnd(n, c)` for a character below 2^16. -/
def padEnd (n : ℕ) (c : Char) (s : String) : String :=
  String.ofList (s.toList ++ List.replicate (n - length16 s) c)

/-- `s.slice(-n)` -/
def sliceLast (n : ℕ) (s : String) : String :=
  String.ofList (slice16 n s.toList.reverse).reverse

/-- `s.replace(/^t/, '')` for a text `t`. -/
def removeStart (t s : String) : String :=
  if t.toList.isPrefixOf s.toList then String.ofList (s.toList.drop t.toList.length) else s

/-- A text without the first occurrence of another one. -/
def dropText (t : List Char) : List Char → List Char
  | [] => []
  | c :: cs => if t.isPrefixOf (c :: cs) then (c :: cs).drop t.length else c :: dropText t cs

/-- `s.replace(t, '')` for a text `t`: the first occurrence goes. -/
def removeText (t s : String) : String :=
  String.ofList (dropText t.toList s.toList)

/-- `s.replace(/^0+/, '')` -/
def removeZeros (s : String) : String :=
  String.ofList (s.toList.dropWhile (· = '0'))

/-- `s.padStart(64, '0').slice(-64)` -/
def last64 (s : String) : String :=
  sliceLast 64 (padStart 64 '0' s)

/-- `Buffer.from(s, 'hex')`: the bytes up to the first pair that is not two hexadecimal digits. -/
def hexBytes : List Char → List ℕ
  | a :: b :: cs =>
    if isDigitOf 16 a && isDigitOf 16 b then (16 * digitValue a + digitValue b) :: hexBytes cs
    else []
  | _ => []

/-- The number that some bytes stand for, the first one being the highest. -/
def ofBytes (bytes : List ℕ) : ℕ :=
  bytes.foldl (fun n b => 256 * n + b) 0

/-- A digit in base 16. -/
def hexDigit (d : ℕ) : Char :=
  "0123456789abcdef".toList.getD d '0'

/-- `Buffer.from(bytes).toString('hex')` -/
def hexOf (bytes : List ℕ) : String :=
  String.ofList (bytes.flatMap fun b => [hexDigit (b / 16), hexDigit (b % 16)])

/-- A number in `k` bytes, the first one being the highest. -/
def toBytes : ℕ → ℕ → List ℕ
  | 0, _ => []
  | k + 1, n => toBytes k (n / 256) ++ [n % 256]

/-! ### Texts that are left as they are -/

section

variable {cs ds : List Char} {s : String}

/-- Where no character counts twice, slicing is taking. -/
lemma slice16_eq_take (n : ℕ) (h : ∀ c ∈ cs, c.toNat < 0x10000) : slice16 n cs = cs.take n := by
  induction cs generalizing n with
  | nil => rw [slice16, List.take_nil]
  | cons c cs ih =>
    have hc : decide (c.toNat < 0x10000) = true := decide_eq_true (h c (List.mem_cons_self ..))
    cases n with
    | zero => simp [slice16]
    | succ n => simp [slice16, hc, ih n fun d hd => h d (List.mem_cons_of_mem _ hd)]

lemma slice16_append (hcs : ∀ c ∈ cs, c.toNat < 0x10000) : slice16 cs.length (cs ++ ds) = cs := by
  induction cs with
  | nil => cases ds <;> simp [slice16]
  | cons c cs ih =>
    have hc : decide (c.toNat < 0x10000) = true := decide_eq_true (hcs c (List.mem_cons_self ..))
    rw [List.length_cons, List.cons_append]
    simp only [slice16, hc]
    rw [ih fun d hd => hcs d (List.mem_cons_of_mem _ hd)]

lemma slice16_eq_self {n : ℕ} (h : (cs.map fun c => if c.toNat < 0x10000 then 1 else 2).sum ≤ n) :
    slice16 n cs = cs := by
  induction cs generalizing n with
  | nil => rw [slice16]
  | cons c cs ih =>
    rw [List.map_cons, List.sum_cons] at h
    by_cases hc : c.toNat < 0x10000
    · rw [if_pos hc] at h
      obtain ⟨n, rfl⟩ : ∃ k, n = k + 1 := ⟨n - 1, by omega⟩
      simp [slice16, hc, ih (n := n) (by omega)]
    · rw [if_neg hc] at h
      obtain ⟨n, rfl⟩ : ∃ k, n = k + 2 := ⟨n - 2, by omega⟩
      simp [slice16, hc, ih (n := n) (by omega)]

lemma length16_eq_length (h : ∀ c ∈ s.toList, c.toNat < 0x10000) :
    length16 s = s.toList.length := by
  rw [length16, List.map_congr_left (g := fun _ => 1) fun c hc => if_pos (h c hc)]
  simp

lemma padStart_eq_self {n : ℕ} {c : Char} (h : n ≤ length16 s) : padStart n c s = s := by
  rw [padStart, Nat.sub_eq_zero_of_le h, List.replicate_zero, List.nil_append, String.ofList_toList]

lemma padEnd_eq_self {n : ℕ} {c : Char} (h : n ≤ length16 s) : padEnd n c s = s := by
  rw [padEnd, Nat.sub_eq_zero_of_le h, List.replicate_zero, List.append_nil, String.ofList_toList]

lemma last64_eq_self (h : length16 s = 64) : last64 s = s := by
  rw [last64, padStart_eq_self h.ge, sliceLast, slice16_eq_self, List.reverse_reverse,
    String.ofList_toList]
  rw [List.map_reverse, List.sum_reverse]
  exact h.le

end

/-! ### Hexadecimal texts -/

/-- The text has `n` characters, all of them hexadecimal digits. -/
structure IsHex (n : ℕ) (s : String) : Prop where
  length : s.toList.length = n
  digits : ∀ c ∈ s.toList, isDigitOf 16 c = true

instance (n : ℕ) (s : String) : Decidable (IsHex n s) :=
  decidable_of_iff (s.toList.length = n ∧ s.toList.all (isDigitOf 16) = true)
    ⟨fun h => ⟨h.1, List.all_eq_true.1 h.2⟩, fun h => ⟨h.length, List.all_eq_true.2 h.digits⟩⟩

section

variable {n m base : ℕ} {c : Char} {s t h : String} {cs ds ts : List Char}

lemma toNat_of_isDigitOf (h : isDigitOf base c = true) :
    '0'.toNat ≤ c.toNat ∧ c.toNat ≤ 'z'.toNat := by
  rw [isDigitOf, Bool.and_eq_true, Bool.or_eq_true] at h
  rcases h.1 with hdigit | halpha
  · obtain ⟨hge, hle⟩ := Char.isDigit_iff_toNat.1 hdigit
    exact ⟨hge, hle.trans (by decide)⟩
  · rcases Bool.or_eq_true_iff.1 halpha with hupper | hlower
    · obtain ⟨hge, hle⟩ := of_decide_eq_true hupper
      exact ⟨le_trans (by decide) (UInt32.le_iff_toNat_le.1 hge),
        (UInt32.le_iff_toNat_le.1 hle).trans (by decide)⟩
    · obtain ⟨hge, hle⟩ := Bool.and_eq_true_iff.1 hlower
      exact ⟨le_trans (by decide) (UInt32.le_iff_toNat_le.1 (of_decide_eq_true hge)),
        UInt32.le_iff_toNat_le.1 (of_decide_eq_true hle)⟩

lemma toNat_lt_of_isDigitOf (h : isDigitOf base c = true) : c.toNat < 0x10000 :=
  Nat.lt_of_le_of_lt (toNat_of_isDigitOf h).2 (by decide)

lemma IsHex.toNat_lt (h : IsHex n s) : ∀ c ∈ s.toList, c.toNat < 0x10000 :=
  fun c hc => toNat_lt_of_isDigitOf (h.digits c hc)

lemma IsHex.length16 (h : IsHex n s) : length16 s = n :=
  (length16_eq_length h.toNat_lt).trans h.length

lemma IsHex.last64 (h : IsHex 64 s) : last64 s = s :=
  last64_eq_self h.length16

lemma IsHex.append (hs : IsHex n s) (ht : IsHex m t) : IsHex (n + m) (s ++ t) := by
  refine ⟨?_, fun c hc => ?_⟩
  · rw [String.toList_append, List.length_append, hs.length, ht.length]
  · rw [String.toList_append] at hc
    rcases List.mem_append.1 hc with hc | hc
    · exact hs.digits c hc
    · exact ht.digits c hc

lemma removeStart_append : removeStart t (t ++ s) = s := by
  rw [removeStart, if_pos]
  · rw [String.toList_append, List.drop_left, String.ofList_toList]
  · rw [String.toList_append]
    exact List.isPrefixOf_iff_prefix.2 (List.prefix_append _ _)

/-- Digits do not start with a text that has another character. -/
lemma IsHex.removeStart (h : IsHex n s) (ht : t.toList.all (isDigitOf 16) = false) :
    removeStart t s = s := by
  rw [Js.removeStart, if_neg]
  intro hpre
  have hall : t.toList.all (isDigitOf 16) = true :=
    List.all_eq_true.2 fun c hc => h.digits c ((List.isPrefixOf_iff_prefix.1 hpre).subset hc)
  rw [ht] at hall
  cases hall

lemma removeText_append (hne : t ≠ "") : removeText t (t ++ s) = s := by
  obtain ⟨c, cs, ht⟩ := List.exists_cons_of_ne_nil (mt String.toList_eq_nil_iff.1 hne)
  rw [removeText, String.toList_append, ht, List.cons_append, dropText, if_pos, ← List.cons_append,
    List.drop_left, String.ofList_toList]
  exact List.isPrefixOf_iff_prefix.2 (List.prefix_append (c :: cs) s.toList)

lemma dropText_digits (hts : ts.all (isDigitOf 16) = false) (h : ∀ c ∈ cs, isDigitOf 16 c = true) :
    dropText ts cs = cs := by
  induction cs with
  | nil => rfl
  | cons c cs ih =>
    rw [dropText, if_neg, ih fun d hd => h d (List.mem_cons_of_mem _ hd)]
    intro hpre
    have hall : ts.all (isDigitOf 16) = true :=
      List.all_eq_true.2 fun d hd => h d ((List.isPrefixOf_iff_prefix.1 hpre).subset hd)
    rw [hts] at hall
    cases hall

lemma IsHex.removeText (h : IsHex n s) (ht : t.toList.all (isDigitOf 16) = false) :
    removeText t s = s := by
  rw [Js.removeText, dropText_digits ht h.digits, String.ofList_toList]

lemma IsHex.isHex_last64 (h : IsHex n s) : IsHex 64 (Js.last64 s) := by
  have hzero : isDigitOf 16 '0' = true := by decide
  have hpad : ∀ c ∈ (padStart 64 '0' s).toList, isDigitOf 16 c = true := by
    intro c hc
    rw [padStart, String.toList_ofList, List.mem_append] at hc
    rcases hc with hc | hc
    · rw [List.eq_of_mem_replicate hc, hzero]
    · exact h.digits c hc
  have hlen : 64 ≤ (padStart 64 '0' s).toList.length := by
    rw [padStart, String.toList_ofList, List.length_append, List.length_replicate, h.length16,
      h.length]
    omega
  have hlast : (Js.last64 s).toList = ((padStart 64 '0' s).toList.reverse.take 64).reverse := by
    rw [Js.last64, sliceLast, String.toList_ofList, slice16_eq_take]
    exact fun c hc => toNat_lt_of_isDigitOf (hpad c (List.mem_reverse.1 hc))
  refine ⟨?_, fun c hc => ?_⟩
  · rw [hlast, List.length_reverse, List.length_take, List.length_reverse, min_eq_left hlen]
  · rw [hlast, List.mem_reverse] at hc
    exact hpad c (List.mem_reverse.1 (List.mem_of_mem_take hc))

lemma IsHex.exists_removeZeros (h : IsHex n s) : ∃ m, IsHex m (removeZeros s) := by
  refine ⟨_, rfl, fun c hc => h.digits c ?_⟩
  rw [removeZeros, String.toList_ofList] at hc
  exact (List.dropWhile_sublist _).subset hc

lemma IsHex.last64_append (hh : IsHex 64 h) (s : String) : Js.last64 (s ++ h) = h := by
  have hlen : 64 ≤ Js.length16 (s ++ h) := by
    rw [Js.length16, String.toList_append, List.map_append, List.sum_append, ← Js.length16,
      ← Js.length16, hh.length16]
    omega
  have hrev : h.toList.reverse.length = 64 := by rw [List.length_reverse, hh.length]
  rw [Js.last64, padStart_eq_self hlen, sliceLast, String.toList_append, List.reverse_append,
    ← hrev, slice16_append, List.reverse_reverse, String.ofList_toList]
  exact fun c hc => hh.toNat_lt c (List.mem_reverse.1 hc)

/-- Before digits, a text with another character at its end comes to an end. -/
lemma prefix_of_prefix_append (hds : ∀ d ∈ ds, isDigitOf 16 d = true) (hc : isDigitOf 16 c = false)
    (hpre : ts ++ [c] <+: cs ++ ds) : ts ++ [c] <+: cs := by
  rcases le_or_gt (ts ++ [c]).length cs.length with hle | hlt
  · exact List.prefix_of_prefix_length_le hpre (List.prefix_append _ _) hle
  · obtain ⟨us, hus⟩ := List.prefix_of_prefix_length_le (List.prefix_append cs ds) hpre hlt.le
    rw [← hus] at hpre
    have hmem : c ∈ us := by
      rcases us.eq_nil_or_concat' with rfl | ⟨us, d, rfl⟩
      · rw [← hus] at hlt
        simp at hlt
      · rw [← List.append_assoc] at hus
        have := (List.append_inj' hus rfl).2
        simp [← List.singleton_inj.1 this]
    have hdigit := hds c (((List.prefix_append_right_inj cs).1 hpre).subset hmem)
    rw [hc] at hdigit
    cases hdigit

lemma IsHex.exists_removeStart_append (hh : IsHex n h) (hc : isDigitOf 16 c = false)
    (ht : t.toList = ts ++ [c]) (s : String) : ∃ s', Js.removeStart t (s ++ h) = s' ++ h := by
  rw [Js.removeStart]
  split
  next hpre =>
    rw [String.toList_append, ht] at hpre
    obtain ⟨us, hus⟩ := prefix_of_prefix_append hh.digits hc (List.isPrefixOf_iff_prefix.1 hpre)
    refine ⟨String.ofList us, ?_⟩
    rw [String.toList_append, ← hus, ht, List.append_assoc, List.drop_left, String.ofList_append,
      String.ofList_toList]
  next => exact ⟨s, rfl⟩

@[inherit_doc IsHex.exists_removeStart_append]
lemma IsHex.exists_removeText_append (hh : IsHex n h) (hc : isDigitOf 16 c = false)
    (ht : t.toList = ts ++ [c]) (s : String) : ∃ s', Js.removeText t (s ++ h) = s' ++ h := by
  have hall : (ts ++ [c]).all (isDigitOf 16) = false := by
    rw [List.all_append, List.all_cons, hc, Bool.false_and, Bool.and_false]
  have hdrop : ∀ cs : List Char,
      ∃ cs', dropText (ts ++ [c]) (cs ++ h.toList) = cs' ++ h.toList := by
    intro cs
    induction cs with
    | nil => exact ⟨[], dropText_digits hall hh.digits⟩
    | cons d cs ih =>
      rw [List.cons_append, dropText]
      split
      next hpre =>
        obtain ⟨us, hus⟩ := prefix_of_prefix_append hh.digits hc
          (List.isPrefixOf_iff_prefix.1 (List.cons_append ▸ hpre))
        exact ⟨us, by rw [← List.cons_append, ← hus, List.append_assoc, List.drop_left]⟩
      next =>
        obtain ⟨cs', hcs⟩ := ih
        exact ⟨d :: cs', by rw [hcs, List.cons_append]⟩
  obtain ⟨cs, hcs⟩ := hdrop s.toList
  refine ⟨String.ofList cs, ?_⟩
  rw [Js.removeText, String.toList_append, ht, hcs, String.ofList_append, String.ofList_toList]

lemma exists_byte {k : ℕ} (hlen : cs.length = 2 * (k + 1))
    (h : ∀ c ∈ cs, isDigitOf 16 c = true) :
    ∃ a b cs', cs = a :: b :: cs' ∧ cs'.length = 2 * k ∧ (∀ c ∈ cs', isDigitOf 16 c = true) ∧
      ∀ es, hexBytes (a :: b :: es) = (16 * digitValue a + digitValue b) :: hexBytes es := by
  rcases cs with _ | ⟨a, _ | ⟨b, cs⟩⟩
  · simp at hlen
  · simp only [List.length_cons, List.length_nil] at hlen
    omega
  · simp only [List.length_cons] at hlen
    have ha := h a (by simp)
    have hb := h b (by simp)
    refine ⟨a, b, cs, rfl, by omega, fun c hc => h c (by simp [hc]), fun es => ?_⟩
    simp only [hexBytes, ha, hb, Bool.and_self, if_true]

lemma hexBytes_append {k : ℕ} (hlen : cs.length = 2 * k) (h : ∀ c ∈ cs, isDigitOf 16 c = true) :
    hexBytes (cs ++ ds) = hexBytes cs ++ hexBytes ds := by
  induction k generalizing cs with
  | zero =>
    obtain rfl := List.eq_nil_of_length_eq_zero hlen
    rfl
  | succ k ih =>
    obtain ⟨a, b, cs, rfl, hlen, h, hbyte⟩ := exists_byte hlen h
    rw [List.cons_append, List.cons_append, hbyte, hbyte, ih hlen h, List.cons_append]

lemma length_hexBytes {k : ℕ} (hlen : cs.length = 2 * k) (h : ∀ c ∈ cs, isDigitOf 16 c = true) :
    (hexBytes cs).length = k := by
  induction k generalizing cs with
  | zero =>
    obtain rfl := List.eq_nil_of_length_eq_zero hlen
    rfl
  | succ k ih =>
    obtain ⟨a, b, cs, rfl, hlen, h, hbyte⟩ := exists_byte hlen h
    rw [hbyte, List.length_cons, ih hlen h]

end

/-! ### Writing bytes -/

section

variable {n k : ℕ} {bytes : List ℕ}

lemma hexDigit_spec : ∀ d < 16, isDigitOf 16 (hexDigit d) = true ∧ digitValue (hexDigit d) = d := by
  decide

lemma toList_hexOf_cons (b : ℕ) (bytes : List ℕ) :
    (hexOf (b :: bytes)).toList =
      hexDigit (b / 16) :: hexDigit (b % 16) :: (hexOf bytes).toList := by
  rw [hexOf, hexOf, List.flatMap_cons, String.toList_ofList, String.toList_ofList]
  rfl

/-- Bytes are written in two digits each. -/
lemma isHex_hexOf (h : ∀ b ∈ bytes, b < 256) : IsHex (2 * bytes.length) (hexOf bytes) := by
  induction bytes with
  | nil => decide
  | cons b bytes ih =>
    have hb := h b (List.mem_cons_self ..)
    have ih := ih fun c hc => h c (List.mem_cons_of_mem _ hc)
    refine ⟨?_, ?_⟩
    · rw [toList_hexOf_cons, List.length_cons, List.length_cons, ih.length, List.length_cons]
      omega
    · rw [toList_hexOf_cons]
      exact List.forall_mem_cons.2 ⟨(hexDigit_spec _ (by omega)).1,
        List.forall_mem_cons.2 ⟨(hexDigit_spec _ (by omega)).1, ih.digits⟩⟩

lemma hexBytes_hexOf (h : ∀ b ∈ bytes, b < 256) : hexBytes (hexOf bytes).toList = bytes := by
  induction bytes with
  | nil => rfl
  | cons b bytes ih =>
    have hb := h b (List.mem_cons_self ..)
    obtain ⟨hhigh, hhighval⟩ := hexDigit_spec (b / 16) (by omega)
    obtain ⟨hlow, hlowval⟩ := hexDigit_spec (b % 16) (by omega)
    rw [toList_hexOf_cons, hexBytes, hhigh, hlow, hhighval, hlowval,
      ih fun c hc => h c (List.mem_cons_of_mem _ hc), Nat.div_add_mod]
    rfl

lemma length_toBytes (k n : ℕ) : (toBytes k n).length = k := by
  induction k generalizing n with
  | zero => rfl
  | succ k ih => rw [toBytes, List.length_append, ih, List.length_singleton]

lemma lt_of_mem_toBytes (k n : ℕ) : ∀ b ∈ toBytes k n, b < 256 := by
  induction k generalizing n with
  | zero => exact nofun
  | succ k ih =>
    rw [toBytes, List.forall_mem_append]
    exact ⟨ih _, List.forall_mem_singleton.2 (Nat.mod_lt _ (by decide))⟩

lemma ofBytes_toBytes (h : n < 256 ^ k) : ofBytes (toBytes k n) = n := by
  induction k generalizing n with
  | zero => exact (Nat.lt_one_iff.1 h).symm
  | succ k ih =>
    have hdiv : n / 256 < 256 ^ k := Nat.div_lt_of_lt_mul (by rwa [pow_succ'] at h)
    rw [toBytes, ofBytes, List.foldl_append, ← ofBytes, ih hdiv]
    exact Nat.div_add_mod n 256

end

end Js
