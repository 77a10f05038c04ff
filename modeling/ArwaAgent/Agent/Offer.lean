import ArwaAgent.Agent.Exchange
import ArwaAgent.Js.Tree

/-!
# What the exchange offers

The tool of the exchange hands out a transaction as structured content, as a text of JSON, or with
prose around the JSON.  `Offers` says in which answers a transaction is offered, and
`parseResult_of_offers` that it is read from all of them as it is.
-/

namespace ArwaAgent

open Js Json

/-! ### Names inside of a text -/

section

variable {s t a b pre post body : List Char} {fields xs ys : List (String × Value)} {k : String}
  {v : Value}

lemma exists_afterFirst (t a b : List Char) :
    ∃ c, afterFirst t (a ++ (t ++ b)) = some (c ++ b) := by
  induction a with
  | nil =>
    refine ⟨[], ?_⟩
    have hprefix : t.isPrefixOf (t ++ b) = true :=
      List.isPrefixOf_iff_prefix.2 (List.prefix_append t b)
    have hdrop : (t ++ b).drop t.length = b := List.drop_left
    rw [List.nil_append, List.nil_append]
    cases htext : t ++ b with
    | nil =>
      obtain ⟨rfl, rfl⟩ := List.append_eq_nil_iff.1 htext
      rfl
    | cons c s => rw [afterFirst, ← htext, if_pos hprefix, hdrop]
  | cons d a ih =>
    rw [List.cons_append, afterFirst]
    split
    · -- an occurrence at the very beginning
      refine ⟨(d :: (a ++ t)).drop t.length, ?_⟩
      rw [← List.cons_append, ← List.append_assoc, List.cons_append, List.drop_append_of_le_length]
      simp only [List.length_cons, List.length_append]
      omega
    · exact ih

/-- The name of a member is in the text of the members, before the text of what follows it. -/
lemma exists_name (h : SpellsMembers (xs ++ (k, v) :: ys) t) :
    ∃ a b, t = a ++ (quote k ++ b) ∧
      (ys ≠ [] → ∃ c rest, b = c ++ rest ∧ SpellsMembers ys rest) := by
  induction xs generalizing t with
  | nil =>
    rw [List.nil_append, SpellsMembers] at h
    obtain ⟨w, w₁, w₂, text, w', -, -, -, -, -, ⟨hnil, rfl⟩ | ⟨-, rest, rfl, hrest⟩⟩ := h
    · exact ⟨w, _, rfl, fun hne => absurd hnil hne⟩
    · refine ⟨w, _, rfl, fun _ => ⟨w₁ ++ ':' :: (w₂ ++ (text ++ (w' ++ [',']))), rest, ?_, hrest⟩⟩
      simp
  | cons x xs ih =>
    rw [List.cons_append, SpellsMembers] at h
    obtain ⟨w, w₁, w₂, text, w', -, -, -, -, -, ⟨hnil, -⟩ | ⟨-, rest, rfl, hrest⟩⟩ := h
    · simp at hnil
    · obtain ⟨a, b, rfl, hfollows⟩ := ih hrest
      refine ⟨w ++ (quote x.1 ++ (w₁ ++ ':' :: (w₂ ++ (text ++ (w' ++ ',' :: a))))), b, ?_, hfollows⟩
      simp

/-- The braces of an object that names a hash and then a payload are found in a text without other
braces around it. -/
lemma matchTransaction_around {zs : List (String × Value)} {hash payload : Value}
    (ht : Spells (.obj (xs ++ ("hash", hash) :: (ys ++ ("payload", payload) :: zs))) t)
    (hpre : '{' ∉ pre) (hpost : '}' ∉ post) :
    matchTransaction (String.ofList (pre ++ (t ++ post))) = some (String.ofList t) := by
  rw [Spells] at ht
  obtain ⟨-, body, rfl, hbody⟩ := ht
  have hopen : (pre ++ ('{' :: (body ++ ['}']) ++ post)).dropWhile (fun c => c ≠ '{') =
      '{' :: (body ++ ['}']) ++ post := by
    rw [List.dropWhile_append_of_pos fun c hc => by
      simpa using fun h : c = '{' => hpre (h ▸ hc), List.cons_append, List.dropWhile_cons_of_neg]
    simp
  have hclose : (('{' :: (body ++ ['}']) ++ post).reverse.dropWhile fun c => c ≠ '}').reverse =
      '{' :: (body ++ ['}']) := by
    rw [List.reverse_append, List.dropWhile_append_of_pos fun c hc => by
      simpa using fun h : c = '}' => hpost (h ▸ List.mem_reverse.1 hc)]
    simp
  have hinside : ('{' :: (body ++ ['}'])).tail.dropLast = body := by simp
  -- the two names are in between
  obtain ⟨a, b, rfl, hfollows⟩ := exists_name hbody
  obtain ⟨c, rest, rfl, hrest⟩ := hfollows (by simp)
  obtain ⟨a', b', rfl, -⟩ := exists_name hrest
  obtain ⟨d, hhash⟩ := exists_afterFirst (quote "hash") a (c ++ (a' ++ (quote "payload" ++ b')))
  obtain ⟨e, hpayload⟩ := exists_afterFirst (quote "payload") (d ++ (c ++ a')) b'
  have hnames : (((afterFirst "\"hash\"".toList (a ++ (quote "hash" ++ (c ++
      (a' ++ (quote "payload" ++ b')))))).bind
        (afterFirst "\"payload\"".toList)).isSome) = true := by
    have hquote : quote "hash" = "\"hash\"".toList := rfl
    have hquote' : quote "payload" = "\"payload\"".toList := rfl
    rw [← hquote, ← hquote', hhash, Option.bind_some]
    simp only [List.append_assoc] at hpayload ⊢
    rw [hpayload]
    rfl
  simp only [matchTransaction, String.toList_ofList, hopen, hclose, hinside, hnames, if_true]

end

/-! ### Offers -/

/-- A text in which a transaction is told: its JSON, or prose with its JSON in between. -/
inductive TextOffers (tx : Value) : String → Prop
  | json {w t w' : List Char} (ht : Spells tx t) (hw : White w) (hw' : White w') :
      TextOffers tx (String.ofList (w ++ (t ++ w')))
  | prose {pre t post : List Char} {xs ys zs : List (String × Value)} {hash payload : Value}
      (hfields : tx = .obj (xs ++ ("hash", hash) :: (ys ++ ("payload", payload) :: zs)))
      (ht : Spells tx t) (hpre : '{' ∉ pre) (hpost : '}' ∉ post)
      (hjson : parse (String.ofList (pre ++ (t ++ post))) = none)
      (hvalidation : includes (String.ofList (pre ++ (t ++ post))) "Validation error" = false)
      (herror : includes (String.ofList (pre ++ (t ++ post))) "error:" = false) :
      TextOffers tx (String.ofList (pre ++ (t ++ post)))

/-- An item of a list of contents that holds a text. -/
def holdsText (c : Value) : Bool :=
  (c.ownField "type").is "text" && match c.ownField "text" with
    | .str _ => true
    | _ => false

/-- The answers of a tool that offer a transaction; of the texts in a list of contents, the first
one counts. -/
inductive Offers (tx : Value) : Value → Prop
  | structured {res : Value} (hres : res.field? "structuredContent" = tx)
      (htx : tx.truthy = true) : Offers tx res
  | told {res : Value} {before after : List Value} {fields : List (String × Value)} {text : String}
      (hres : (res.field? "structuredContent").truthy = false)
      (hcontents : res.field? "content" = .arr (before ++ .obj fields :: after))
      (hbefore : ∀ c ∈ before, (∃ fields, c = .obj fields) ∧ holdsText c = false)
      (htype : (Value.obj fields).ownField "type" = .str "text")
      (htext : (Value.obj fields).ownField "text" = .str text) (htx : TextOffers tx text) :
      Offers tx res

/-- A text that tells a transaction is read as the transaction. -/
lemma readText_of_textOffers {tx : Value} {text : String} (h : TextOffers tx text) :
    readText text = tx := by
  cases h with
  | json ht hw hw' => rw [readText, parse_spells ht hw hw']
  | @prose pre t post xs ys zs hash payload hfields ht hpre hpost hjson hvalidation herror =>
    have hparse : parse (String.ofList t) = some tx := by
      simpa using parse_spells ht white_nil white_nil
    subst hfields
    rw [readText, hjson]
    simp only [hvalidation, herror, Bool.or_self, Bool.false_eq_true, if_false,
      matchTransaction_around ht hpre hpost, Option.bind_some, hparse, Option.getD_some]

lemma readContents_of_first {before after : List Value} {fields : List (String × Value)}
    {text : String} (hbefore : ∀ c ∈ before, (∃ fields, c = .obj fields) ∧ holdsText c = false)
    (htype : (Value.obj fields).ownField "type" = .str "text")
    (htext : (Value.obj fields).ownField "text" = .str text) :
    readContents (before ++ .obj fields :: after) = .ok (some (readText text)) := by
  induction before with
  | nil =>
    have hfield : (Value.obj fields).field "type" = .ok (.str "text") := congrArg Except.ok htype
    rw [List.nil_append, readContents, hfield, ok_bind, htext]
    rfl
  | cons c before ih =>
    obtain ⟨⟨fs, rfl⟩, hnot⟩ := hbefore _ List.mem_cons_self
    have hfield : (Value.obj fs).field "type" = .ok ((Value.obj fs).ownField "type") := rfl
    rw [List.cons_append, readContents, hfield, ok_bind]
    split
    · -- no text comes before
      simp_all [holdsText]
    · exact ih fun c hc => hbefore c (List.mem_cons_of_mem _ hc)

lemma Offers.read {tx res : Value} (h : Offers tx res) : parseResult res = .ok tx := by
  cases h with
  | structured hres htx =>
    rw [parseResult]
    simp only [hres, htx, if_true]
  | told hres hcontents hbefore htype htext htx =>
    rw [parseResult]
    simp only [hres, Bool.false_eq_true, if_false, hcontents,
      readContents_of_first hbefore htype htext, readText_of_textOffers htx]
    rfl

/-- A transaction, and its JSON. -/
def offeredSwap : Value :=
  .obj [("hash", .str "c0ffee"), ("payload", .obj [("ttl", .num (.finite 1800000))])]

def offeredText : List Char :=
  "\x7b\"hash\":\"c0ffee\",\"payload\":\x7b\"ttl\":1800000\x7d\x7d".toList

/-- The answer of a tool that puts a heading before a transaction. -/
def headedAnswer : Value :=
  .obj [("content", .arr [.obj [("type", .str "text"),
    ("text", .str (String.ofList ("Swap transaction JSON:\n".toList ++ (offeredText ++ []))))]])]

lemma headedAnswer_offers : Offers offeredSwap headedAnswer := by
  have hreadable : Readable offeredSwap :=
    ⟨by decide, trivial, ⟨by decide, ⟨1800000, by decide, rfl⟩, trivial⟩, trivial⟩
  obtain ⟨t, htext, ht⟩ := spells_stringify offeredSwap hreadable
  have hwritten : stringify offeredSwap = some offeredText := by decide +kernel
  obtain rfl : offeredText = t := Option.some.inj (hwritten.symm.trans htext)
  have htells : TextOffers offeredSwap
      (String.ofList ("Swap transaction JSON:\n".toList ++ (offeredText ++ []))) :=
    @TextOffers.prose _ _ _ _ [] [] [] _ _ rfl ht (by decide) (by decide) rfl (by decide)
      (by decide)
  exact @Offers.told _ _ [] [] _ _ rfl rfl (by simp) rfl rfl htells

end ArwaAgent
