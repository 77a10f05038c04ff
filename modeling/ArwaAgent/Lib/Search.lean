import Mathlib.Data.List.Infix

/-!
# Searching a text

A pattern that is searched for everywhere in a text, in the style of a regular expression
without anchors: the test `p` says whether a match starts at the front of a list, and
`as.tails.any p` whether one starts anywhere.  A text is silent when no match starts in it,
whatever follows it; silent texts can be put together, and one in front of another text hides
nothing and adds nothing.
-/

namespace Search

variable {α : Type*} {p : List α → Bool}

/-- No match starts in the text, whatever follows it. -/
inductive Silent (p : List α → Bool) : List α → Prop
  | nil : Silent p []
  | cons {a : α} {as : List α} (front : ∀ rest, p (a :: as ++ rest) = false)
      (rest : Silent p as) : Silent p (a :: as)

lemma Silent.append {as bs : List α} (has : Silent p as) (hbs : Silent p bs) :
    Silent p (as ++ bs) := by
  induction has with
  | nil => exact hbs
  | cons hfront _ ih =>
    refine .cons (fun rest => ?_) ih
    have hlater := hfront (bs ++ rest)
    rwa [← List.append_assoc] at hlater

/-- A silent text in front does not change what is found. -/
lemma any_tails_append {as : List α} (has : Silent p as) (bs : List α) :
    (as ++ bs).tails.any p = bs.tails.any p := by
  induction has with
  | nil => rfl
  | cons hfront _ ih =>
    rw [List.cons_append, List.tails_cons, List.any_cons, ← List.cons_append, hfront bs, ih,
      Bool.false_or]

/-- Nothing is found in a silent text. -/
lemma any_tails_of_silent {as : List α} (has : Silent p as) (hnil : p [] = false) :
    as.tails.any p = false := by
  rw [← List.append_nil as, any_tails_append has]
  simp [hnil]

/-- An element at the end that no match can use does not change what is found. -/
lemma any_tails_concat {a : α} (h : ∀ as, p (as ++ [a]) = p as) (as : List α) :
    (as ++ [a]).tails.any p = as.tails.any p := by
  induction as with
  | nil => simp [show p [a] = p [] from h []]
  | cons b as ih =>
    rw [List.cons_append, List.tails_cons, List.any_cons, ih, ← List.cons_append, h,
      List.tails_cons, List.any_cons]

end Search
