import Mathlib.Data.List.Infix

/-!
# Event streams

The text format of server-sent events, as an event source reads it: lines end in any of the three
ways, a line names a field, and an empty line dispatches what the fields since the last one have
said.  A comment, and a field that is not known, say nothing.

What is written as messages and comments is decoded as the messages (`decode_written`), and whatever
part of a stream has arrived is decoded as some first ones of its messages (`decode_mono`).
-/

namespace EventStream

/-- A message: the type of its event, and its data. -/
structure Message where
  event : List Char
  data : List Char
  deriving DecidableEq

/-! ### Reading -/

/-- The lines of a text that have come to an end; after a carriage return, a line feed belongs to
the end of the line. -/
def linesFrom : Bool → List Char → List Char → List (List Char)
  | _, _, [] => []
  | returned, line, c :: cs =>
    if c = '\n' then if returned then linesFrom false line cs else line :: linesFrom false [] cs
    else if c = '\r' then line :: linesFrom true [] cs
    else linesFrom false (line ++ [c]) cs

/-- What the fields since the last empty line have said. -/
structure Buffer where
  event : List Char
  data : List Char

/-- The name and the value of a field; one blank before the value is left out. -/
def field (line : List Char) : List Char × List Char :=
  match line.dropWhile (· ≠ ':') with
  | ':' :: ' ' :: value => (line.takeWhile (· ≠ ':'), value)
  | ':' :: value => (line.takeWhile (· ≠ ':'), value)
  | _ => (line, [])

/-- The buffer after a line that is not empty; a comment is a line whose field has no name. -/
def Buffer.take (b : Buffer) (line : List Char) : Buffer :=
  let f := field line
  if f.1 = "event".toList then { b with event := f.2 }
  else if f.1 = "data".toList then { b with data := b.data ++ f.2 ++ ['\n'] }
  else b

/-- What an empty line dispatches; the line feed after the last data is left out. -/
def Buffer.dispatch (b : Buffer) : Option Message :=
  if b.data = [] then none
  else some ⟨if b.event = [] then "message".toList else b.event, b.data.dropLast⟩

/-- The messages in some lines. -/
def messagesFrom : Buffer → List (List Char) → List Message
  | _, [] => []
  | b, line :: lines =>
    if line = [] then b.dispatch.toList ++ messagesFrom ⟨[], []⟩ lines
    else messagesFrom (b.take line) lines

/-- The messages in a text. -/
def decode (text : List Char) : List Message :=
  messagesFrom ⟨[], []⟩ (linesFrom false [] text)

/-! ### Writing -/

/-- What is written at once. -/
inductive Chunk
  | message (m : Message)
  | comment (text : List Char)

/-- The lines of a chunk. -/
def Chunk.lines : Chunk → List (List Char)
  | message m => ["event: ".toList ++ m.event, "data: ".toList ++ m.data, []]
  | comment text => [':' :: text, []]

/-- The text of a chunk. -/
def Chunk.text (c : Chunk) : List Char :=
  c.lines.flatMap fun line => line ++ ['\n']

/-- The message of a chunk. -/
def Chunk.message? : Chunk → Option Message
  | message m => some m
  | comment _ => none

/-- A text without an end of a line. -/
def OneLine (text : List Char) : Prop :=
  ∀ c ∈ text, c ≠ '\n' ∧ c ≠ '\r'

instance (text : List Char) : Decidable (OneLine text) := List.decidableBAll _ text

/-- A chunk that is written in lines of its own. -/
def Chunk.Sound : Chunk → Prop
  | message m => m.event ≠ [] ∧ OneLine m.event ∧ OneLine m.data
  | comment text => OneLine text

section

variable {line s t : List Char} {lines ls : List (List Char)} {b : Buffer} {c : Chunk}
  {cs : List Chunk}

/-! ### Lines -/

lemma linesFrom_append (h : OneLine line) (returned : Bool) (acc : List Char) :
    linesFrom returned acc (line ++ '\n' :: s) =
      if line = [] ∧ returned = true then linesFrom false acc s
      else (acc ++ line) :: linesFrom false [] s := by
  induction line generalizing returned acc with
  | nil =>
    rw [List.nil_append, linesFrom, if_pos rfl, List.append_nil]
    cases returned <;> rfl
  | cons d line ih =>
    obtain ⟨hfeed, hreturn⟩ := h d List.mem_cons_self
    rw [List.cons_append, linesFrom, if_neg hfeed, if_neg hreturn,
      ih (fun e he => h e (List.mem_cons_of_mem _ he)), if_neg (by simp), if_neg (by simp),
      List.append_assoc, List.singleton_append]

lemma linesFrom_flatMap (h : ∀ line ∈ lines, OneLine line) (s : List Char) :
    linesFrom false [] (lines.flatMap (fun line => line ++ ['\n']) ++ s) =
      lines ++ linesFrom false [] s := by
  induction lines with
  | nil => rfl
  | cons line lines ih =>
    rw [List.flatMap_cons, List.append_assoc, List.append_assoc, List.singleton_append,
      linesFrom_append (h line List.mem_cons_self), if_neg (by simp), List.nil_append,
      ih fun l hl => h l (List.mem_cons_of_mem _ hl), List.cons_append]

lemma linesFrom_mono (h : s <+: t) (returned : Bool) (acc : List Char) :
    linesFrom returned acc s <+: linesFrom returned acc t := by
  induction s generalizing t returned acc with
  | nil => exact List.nil_prefix
  | cons d s ih =>
    obtain ⟨u, rfl⟩ := h
    have hs : s <+: s ++ u := List.prefix_append s u
    rw [List.cons_append, linesFrom, linesFrom]
    split_ifs
    · exact ih hs _ _
    · exact List.cons_prefix_cons.2 ⟨rfl, ih hs _ _⟩
    · exact List.cons_prefix_cons.2 ⟨rfl, ih hs _ _⟩
    · exact ih hs _ _

lemma messagesFrom_mono (h : ls <+: lines) (b : Buffer) :
    messagesFrom b ls <+: messagesFrom b lines := by
  induction ls generalizing lines b with
  | nil => exact List.nil_prefix
  | cons line ls ih =>
    obtain ⟨rest, rfl⟩ := h
    have hls : ls <+: ls ++ rest := List.prefix_append ls rest
    rw [List.cons_append, messagesFrom, messagesFrom]
    split_ifs
    · exact (List.prefix_append_right_inj _).2 (ih hls _)
    · exact ih hls _

/-- A part of a stream is decoded as some first ones of its messages. -/
theorem decode_mono (h : s <+: t) : decode s <+: decode t :=
  messagesFrom_mono (linesFrom_mono h false []) _

/-! ### Messages -/

lemma fst_field_comment (text : List Char) : (field (':' :: text)).1 = [] := by
  rw [field]
  split
  · rfl
  · rfl
  · next h => exact (h text rfl).elim

lemma messagesFrom_chunk (hc : c.Sound) : messagesFrom ⟨[], []⟩ (c.lines ++ lines) =
    c.message?.toList ++ messagesFrom ⟨[], []⟩ lines := by
  cases c with
  | comment text =>
    have htake : Buffer.take ⟨[], []⟩ (':' :: text) = ⟨[], []⟩ := by
      rw [Buffer.take]
      simp only [fst_field_comment]
      rfl
    show messagesFrom (Buffer.take ⟨[], []⟩ (':' :: text)) ([] :: lines) = _
    rw [htake]
    rfl
  | message m =>
    obtain ⟨event, data⟩ := m
    have hdispatch : Buffer.dispatch ⟨event, [] ++ data ++ ['\n']⟩ = some ⟨event, data⟩ := by
      rw [Buffer.dispatch, if_neg (by simp), if_neg hc.1]
      simp
    show (Buffer.dispatch ⟨event, [] ++ data ++ ['\n']⟩).toList ++ messagesFrom ⟨[], []⟩ lines = _
    rw [hdispatch]
    rfl

lemma oneLine_lines (hc : c.Sound) : ∀ line ∈ c.lines, OneLine line := by
  have happend : ∀ {s t : List Char}, OneLine s → OneLine t → OneLine (s ++ t) :=
    fun hs ht d hd => (List.mem_append.1 hd).elim (hs d) (ht d)
  cases c with
  | comment text =>
    refine List.forall_mem_cons.2 ⟨?_, List.forall_mem_singleton.2 nofun⟩
    exact happend (s := [':']) (by decide) hc
  | message m =>
    refine List.forall_mem_cons.2 ⟨happend (by decide) hc.2.1, List.forall_mem_cons.2
      ⟨happend (by decide) hc.2.2, List.forall_mem_singleton.2 nofun⟩⟩

theorem decode_written (hcs : ∀ c ∈ cs, c.Sound) :
    decode (cs.flatMap Chunk.text) = cs.filterMap Chunk.message? := by
  induction cs with
  | nil => rfl
  | cons c cs ih =>
    have hc := hcs c List.mem_cons_self
    have hrest := ih fun d hd => hcs d (List.mem_cons_of_mem _ hd)
    rw [decode] at hrest ⊢
    rw [List.flatMap_cons, Chunk.text, linesFrom_flatMap (oneLine_lines hc), messagesFrom_chunk hc,
      hrest, List.filterMap_cons]
    cases c.message? <;> rfl

end

end EventStream
