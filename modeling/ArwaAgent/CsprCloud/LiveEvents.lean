import ArwaAgent.CsprCloud.Streaming

/-!
# The live events against the filters

The subscription and `filterByContractAndEvent` find the same contract hash and the same
event name in an envelope and read them differently.  The subscription wants the hash to be
a string, throwing otherwise, and the name to be the very same string; the filter takes the
text of both, in lower case.
-/

namespace ArwaAgent.CsprCloud

open Js

section

variable (toLowerCase : String → String)

/-- The subscription does not throw, and passes on the events that the filter accepts. -/
def Agrees (contractHash eventName : String) (env : StreamEnvelope) : Prop :=
  ∃ forwarded, onNamedEvent toLowerCase eventName contractHash env = .ok forwarded ∧
    (forwarded.isSome = true ↔
      filterByContractAndEvent toLowerCase contractHash eventName env = .ok true)

/-- A string, or nothing. -/
def IsText : Value → Prop
  | .undefined | .null | .str _ => True
  | _ => False

/-- The name is the one looked for, or differs from it in more than capitals. -/
def NameReadAlike (eventName : String) : Value → Prop
  -- a missing name reads as `Unknown` in one place and as empty in the other
  | .undefined | .null => eventName = "Unknown" ↔ toLowerCase "" = toLowerCase eventName
  | .str s => toLowerCase s = toLowerCase eventName → s = eventName
  | v => ∀ s, v.toStr = .ok s → toLowerCase s ≠ toLowerCase eventName

/-- The hash is a string or missing, and if it is the one of the contract, the name is read
alike. -/
structure ReadAlike (contractHash eventName : String) (env : StreamEnvelope) : Prop where
  hash : IsText env.hash
  name : matchHash toLowerCase contractHash env.hash = .ok true →
    NameReadAlike toLowerCase eventName env.eventName

end

section

variable {toLowerCase : String → String} {contractHash eventName s : String}
  {env : StreamEnvelope} {v : Value} {b : Bool}

/-! ### Reading the hash -/

lemma isText_iff_matchHash : IsText v ↔ ∃ b, matchHash toLowerCase contractHash v = .ok b := by
  cases v <;> simp [IsText, matchHash, Value.orElse]

/-- Where the subscription can read the hash, the filter reads it in the same way. -/
lemma filterByContract_of_matchHash (h : matchHash toLowerCase contractHash env.hash = .ok b) :
    filterByContract toLowerCase contractHash env = .ok b := by
  rw [matchHash] at h
  rw [filterByContract]
  split at h
  next s hs =>
    cases h
    rw [hs]
    rfl
  next => cases h

/-! ### Reading the name -/

lemma textOf_eq_ok_iff {name : String} : textOf v name = .ok s ↔ v.toStr = .ok s := by
  cases v with
  | obj fields =>
    rw [textOf, Value.toStr]
    split <;> simp
  | _ => rfl

lemma nameReadAlike_iff {name : String} :
    NameReadAlike toLowerCase eventName v ↔
      ((v.orElse (.str "Unknown")).is eventName = true ↔
        ∃ s, textOf (v.orElse (.str "")) name = .ok s ∧ toLowerCase s = toLowerCase eventName) := by
  simp only [textOf_eq_ok_iff]
  cases v with
  | undefined => simp [NameReadAlike, Value.orElse, Value.is, Value.toStr, eq_comm]
  | null => simp [NameReadAlike, Value.orElse, Value.is, Value.toStr, eq_comm]
  | str s =>
    simp only [NameReadAlike, Value.orElse, Value.is, Value.toStr, decide_eq_true_eq,
      Except.ok.injEq, exists_eq_left']
    constructor
    · exact fun h => ⟨fun hs => by rw [hs], h⟩
    · exact fun h => h.2
  | _ => simp [NameReadAlike, Value.orElse, Value.is]

/-! ### The two paths -/

/-- An emitted event is passed on if its hash is the one of the contract. -/
lemma onEnvelope_of_emitted (haction : env.action = .str "emitted") :
    onEnvelope toLowerCase contractHash env =
      (matchHash toLowerCase contractHash env.hash).map fun b =>
        if b = true then
          some ⟨env.eventName.orElse (.str "Unknown"),
            ((env.dataOrEmpty.ownField "data").orElse
              (env.dataOrEmpty.ownField "payload")).orElse (.obj []), env⟩
        else none := by
  have hemitted : env.action.is "emitted" = true := by
    rw [haction]
    rfl
  rw [onEnvelope, hemitted]
  cases matchHash toLowerCase contractHash env.hash with
  | error e => rfl
  | ok b => cases b <;> rfl

lemma onNamedEvent_of_matchHash (haction : env.action = .str "emitted")
    (h : matchHash toLowerCase contractHash env.hash = .ok b) (eventName : String) :
    ∃ forwarded, onNamedEvent toLowerCase eventName contractHash env = .ok forwarded ∧
      (forwarded.isSome = true ↔
        b = true ∧ (env.eventName.orElse (.str "Unknown")).is eventName = true) := by
  rw [onNamedEvent, onEnvelope_of_emitted haction, h]
  cases b with
  | false => exact ⟨none, rfl, by simp⟩
  | true =>
    simp only [Except.map, if_true, ok_bind]
    split
    next hname => exact ⟨none, rfl, by simpa using hname⟩
    next hname => exact ⟨_, rfl, by simpa using hname⟩

lemma filterByContractAndEvent_of_matchHash
    (h : matchHash toLowerCase contractHash env.hash = .ok b) :
    filterByContractAndEvent toLowerCase contractHash eventName env = .ok true ↔
      b = true ∧ ∃ s, textOf (env.eventName.orElse (.str ""))
        "(d.event_name ?? d.name ?? \"\")" = .ok s ∧ toLowerCase s = toLowerCase eventName := by
  rw [filterByContractAndEvent, filterByContract_of_matchHash h, ok_bind]
  cases b with
  | false => exact iff_of_false (by rintro ⟨⟩) (by simp)
  | true =>
    show (textOf _ _ >>= fun en => pure (decide (toLowerCase en = toLowerCase eventName))) = _ ↔ _
    rw [bind_eq_ok]
    simp [pure, Except.pure]

/-- A hash that is no string makes the subscription throw. -/
lemma onNamedEvent_of_not_isText (haction : env.action = .str "emitted") (h : ¬ IsText env.hash) :
    ∃ e, onNamedEvent toLowerCase eventName contractHash env = .error e := by
  rw [onNamedEvent, onEnvelope_of_emitted haction]
  cases hmatch : matchHash toLowerCase contractHash env.hash with
  | ok b => exact absurd (isText_iff_matchHash.2 ⟨b, hmatch⟩) h
  | error e => exact ⟨e, rfl⟩

/-- The subscription reads raw text as the parser does that is tested. -/
lemma receiveWS_eq {α : Type} (onMessage : StreamEnvelope → Except Error (Option α))
    (raw : String) : receiveWS onMessage raw =
      match parseStreamEnvelope (.str raw) with
      | none => .ok none
      | some env => onMessage env := rfl

/-- Both transports pass on the same events; an exception of the handler ends up in different
places. -/
lemma receiveSSE_eq_some_iff {α : Type} {onMessage : StreamEnvelope → Except Error (Option α)}
    {raw : String} {a : α} :
    receiveSSE onMessage raw = .ok (some a) ↔ receiveWS onMessage raw = .ok (some a) := by
  rw [receiveSSE]
  cases receiveWS onMessage raw with
  | ok r => exact Iff.rfl
  | error e => exact iff_of_false (by rintro ⟨⟩) (by rintro ⟨⟩)

/-- The subscriptions of the agent, where their contracts are configured. -/
lemma onConfigured_eq (hne : contractHash ≠ "") :
    onStrategyExecuted toLowerCase (some contractHash) =
        some (onNamedEvent toLowerCase "StrategyExecuted" contractHash) ∧
      onRevenueEmitted toLowerCase (some contractHash) =
        some (onNamedEvent toLowerCase "RevenueEmitted" contractHash) := by
  simp [onStrategyExecuted, onRevenueEmitted, onConfigured, Option.filter, hne]

/-- For an emitted event, the subscription and the filter agree exactly when they read the hash
and the name alike. -/
theorem live_events_agree_iff (haction : env.action = .str "emitted")
    (toLowerCase : String → String) (contractHash eventName : String) :
    Agrees toLowerCase contractHash eventName env ↔
      ReadAlike toLowerCase contractHash eventName env := by
  by_cases htext : IsText env.hash
  · obtain ⟨b, hb⟩ : ∃ b, matchHash toLowerCase contractHash env.hash = .ok b :=
      isText_iff_matchHash.1 htext
    obtain ⟨forwarded, hforwarded, hiff⟩ := onNamedEvent_of_matchHash haction hb eventName
    have hagrees : Agrees toLowerCase contractHash eventName env ↔
        (forwarded.isSome = true ↔
          filterByContractAndEvent toLowerCase contractHash eventName env = .ok true) := by
      rw [Agrees, hforwarded]
      simp
    rw [hagrees, hiff, filterByContractAndEvent_of_matchHash hb]
    cases b with
    | false =>
      refine iff_of_true (by simp) ⟨htext, fun htrue => ?_⟩
      rw [hb] at htrue
      cases htrue
    | true =>
      simp only [true_and]
      rw [← nameReadAlike_iff]
      exact ⟨fun h => ⟨htext, fun _ => h⟩, fun h => h.name hb⟩
  · obtain ⟨e, he⟩ : ∃ e, onNamedEvent toLowerCase eventName contractHash env = .error e :=
      onNamedEvent_of_not_isText haction htext
    refine iff_of_false ?_ fun h => htext h.hash
    rintro ⟨forwarded, hforwarded, -⟩
    rw [he] at hforwarded
    cases hforwarded

end

/-! ### Events of a vault -/

/-- `toLowerCase` on ASCII text. -/
def asciiLower (s : String) : String :=
  String.ofList (s.toList.map Char.toLower)

/-- An envelope with a contract hash and an event name. -/
def vaultEvent (hash name : Value) : StreamEnvelope where
  action := .str "emitted"
  data := .obj [("contract_hash", hash), ("event_name", name),
    ("data", .obj [("action", .str "swap"), ("pair", .str "CSPR/sCSPR")])]
  timestamp := .str "2026-06-07T10:00:00Z"
  extra := .obj [("deploy_hash", .str "0xdeploy")]

theorem live_events_agree_iff_upper_case :
    Agrees asciiLower "hash-abc" "StrategyExecuted"
        (vaultEvent (.str "HASH-ABC") (.str "StrategyExecuted")) ↔
      ReadAlike asciiLower "hash-abc" "StrategyExecuted"
        (vaultEvent (.str "HASH-ABC") (.str "StrategyExecuted")) :=
  live_events_agree_iff rfl asciiLower "hash-abc" "StrategyExecuted"

/-- The filter accepts a name in other capitals, which the subscription drops. -/
theorem other_capitals_are_dropped :
    ¬ ∀ (contractHash eventName : String) (env : StreamEnvelope),
      env.action = .str "emitted" → Agrees asciiLower contractHash eventName env := by
  intro h
  obtain ⟨forwarded, hforwarded, hiff⟩ := h "hash-abc" "StrategyExecuted"
    (vaultEvent (.str "hash-abc") (.str "strategyexecuted")) rfl
  have hdropped : onNamedEvent asciiLower "StrategyExecuted" "hash-abc"
      (vaultEvent (.str "hash-abc") (.str "strategyexecuted")) = .ok none := rfl
  have haccepted : filterByContractAndEvent asciiLower "hash-abc" "StrategyExecuted"
      (vaultEvent (.str "hash-abc") (.str "strategyexecuted")) = .ok true := by decide
  rw [hdropped] at hforwarded
  cases hforwarded
  cases hiff.2 haccepted

end ArwaAgent.CsprCloud
