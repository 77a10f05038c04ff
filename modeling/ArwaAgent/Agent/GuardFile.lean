import ArwaAgent.Agent.GuardHistory
import ArwaAgent.Js.Indented

/-!
# The file of the risk guard

`saveState` truncates the file and then writes the new text into it.  A process that dies in
between leaves a part of the text, and `loadState` takes any text that it cannot read for a
missing file.  So the breaker is open after a restart exactly if the file had not been truncated
yet, or had been written to its end (`crash_reports_iff`).
-/

namespace ArwaAgent

open Js RiskGuard

namespace RiskGuard

/-- The members of the file. -/
def fileFields (s : RiskState) : List (String × Value) :=
  [("peakMotes", .str (toString s.peakMotes)),
    ("lastValueMotes", .str (toString s.lastValueMotes)),
    ("revertStreak", .num (.finite s.revertStreak)),
    ("trippedUntil", .num (.finite s.trippedUntil)),
    ("totalStrategies", .num (.finite s.totalStrategies)),
    ("totalSuccesses", .num (.finite s.totalSuccesses)),
    ("totalReverts", .num (.finite s.totalReverts))]

/-- The text that `saveState` writes. -/
def fileText (s : RiskState) : List Char :=
  Json.stringifyFlat (fileFields s)

/-- An amount of motes in the file. -/
def readMotes : Value → Option ℤ
  | .str s => stringToBigInt s
  | _ => none

/-- A count or a time in the file. -/
def readCount : Value → Option ℕ
  | .num (.finite q) => if q.den = 1 ∧ 0 ≤ q then some q.num.toNat else none
  | _ => none

/-- `{ ...DEFAULT_STATE, ...v }`, if every field has a value of the kind that `saveState` writes. -/
def spreadState (v : Value) : Option RiskState :=
  let fields := match v with
    | .obj fields => fields
    | _ => []
  let field (name : String) : Value :=
    ((fields ++ fileFields defaultState).lookup name).getD .undefined
  do return {
    peakMotes := ← readMotes (field "peakMotes")
    lastValueMotes := ← readMotes (field "lastValueMotes")
    revertStreak := ← readCount (field "revertStreak")
    trippedUntil := ← readCount (field "trippedUntil")
    totalStrategies := ← readCount (field "totalStrategies")
    totalSuccesses := ← readCount (field "totalSuccesses")
    totalReverts := ← readCount (field "totalReverts") }

/-- `loadState`: a text that cannot be read stands for the default, as no file does. -/
def loadState : Option (List Char) → Option RiskState
  | none => some defaultState
  | some raw =>
    match Json.parse (String.ofList raw) with
    | none => some defaultState
    | some v => spreadState v

/-- `checkCircuitBreaker` reads the file and reports that the breaker is tripped. -/
def ReportsTripped (env : RiskEnv) (t : ℕ) (file : Option (List Char)) : Prop :=
  ∃ s, loadState file = some s ∧ (checkCircuitBreaker env t s).tripped = true

end RiskGuard

/-- The text that a call writes, if it comes so far. -/
def GuardCall.text? (env : RiskEnv) (now : ℕ) (file : Option (List Char)) (call : GuardCall) :
    Option (List Char) := do
  let s ← loadState file
  let s' ← call.written env now s
  return fileText s'

/-- Where the process dies while `writeFileSync` is at work. -/
inductive CrashPoint
  | beforeTruncation
  | afterBytes (n : ℕ)

namespace CrashPoint

/-- The file that a crash leaves.  Every character of the text is one byte
(`isAscii_fileText`). -/
def file (old : Option (List Char)) (text : List Char) : CrashPoint → Option (List Char)
  | beforeTruncation => old
  | afterBytes n => some (text.take n)

/-- The write has not begun, or is complete. -/
def Whole (text : List Char) : CrashPoint → Prop
  | beforeTruncation => True
  | afterBytes n => text.length ≤ n

instance (text : List Char) : (c : CrashPoint) → Decidable (c.Whole text)
  | beforeTruncation => inferInstanceAs (Decidable True)
  | afterBytes n => inferInstanceAs (Decidable (text.length ≤ n))

end CrashPoint

section

variable {env : RiskEnv} {now t : ℕ} {s : RiskState} {file : Option (List Char)} {text : List Char}
  {call : GuardCall}

/-! ### What is written is read back -/

/-- A file whose counts and times are below 10^15 is read back. -/
theorem loadState_fileText (hstreak : s.revertStreak < 10 ^ 15) (huntil : s.trippedUntil < 10 ^ 15)
    (hstrategies : s.totalStrategies < 10 ^ 15) (hsuccesses : s.totalSuccesses < 10 ^ 15)
    (hreverts : s.totalReverts < 10 ^ 15) : loadState (some (fileText s)) = some s := by
  have hback : ∀ f ∈ fileFields s, Json.ReadsBack f.2 := by
    simp only [fileFields, List.forall_mem_cons]
    exact ⟨Json.readsBack_str, Json.readsBack_str, Json.readsBack_natCast hstreak,
      Json.readsBack_natCast huntil, Json.readsBack_natCast hstrategies,
      Json.readsBack_natCast hsuccesses, Json.readsBack_natCast hreverts, List.forall_mem_nil _⟩
  have hcount : ∀ n : ℕ, readCount (.num (.finite n)) = some n := fun n => by
    simp [readCount]
  have hset : Json.setFields [] (fileFields s) = fileFields s := by
    simp [Json.setFields, Json.setField, fileFields]
  have hmotes : ∀ z : ℤ, readMotes (.str (toString z)) = some z := stringToBigInt_toString
  have hfields : spreadState (.obj (fileFields s)) = do
      return {
        peakMotes := ← readMotes (.str (toString s.peakMotes))
        lastValueMotes := ← readMotes (.str (toString s.lastValueMotes))
        revertStreak := ← readCount (.num (.finite s.revertStreak))
        trippedUntil := ← readCount (.num (.finite s.trippedUntil))
        totalStrategies := ← readCount (.num (.finite s.totalStrategies))
        totalSuccesses := ← readCount (.num (.finite s.totalSuccesses))
        totalReverts := ← readCount (.num (.finite s.totalReverts)) } := rfl
  rw [loadState, fileText, Json.parse_flat (by simp [fileFields]) hback, hset]
  simp only [hfields, hmotes, hcount]
  rfl

lemma text?_of_written {s' : RiskState} (hload : loadState file = some s)
    (hwritten : call.written env now s = some s') :
    call.text? env now file = some (fileText s') := by
  rw [GuardCall.text?, hload, Option.bind_eq_bind, Option.bind_some, hwritten]
  rfl

/-! ### A crash while the file is written -/

lemma isPlain_toString (z : ℤ) : Json.Plain (.str (toString z)) :=
  fun c hc => Json.isPlain_of_isNumeral (Json.IsNumeral.ofInt z c hc)

lemma plain_fileFields (s : RiskState) :
    ∀ f ∈ fileFields s, (∀ c ∈ f.1.toList, Json.isPlain c = true) ∧ Json.Plain f.2 := by
  simp only [fileFields, List.forall_mem_cons]
  have hname : ∀ name : String, name.toList.all Json.isPlain = true →
      ∀ c ∈ name.toList, Json.isPlain c = true := fun name => List.all_eq_true.1
  refine ⟨⟨hname _ (by decide), isPlain_toString _⟩, ⟨hname _ (by decide), isPlain_toString _⟩,
    ⟨hname _ (by decide), trivial⟩, ⟨hname _ (by decide), trivial⟩, ⟨hname _ (by decide), trivial⟩,
    ⟨hname _ (by decide), trivial⟩, ⟨hname _ (by decide), trivial⟩, List.forall_mem_nil _⟩

lemma isAscii_fileText (s : RiskState) : ∀ c ∈ fileText s, c.toNat < 128 :=
  (Json.parse_flat_torn (plain_fileFields s)).1

/-- A part of the text stands for the default. -/
lemma loadState_torn {n : ℕ} (hn : n < (fileText s).length) :
    loadState (some ((fileText s).take n)) = some defaultState := by
  rw [loadState, fileText, (Json.parse_flat_torn (plain_fileFields s)).2 n hn]

lemma not_tripped_defaultState : (checkCircuitBreaker env t defaultState).tripped = false := by
  have hstreak : ¬ getMaxRevertStreak env ≤ 0 := Nat.not_le.2 (getMaxRevertStreak_pos env)
  have hdrawdown : (getMaxDrawdownPct env).lt (computeDrawdownPct defaultState) = false :=
    getMaxDrawdownPct_pos env
  rw [← Bool.not_eq_true, tripped_iff, hdrawdown]
  simp [defaultState, hstreak]

/-- When the breaker is tripped before a call and the call leaves it tripped, it is tripped after a
crash during the write exactly if the write had not begun or was complete. -/
theorem crash_reports_iff (hwrite : call.text? env now file = some text)
    (hbefore : ReportsTripped env t file) (hafter : ReportsTripped env t (some text))
    (c : CrashPoint) : ReportsTripped env t (c.file file text) ↔ c.Whole text := by
  obtain ⟨s, -, hwrite⟩ := Option.bind_eq_some_iff.1 hwrite
  obtain ⟨s', -, hwrite⟩ := Option.bind_eq_some_iff.1 hwrite
  obtain rfl : fileText s' = text := Option.some.inj hwrite
  cases c with
  | beforeTruncation => exact iff_of_true hbefore trivial
  | afterBytes n =>
    rcases Nat.lt_or_ge n (fileText s').length with hlt | hge
    · refine iff_of_false ?_ (Nat.not_le.2 hlt)
      rintro ⟨u, hu, htripped⟩
      rw [CrashPoint.file, loadState_torn hlt] at hu
      cases hu
      rw [not_tripped_defaultState] at htripped
      cases htripped
    · rw [CrashPoint.file, List.take_of_length_le hge]
      exact iff_of_true hafter hge

end

/-- A guard after some failures in a row, in its cooldown. -/
def coolingDown (failures trippedUntil : ℕ) : RiskState where
  peakMotes := 1000
  lastValueMotes := 950
  revertStreak := failures
  trippedUntil := trippedUntil
  totalStrategies := failures
  totalSuccesses := 0
  totalReverts := failures

lemma reportsTripped_coolingDown {failures trippedUntil t : ℕ} (hfailures : failures < 10 ^ 15)
    (huntil : trippedUntil < 10 ^ 15) (ht : t < trippedUntil) :
    ReportsTripped ⟨none, none⟩ t (some (fileText (coolingDown failures trippedUntil))) :=
  ⟨_, loadState_fileText hfailures huntil hfailures (by decide : 0 < 10 ^ 15) hfailures,
    tripped_iff.2 (Or.inl ht)⟩

/-- The fourth failure, while the cooldown of the third one is running. -/
lemma text?_fourthFailure : (GuardCall.recordStrategyOutcome .reverted).text? ⟨none, none⟩ 200000
    (some (fileText (coolingDown 3 700000))) = some (fileText (coolingDown 4 800000)) := by
  have hload : loadState (some (fileText (coolingDown 3 700000))) = some (coolingDown 3 700000) :=
    loadState_fileText (by decide) (by decide) (by decide) (by decide) (by decide)
  have hwritten : (GuardCall.recordStrategyOutcome .reverted).written ⟨none, none⟩ 200000
      (coolingDown 3 700000) = some (coolingDown 4 800000) := by
    decide +kernel
  exact text?_of_written hload hwritten

/-- A crash after twenty bytes of that write closes the breaker. -/
theorem crash_reports_iff_fourthFailure : ¬ ReportsTripped ⟨none, none⟩ 300000
    ((CrashPoint.afterBytes 20).file (some (fileText (coolingDown 3 700000)))
      (fileText (coolingDown 4 800000))) := by
  intro htripped
  have hwhole := (crash_reports_iff text?_fourthFailure
    (reportsTripped_coolingDown (by decide) (by decide) (by decide))
    (reportsTripped_coolingDown (by decide) (by decide) (by decide)) (.afterBytes 20)).1 htripped
  exact absurd hwhole (by decide)

/-- So does a crash right after the truncation. -/
theorem crash_closes_breaker :
    ¬ ∀ (env : RiskEnv) (now t : ℕ) (file : Option (List Char)) (call : GuardCall)
      (text : List Char) (c : CrashPoint), call.text? env now file = some text →
        ReportsTripped env t file → ReportsTripped env t (some text) →
          ReportsTripped env t (c.file file text) := by
  intro h
  obtain ⟨s, hs, htripped⟩ := h ⟨none, none⟩ 200000 300000 _ _ _ (.afterBytes 0)
    text?_fourthFailure (reportsTripped_coolingDown (by decide) (by decide) (by decide))
    (reportsTripped_coolingDown (by decide) (by decide) (by decide))
  rw [CrashPoint.file, loadState_torn (by decide)] at hs
  cases hs
  rw [not_tripped_defaultState] at htripped
  cases htripped

end ArwaAgent
