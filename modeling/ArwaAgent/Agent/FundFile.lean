import ArwaAgent.Agent.FundStore
import ArwaAgent.Agent.GuardFile
import ArwaAgent.Lib.Replacement

/-!
# The file of the fund state

One process after the other keeps the counters in memory and in the file.  `save` writes the whole
text beside the file and renames it, and swallows what goes wrong in this; the process may die at
any byte.  What a restart or a reload finds are the counters after all updates up to the last one
that was saved, and never less than that, unlike with the file of the risk guard.

Only the process dies here, not the machine: what has been written and renamed is on the disk.
-/

namespace ArwaAgent

open Js Replacement

namespace FundState

/-- The members of the file. -/
def fileFields (s : FundState) : List (String × Value) :=
  [("positionsOpened", .num (.finite s.positionsOpened)),
    ("positionsRealised", .num (.finite s.positionsRealised)),
    ("yieldRealisedMotes", .str (toString s.yieldRealisedMotes)),
    ("custodianMotes", .str (toString s.custodianMotes)),
    ("stakeholderDeposits", .num (.finite s.stakeholderDeposits)),
    ("stakeholderActiveMotes", .str (toString s.stakeholderActiveMotes)),
    ("stakeholderTotalMotes", .str (toString s.stakeholderTotalMotes)),
    ("stakeholderWithdrawnMotes", .str (toString s.stakeholderWithdrawnMotes)),
    ("lastUpdated", .num (.finite s.lastUpdated))]

/-- The text that `save` writes. -/
def fileText (s : FundState) : List Char :=
  Json.stringifyFlat (fileFields s)

/-- `{ ...defaultState(), ...v }`, if every field has a value of the kind that `save` writes. -/
def spreadState (now : ℕ) (v : Value) : Option FundState :=
  let fields := match v with
    | .obj fields => fields
    | _ => []
  let field (name : String) : Value :=
    ((fields ++ fileFields (defaultState now)).lookup name).getD .undefined
  do return {
    positionsOpened := ← RiskGuard.readCount (field "positionsOpened")
    positionsRealised := ← RiskGuard.readCount (field "positionsRealised")
    yieldRealisedMotes := ← RiskGuard.readMotes (field "yieldRealisedMotes")
    custodianMotes := ← RiskGuard.readMotes (field "custodianMotes")
    stakeholderDeposits := ← RiskGuard.readCount (field "stakeholderDeposits")
    stakeholderActiveMotes := ← RiskGuard.readMotes (field "stakeholderActiveMotes")
    stakeholderTotalMotes := ← RiskGuard.readMotes (field "stakeholderTotalMotes")
    stakeholderWithdrawnMotes := ← RiskGuard.readMotes (field "stakeholderWithdrawnMotes")
    lastUpdated := ← RiskGuard.readCount (field "lastUpdated") }

/-- `load` on the text of the file: one that cannot be read stands for the default, as no file
does. -/
def loadFile (now : ℕ) : Option (List Char) → Option FundState
  | none => some (defaultState now)
  | some raw =>
    match Json.parse (String.ofList raw) with
    | none => some (defaultState now)
    | some v => spreadState now v

/-- The counts and the time are below 10^15, so that the file has all their digits. -/
structure InRange (s : FundState) : Prop where
  positionsOpened : s.positionsOpened < 10 ^ 15
  positionsRealised : s.positionsRealised < 10 ^ 15
  stakeholderDeposits : s.stakeholderDeposits < 10 ^ 15
  lastUpdated : s.lastUpdated < 10 ^ 15

theorem loadFile_fileText {s : FundState} (h : s.InRange) (now : ℕ) :
    loadFile now (some (fileText s)) = some s := by
  have hback : ∀ f ∈ fileFields s, Json.ReadsBack f.2 := by
    simp only [fileFields, List.forall_mem_cons]
    exact ⟨Json.readsBack_natCast h.positionsOpened, Json.readsBack_natCast h.positionsRealised,
      Json.readsBack_str, Json.readsBack_str, Json.readsBack_natCast h.stakeholderDeposits,
      Json.readsBack_str, Json.readsBack_str, Json.readsBack_str,
      Json.readsBack_natCast h.lastUpdated, List.forall_mem_nil _⟩
  have hcount : ∀ n : ℕ, RiskGuard.readCount (.num (.finite n)) = some n := fun n => by
    simp [RiskGuard.readCount]
  have hmotes : ∀ z : ℤ, RiskGuard.readMotes (.str (toString z)) = some z :=
    stringToBigInt_toString
  have hset : Json.setFields [] (fileFields s) = fileFields s := by
    simp [Json.setFields, Json.setField, fileFields]
  have hfields : spreadState now (.obj (fileFields s)) = do
      return {
        positionsOpened := ← RiskGuard.readCount (.num (.finite s.positionsOpened))
        positionsRealised := ← RiskGuard.readCount (.num (.finite s.positionsRealised))
        yieldRealisedMotes := ← RiskGuard.readMotes (.str (toString s.yieldRealisedMotes))
        custodianMotes := ← RiskGuard.readMotes (.str (toString s.custodianMotes))
        stakeholderDeposits := ← RiskGuard.readCount (.num (.finite s.stakeholderDeposits))
        stakeholderActiveMotes := ← RiskGuard.readMotes (.str (toString s.stakeholderActiveMotes))
        stakeholderTotalMotes := ← RiskGuard.readMotes (.str (toString s.stakeholderTotalMotes))
        stakeholderWithdrawnMotes :=
          ← RiskGuard.readMotes (.str (toString s.stakeholderWithdrawnMotes))
        lastUpdated := ← RiskGuard.readCount (.num (.finite s.lastUpdated)) } := rfl
  rw [loadFile, fileText, Json.parse_flat (by simp [fileFields]) hback, hset]
  simp only [hfields, hmotes, hcount]
  rfl

end FundState

/-- The calls that write the file, with their time. -/
inductive FundCall
  | record (now : ℕ) (r : FundRecord)
  | reset (now : ℕ)

namespace FundCall

/-- The time of the call. -/
def now : FundCall → ℕ
  | record now _ => now
  | reset now => now

/-- What a call makes of the counters in memory; a record that throws makes nothing. -/
def update (s : FundState) : FundCall → Option FundState
  | record now r => (s.record now r).toOption
  | reset now => some (FundState.defaultState now)

/-- What a call does to the counters alone. -/
def counted (s : FundState) : FundCall → FundState
  | record _ r => s.recorded r
  | reset _ => FundState.defaultState 0

/-- The counters after some calls. -/
def effect (calls : List FundCall) : FundState :=
  calls.foldl counted (FundState.defaultState 0)

end FundCall

/-- The counters and their file. -/
def fundStore : Store Char FundState FundCall where
  init := fun s => ∃ now, s = FundState.defaultState now
  update := FundCall.update
  text := FundState.fileText
  load := fun file s => ∃ now, FundState.loadFile now file = some s
  Good := FundState.InRange
  load_none := fun s => by
    constructor
    · rintro ⟨now, h⟩
      exact ⟨now, (Option.some.inj h).symm⟩
    · rintro ⟨now, rfl⟩
      exact ⟨now, rfl⟩
  load_text := fun s s' h => by
    constructor
    · rintro ⟨now, hload⟩
      rw [FundState.loadFile_fileText h] at hload
      exact (Option.some.inj hload).symm
    · rintro rfl
      exact ⟨0, FundState.loadFile_fileText h 0⟩

/-- Side condition on a run: the clock and the number of calls stay below 10^15. -/
def FundInRange (p : World Char FundState × List (Action FundCall)) : Action FundCall → Prop
  | .update call _ _ => call.now < 10 ^ 15 ∧ p.2.length + 1 < 10 ^ 15
  | _ => True

section

variable {s s' : FundState} {call : FundCall} {calls : List FundCall}

lemma exists_change_of_update {now : ℕ} {r : FundRecord}
    (h : (FundCall.record now r).update s = some s') :
    ∃ c, r.parse = .ok c ∧ s' = { c.apply s with lastUpdated := now } := by
  rw [FundCall.update, record_eq] at h
  cases hr : r.parse with
  | error e =>
    rw [hr] at h
    cases h
  | ok c =>
    rw [hr] at h
    exact ⟨c, rfl, (Option.some.inj h).symm⟩

lemma counters_update (h : call.update s = some s') : s'.counters = call.counted s.counters := by
  cases call with
  | reset now =>
    cases h
    rfl
  | record now r =>
    obtain ⟨c, hr, rfl⟩ := exists_change_of_update h
    exact (FundStore.recorded_of_parse hr s).symm

lemma counters_holds (h : fundStore.Holds calls s) : s.counters = FundCall.effect calls := by
  refine h.invariant (P := fun calls s => s.counters = FundCall.effect calls) ?_ ?_
  · rintro _ ⟨now, rfl⟩
    rfl
  · intro calls s call s' hs hupdate
    rw [counters_update hupdate, hs, FundCall.effect, FundCall.effect, List.foldl_append]
    rfl

/-- A call sets the time, and counts one more at the most. -/
lemma counts_update (h : call.update s = some s') : s'.lastUpdated = call.now ∧
    s'.positionsOpened ≤ s.positionsOpened + 1 ∧
      s'.positionsRealised ≤ s.positionsRealised + 1 ∧
        s'.stakeholderDeposits ≤ s.stakeholderDeposits + 1 := by
  cases call with
  | reset now =>
    cases h
    exact ⟨rfl, Nat.zero_le _, Nat.zero_le _, Nat.zero_le _⟩
  | record now r =>
    obtain ⟨c, -, rfl⟩ := exists_change_of_update h
    cases c <;> refine ⟨rfl, ?_, ?_, ?_⟩ <;> simp [FundChange.apply]

lemma counts_holds (h : fundStore.Holds calls s) : s.positionsOpened ≤ calls.length ∧
    s.positionsRealised ≤ calls.length ∧ s.stakeholderDeposits ≤ calls.length := by
  refine h.invariant (P := fun calls s => s.positionsOpened ≤ calls.length ∧
    s.positionsRealised ≤ calls.length ∧ s.stakeholderDeposits ≤ calls.length) ?_ ?_
  · rintro _ ⟨now, rfl⟩
    exact ⟨Nat.zero_le _, Nat.zero_le _, Nat.zero_le _⟩
  · rintro calls s call s' ⟨hopened, hrealised, hdeposits⟩ hupdate
    obtain ⟨-, hopened', hrealised', hdeposits'⟩ := counts_update hupdate
    rw [List.length_append, List.length_singleton]
    omega

variable {w : World Char FundState} {as : List (Action FundCall)}

/-- In a run that is in range the file follows its journal. -/
lemma fundStore_agrees (h : fundStore.system.recorded.ReachableVia FundInRange (w, as)) :
    fundStore.Agrees w (Journal.of as) := by
  refine Store.agrees ?_ h
  rintro w as call stage survives s s' ⟨hnow, hlength⟩ hs hupdate
  obtain ⟨hopened, hrealised, hdeposits⟩ := counts_holds hs
  obtain ⟨hlast, hopened', hrealised', hdeposits'⟩ := counts_update hupdate
  have hmade : (Journal.of as).made.length + 1 < 10 ^ 15 :=
    (Nat.succ_le_succ (length_made_le as)).trans_lt hlength
  exact ⟨by omega, by omega, by omega, by omega⟩

/-- A file that follows its journal is loaded, as the counters after the calls that are kept. -/
lemma exists_loadFile {j : Journal FundCall} (h : fundStore.Agrees w j) (now : ℕ) :
    ∃ s, FundState.loadFile now w.disk.file = some s ∧ s.counters = FundCall.effect j.kept ∧
      (now < 10 ^ 15 → s.InRange) := by
  have hcounters : ∀ s, FundState.loadFile now w.disk.file = some s →
      s.counters = FundCall.effect j.kept :=
    fun s hload => counters_holds (h.file.load ⟨now, hload⟩)
  have hfile := h.file
  cases hf : w.disk.file with
  | none =>
    have hzero : 0 < 10 ^ 15 := by decide
    exact ⟨_, rfl, hcounters _ (by rw [hf]; rfl), fun hnow => ⟨hzero, hzero, hzero, hnow⟩⟩
  | some text =>
    rw [hf] at hfile
    obtain ⟨s, rfl, hgood, -⟩ := hfile
    have hload := FundState.loadFile_fileText hgood now
    exact ⟨s, hload, hcounters s (by rw [hf]; exact hload), fun _ => hgood⟩

/-- In every run, whatever becomes of the saves and the processes, the counters in memory are those
after the calls that have been made, a restart or a reload finds those after the calls that are kept,
which are the first ones of them, and what is kept once stays so. -/
theorem fund_file_keeps (h : fundStore.system.recorded.ReachableVia FundInRange (w, as)) :
    (∀ s, w.memory = some s → s.counters = FundCall.effect (Journal.of as).made) ∧
      (∀ now, ∃ s, FundState.loadFile now w.disk.file = some s ∧
        s.counters = FundCall.effect (Journal.of as).kept) ∧
      (Journal.of as).kept <+: (Journal.of as).made ∧
      ∀ bs, bs <+: as → (Journal.of bs).kept <+: (Journal.of as).kept := by
  have hagrees := fundStore_agrees h
  refine ⟨fun s hs => counters_holds (hagrees.memory s hs), fun now => ?_, kept_prefix_made as,
    fun bs hbs => kept_mono hbs⟩
  obtain ⟨s, hload, hcounters, -⟩ := exists_loadFile hagrees now
  exact ⟨s, hload, hcounters⟩

end

/-! ### A crash while a deposit is saved -/

/-- A position is saved, a deposit is cut off after three bytes of its text, and the next process
starts. -/
def cutOff : List (Action FundCall) :=
  [.start, .update (.record 1 .positionOpened) .renamed true,
    .update (.record 2 (.stakeholderDeposit "5" "0")) (.written 3) false, .start]

/-- The counters after the position. -/
def onePosition : FundState :=
  (FundState.defaultState 0).recordPositionOpened 1

/-- The counters after the deposit. -/
def oneDeposit : FundState :=
  { onePosition with
    stakeholderDeposits := 1
    stakeholderActiveMotes := 5
    stakeholderTotalMotes := 5
    lastUpdated := 2 }

/-- The disk after the crash. -/
def cutOffDisk : Disk Char :=
  (Disk.save ⟨none, none⟩ (FundState.fileText onePosition) .renamed).save
    (FundState.fileText oneDeposit) (.written 3)

lemma fund_run_snoc {w w' : World Char FundState} {as : List (Action FundCall)}
    {a : Action FundCall} (h : fundStore.system.recorded.ReachableVia FundInRange (w, as))
    (hok : FundInRange (w, as) a) (hstep : fundStore.Step w a w') :
    fundStore.system.recorded.ReachableVia FundInRange (w', as ++ [a]) :=
  h.step hok ⟨hstep, rfl⟩

lemma reachable_cutOff :
    fundStore.system.recorded.ReachableVia FundInRange (⟨cutOffDisk, some onePosition⟩, cutOff) := by
  have hbegin : fundStore.system.recorded.ReachableVia FundInRange (⟨⟨none, none⟩, none⟩, []) :=
    .init ⟨⟨rfl, rfl⟩, rfl⟩
  have hdefault : fundStore.load none (FundState.defaultState 0) := ⟨0, rfl⟩
  have hstart := fund_run_snoc hbegin (a := .start) trivial (.start hdefault)
  have hopened : fundStore.update (FundState.defaultState 0) (.record 1 .positionOpened) =
      some onePosition := rfl
  have hposition := fund_run_snoc hstart
    (a := .update (.record 1 .positionOpened) .renamed true) ⟨by decide, by decide⟩
    (.update .renamed true hopened)
  have hdeposited : fundStore.update onePosition (.record 2 (.stakeholderDeposit "5" "0")) =
      some oneDeposit := by
    decide
  have hdeposit := fund_run_snoc hposition
    (a := .update (.record 2 (.stakeholderDeposit "5" "0")) (.written 3) false)
    ⟨by decide, by decide⟩ (.update (.written 3) false hdeposited)
  have hload : fundStore.load (some (FundState.fileText onePosition)) onePosition :=
    ⟨0, FundState.loadFile_fileText ⟨by decide, by decide, by decide, by decide⟩ 0⟩
  exact fund_run_snoc hdeposit (a := .start) trivial (.start hload)

/-- The position is in the file, and the deposit is not. -/
theorem fund_file_keeps_cutOff : ∃ s,
    FundState.loadFile 3 cutOffDisk.file = some s ∧
      s.counters = { FundState.defaultState 0 with positionsOpened := 1 } :=
  (fund_file_keeps reachable_cutOff).2.1 3

end ArwaAgent
