import ArwaAgent.Agent.FundFile
import ArwaAgent.Js.Fixed
import ArwaAgent.Js.Tree

/-!
# The fund card of the dashboard

`/api/fund` reads the counters from the file and adds their amounts in CSPR, with four decimals; the
dashboard reads these as numbers and writes them with four decimals again.  Below 2^53 motes, all
the rounding on this way leaves the decimal that is nearest to the amount (`fund_shown`).
-/

namespace ArwaAgent.Dashboard

open Js Replacement

/-! ### The server -/

/-- `toCspr` -/
def toCspr (motes : String) : String :=
  ((stringToNumber motes).div (.finite 1000000000)).toFixed 4

/-- What `/api/fund` answers. -/
def fundAnswer (fs : FundState) : Value :=
  .obj [("ok", .bool true),
    ("custodiedCspr", .str (toString fs.custodianMotes)),
    ("totalYieldRealised", .str (toString fs.yieldRealisedMotes)),
    ("positionCount", .num (.finite fs.positionsOpened)),
    ("stakeholderActiveCspr", .str (toString fs.stakeholderActiveMotes)),
    ("stakeholderTotalDepositedCspr", .str (toString fs.stakeholderTotalMotes)),
    ("stakeholderTotalWithdrawnCspr", .str (toString fs.stakeholderWithdrawnMotes)),
    ("stakeholderDepositCount", .num (.finite fs.stakeholderDeposits)),
    ("custodiedCsprFormatted", .str (toCspr (toString fs.custodianMotes))),
    ("totalYieldFormatted", .str (toCspr (toString fs.yieldRealisedMotes))),
    ("stakeholderActiveFormatted", .str (toCspr (toString fs.stakeholderActiveMotes))),
    ("stakeholderTotalFormatted", .str (toCspr (toString fs.stakeholderTotalMotes))),
    ("stakeholderWithdrawnFormatted", .str (toCspr (toString fs.stakeholderWithdrawnMotes))),
    ("lastUpdated", .num (.finite fs.lastUpdated))]

/-- The body of a response of `/api/fund`, which reloads the file. -/
def getFund (now : ℕ) (file : Option (List Char)) : Option (List Char) := do
  Json.stringify (fundAnswer (← FundState.loadFile now file))

/-! ### The dashboard -/

/-- The texts of the card. -/
structure FundCard where
  aum : String
  yield : String
  positions : String
  shActive : String
  shCount : String
  deriving DecidableEq

/-- `Number(v || 0).toFixed(4)` -/
def shownAmount (v : Value) : Except Error String := do
  return (← (v.or (.num (.finite 0))).toNumber).toFixed 4

/-- `v ?? 0` as the text of an element. -/
def shownCount (v : Value) : Except Error String :=
  (v.orElse (.num (.finite 0))).toStr

/-- Texts that are set one after the other, up to the first that throws. -/
def setTexts : List ((FundCard → String → FundCard) × Except Error String) → FundCard → FundCard
  | (set, .ok text) :: rest, card => setTexts rest (set card text)
  | _, card => card

/-- `refreshFund` on the body of the response. -/
def refreshFund (body : List Char) (card : FundCard) : FundCard :=
  match Json.parse (String.ofList body) with
  | none => card
  | some f =>
    if f.truthy && (f.field? "ok").truthy then
      setTexts [
        (fun card text => { card with aum := text },
          shownAmount (f.field? "custodiedCsprFormatted")),
        (fun card text => { card with yield := text },
          shownAmount (f.field? "totalYieldFormatted")),
        (fun card text => { card with positions := text }, shownCount (f.field? "positionCount")),
        (fun card text => { card with shActive := text },
          shownAmount (f.field? "stakeholderActiveFormatted")),
        (fun card text => { card with shCount := text },
          shownCount (f.field? "stakeholderDepositCount"))] card
    else card

/-! ### What is shown -/

/-- The text is the decimal with four digits after its point that is nearest to the amount. -/
def Nearest (text : String) (motes : ℤ) : Prop :=
  ∃ k : ℤ, text = decimalText k 4 ∧ |k * 100000 - motes| ≤ 50000

section

variable {m : ℤ} {n : ℕ} {fs : FundState} {w : World Char FundState} {as : List (Action FundCall)}

/-- The amount that is shown, on its way through both roundings. -/
lemma exists_nearest (hm : |m| < 2 ^ 53) :
    ∃ text, shownAmount (.str (toCspr (toString m))) = .ok text ∧ Nearest text m := by
  have hread : stringToNumber (toString m) = .finite m :=
    (reads_of_stringToBigInt (stringToBigInt_toString m)).eq_finite hm
  obtain ⟨negative, n, htext, hnear⟩ := Number.exists_toFixed_div (d := 4) (u := 50000) hm
    (by decide) (by decide) (by decide)
  have hcspr : toCspr (toString m) = fixedText negative n 4 := by
    rw [toCspr, hread]
    exact htext
  obtain ⟨k, hk⟩ : ∃ k : ℤ, k = if negative then -(n : ℤ) else n := ⟨_, rfl⟩
  have habs : |k| = n := by
    rw [hk]
    split_ifs <;> simp
  rw [← hk, Nat.cast_ofNat, abs_le] at hnear
  have hlt : |k| < 2 ^ 52 := by
    rw [abs_lt] at hm ⊢
    omega
  have hagain : (stringToNumber (fixedText negative n 4)).toFixed 4 = decimalText k 4 := by
    rw [hk]
    exact toFixed_stringToNumber negative (by omega) (by decide) (by decide)
  have htruthy : (Value.str (fixedText negative n 4)).truthy = true := by
    obtain ⟨ws, fs, htoList, -⟩ := exists_digits negative n (d := 4) (by decide)
    refine decide_eq_true fun hempty => ?_
    rw [hempty] at htoList
    simp at htoList
  refine ⟨decimalText k 4, ?_, k, rfl, by rw [abs_le]; omega⟩
  rw [shownAmount, hcspr, Value.or, if_pos htruthy, Value.toNumber, ok_bind, hagain]
  rfl

lemma exists_shownAmount (m : ℤ) : ∃ text, shownAmount (.str (toCspr (toString m))) = .ok text ∧
    (|m| < 2 ^ 53 → Nearest text m) := by
  by_cases hm : |m| < 2 ^ 53
  · obtain ⟨text, htext, hnear⟩ := exists_nearest hm
    exact ⟨text, htext, fun _ => hnear⟩
  · rw [shownAmount, Value.or]
    split_ifs
    · exact ⟨_, rfl, fun h => absurd h hm⟩
    · exact ⟨_, rfl, fun h => absurd h hm⟩

lemma shownCount_natCast (hn : n < 10 ^ 15) :
    shownCount (.num (.finite n)) = .ok (toString n) := by
  have htext : toString n = Number.toStr (.finite n) := by
    rw [toStr_natCast hn, ← Nat.repr_eq_ofList_toDigits]
    rfl
  rw [htext]
  rfl

lemma readable_fundAnswer (h : fs.InRange) : Json.Readable (fundAnswer fs) := by
  have hcount : ∀ {n : ℕ}, n < 10 ^ 15 → Json.Readable (.num (.finite n)) := fun {n} hn =>
    ⟨n, by simpa using hn, by simp⟩
  exact ⟨by simp, trivial, trivial, trivial, hcount h.positionsOpened, trivial, trivial, trivial,
    hcount h.stakeholderDeposits, trivial, trivial, trivial, trivial, trivial,
    hcount h.lastUpdated, trivial⟩

lemma refreshFund_fundAnswer (h : fs.InRange) (card : FundCard) : ∃ body aum yield active,
    Json.stringify (fundAnswer fs) = some body ∧
      refreshFund body card =
        ⟨aum, yield, toString fs.positionsOpened, active, toString fs.stakeholderDeposits⟩ ∧
        (|fs.custodianMotes| < 2 ^ 53 → Nearest aum fs.custodianMotes) ∧
          (|fs.yieldRealisedMotes| < 2 ^ 53 → Nearest yield fs.yieldRealisedMotes) ∧
            (|fs.stakeholderActiveMotes| < 2 ^ 53 → Nearest active fs.stakeholderActiveMotes) := by
  obtain ⟨body, hbody, hparse⟩ := Json.parse_stringify (readable_fundAnswer h)
  obtain ⟨aum, haum, haum'⟩ := exists_shownAmount fs.custodianMotes
  obtain ⟨yield, hyield, hyield'⟩ := exists_shownAmount fs.yieldRealisedMotes
  obtain ⟨active, hactive, hactive'⟩ := exists_shownAmount fs.stakeholderActiveMotes
  refine ⟨body, aum, yield, active, hbody, ?_, haum', hyield', hactive'⟩
  have hfields : refreshFund body card = setTexts [
      (fun card text => { card with aum := text },
        shownAmount (.str (toCspr (toString fs.custodianMotes)))),
      (fun card text => { card with yield := text },
        shownAmount (.str (toCspr (toString fs.yieldRealisedMotes)))),
      (fun card text => { card with positions := text },
        shownCount (.num (.finite fs.positionsOpened))),
      (fun card text => { card with shActive := text },
        shownAmount (.str (toCspr (toString fs.stakeholderActiveMotes)))),
      (fun card text => { card with shCount := text },
        shownCount (.num (.finite fs.stakeholderDeposits)))] card := by
    rw [refreshFund, hparse]
    rfl
  rw [hfields, haum, hyield, hactive, shownCount_natCast h.positionsOpened,
    shownCount_natCast h.stakeholderDeposits]
  rfl

/-- In every run of the saves of the fund state, whatever becomes of them, the card shows the
counters after the calls that are kept: the counts as they are, and every amount below 2^53 motes as
the decimal with four digits after its point that is nearest to it in CSPR. -/
theorem fund_shown (h : fundStore.system.recorded.ReachableVia FundInRange (w, as)) {now : ℕ}
    (hnow : now < 10 ^ 15) (card : FundCard) {counters : FundState}
    (hcounters : counters = FundCall.effect (Journal.of as).kept) :
    ∃ body, getFund now w.disk.file = some body ∧
      (|counters.custodianMotes| < 2 ^ 53 →
        Nearest (refreshFund body card).aum counters.custodianMotes) ∧
      (|counters.yieldRealisedMotes| < 2 ^ 53 →
        Nearest (refreshFund body card).yield counters.yieldRealisedMotes) ∧
      (|counters.stakeholderActiveMotes| < 2 ^ 53 →
        Nearest (refreshFund body card).shActive counters.stakeholderActiveMotes) ∧
      (refreshFund body card).positions = toString counters.positionsOpened ∧
        (refreshFund body card).shCount = toString counters.stakeholderDeposits := by
  obtain ⟨s, hload, hs, hrange⟩ := exists_loadFile (fundStore_agrees h) now
  rw [← hs] at hcounters
  subst hcounters
  obtain ⟨body, aum, yield, active, hbody, hcard, haum, hyield, hactive⟩ :=
    refreshFund_fundAnswer (hrange hnow) card
  refine ⟨body, ?_, ?_⟩
  · rw [getFund, hload]
    exact hbody
  · rw [hcard]
    exact ⟨haum, hyield, hactive, rfl, rfl⟩

end

/-! ### A deposit that is shown -/

/-- A process starts and saves one deposit. -/
def deposited : List (Action FundCall) :=
  [.start, .update (.record 1 (.stakeholderDeposit "1234567890123" "0")) .renamed true]

/-- The counters after the deposit. -/
def depositedState : FundState :=
  { FundState.defaultState 0 with
    stakeholderDeposits := 1
    stakeholderActiveMotes := 1234567890123
    stakeholderTotalMotes := 1234567890123
    lastUpdated := 1 }

/-- The disk after the deposit. -/
def depositedDisk : Disk Char :=
  Disk.save ⟨none, none⟩ (FundState.fileText depositedState) .renamed

lemma reachable_deposited : fundStore.system.recorded.ReachableVia FundInRange
    (⟨depositedDisk, some depositedState⟩, deposited) := by
  have hbegin : fundStore.system.recorded.ReachableVia FundInRange (⟨⟨none, none⟩, none⟩, []) :=
    .init ⟨⟨rfl, rfl⟩, rfl⟩
  have hstart := fund_run_snoc hbegin (a := .start) trivial
    (.start (show fundStore.load none (FundState.defaultState 0) from ⟨0, rfl⟩))
  have hupdate : fundStore.update (FundState.defaultState 0)
      (.record 1 (.stakeholderDeposit "1234567890123" "0")) = some depositedState := by
    decide
  exact fund_run_snoc hstart
    (a := .update (.record 1 (.stakeholderDeposit "1234567890123" "0")) .renamed true)
    ⟨by decide, by decide⟩ (.update .renamed true hupdate)

/-- The deposit is shown. -/
theorem fund_shown_deposited : ∃ body, getFund 2 depositedDisk.file = some body ∧
    Nearest (refreshFund body ⟨"", "", "", "", ""⟩).shActive 1234567890123 := by
  have hcounters : depositedState.counters = FundCall.effect (Journal.of deposited).kept := by
    decide
  obtain ⟨body, hbody, -, -, hactive, -⟩ := fund_shown reachable_deposited
    (show 2 < 10 ^ 15 by decide) ⟨"", "", "", "", ""⟩ hcounters
  exact ⟨body, hbody, hactive (by decide)⟩

end ArwaAgent.Dashboard
