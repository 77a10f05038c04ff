import ArwaAgent.X402.Forecast
import Mathlib.Data.List.TakeWhile

/-!
# What a forecast depends on

The log is cut before it is filtered by lot, so the forecast for a lot is made of as many of
its events as are among the first fifty of all lots, and says that there are none only when
no lot has any.  Two logs with the same events of a lot therefore give it the same forecast
exactly when their windows hold equally many of them and both logs or neither are empty.
-/

namespace ArwaAgent.X402

open Js

/-- An entry of the log names its source and its time, as a revenue event does. -/
structure IsEvent (e : Value) : Prop where
  source : ∃ source, e.field "source" = .ok (.str source)
  timestamp : ∃ timestamp, e.field "timestamp" = .ok (.num timestamp)

/-- The log that a call reads: the cached one as long as it is fresh, else that of the file, and
an empty one where there is no file. -/
def EventStore.Holds (s : EventStore) (t : Clock) (log : List Value) : Prop :=
  match s.cachedBlock.filter fun c => (t.checked : ℤ) - c.1 < 5000 with
  | some (_, events) => events = .arr log
  | none =>
    match s.file with
    | some (.ok events) => events = .arr log
    | _ => log = []

/-- An event of the lot. -/
def sourceIs (lotId : String) (e : Value) : Bool :=
  (e.ownField "source").is lotId

/-- The events of a lot among the first fifty. -/
def windowOf (lotId : String) (log : List Value) : List Value :=
  (log.take 50).filter (sourceIs lotId)

/-- The events of a window that are younger than an age in seconds. -/
def youngOf (t : Clock) (age : ℤ) (window : List Value) : List Value :=
  window.filter fun e => (isAfter (t.now / 1000 - age) e).toOption.getD false

/-! ### Reading the log -/

section

variable {lotId : String} {t : Clock} {s : EventStore} {log : List Value}

lemma getRecentEventsDirect_of_holds (h : s.Holds t log) (limit : ℕ) :
    (getRecentEventsDirect limit t s).1 = .ok (.arr (log.take limit)) := by
  rw [EventStore.Holds] at h
  rw [getRecentEventsDirect]
  cases hcache : s.cachedBlock.filter fun c => (t.checked : ℤ) - c.1 < 5000 with
  | some cached =>
    obtain ⟨ts, events⟩ := cached
    rw [hcache] at h
    obtain rfl : events = .arr log := h
    rfl
  | none =>
    rw [hcache] at h
    cases hfile : s.file with
    | none =>
      rw [hfile] at h
      obtain rfl : log = [] := h
      simp
    | some content =>
      rw [hfile] at h
      cases content with
      | error e =>
        obtain rfl : log = [] := h
        simp
      | ok events =>
        obtain rfl : events = .arr log := h
        rfl

lemma filterEvents_eq_filter {p : Value → Except Error Bool} {q : Value → Bool}
    {events : List Value} (h : ∀ e ∈ events, p e = .ok (q e)) :
    filterEvents p events = .ok (events.filter q) := by
  induction events with
  | nil => rfl
  | cons e events ih =>
    have hrest := ih fun e' he' => h e' (List.mem_cons_of_mem _ he')
    rw [filterEvents, h e List.mem_cons_self, ok_bind, hrest]
    cases hq : q e <;> simp [hq]

lemma isFrom_eq_ok {e : Value} (h : IsEvent e) : isFrom lotId e = .ok (sourceIs lotId e) := by
  obtain ⟨source, hsource⟩ := h.source
  have hfield := Value.field_eq_ok hsource
  rw [isFrom, hsource, sourceIs, ← hfield]
  rfl

lemma exists_isAfter {e : Value} (h : IsEvent e) (seconds : ℤ) : ∃ b, isAfter seconds e = .ok b := by
  obtain ⟨timestamp, htimestamp⟩ := h.timestamp
  rw [isAfter, htimestamp]
  exact ⟨_, rfl⟩

lemma filterEvents_isAfter {events : List Value} (h : ∀ e ∈ events, IsEvent e) (age : ℤ) :
    filterEvents (isAfter (t.now / 1000 - age)) events = .ok (youngOf t age events) := by
  refine filterEvents_eq_filter fun e he => ?_
  obtain ⟨b, hb⟩ := exists_isAfter (h e he) (t.now / 1000 - age)
  rw [hb]
  rfl

lemma computeForecast_of_holds (hs : s.Holds t log) (hlog : ∀ e ∈ log, IsEvent e) :
    (computeForecast lotId t s).1 =
      if log = [] then .ok (noEvents lotId) else forecastOf (windowOf lotId log) t := by
  have hread := getRecentEventsDirect_of_holds hs 50
  show ((getRecentEventsDirect 50 t s).1 >>= _) = _
  rw [hread, ok_bind]
  cases log with
  | nil => rfl
  | cons e events =>
    have hfilter : filterEvents (isFrom lotId) ((e :: events).take 50) =
        .ok (windowOf lotId (e :: events)) :=
      filterEvents_eq_filter fun e' he' => isFrom_eq_ok (hlog e' (List.mem_of_mem_take he'))
    rw [if_neg (List.cons_ne_nil _ _)]
    show (filterEvents (isFrom lotId) ((e :: events).take 50) >>= _) = _
    rw [hfilter, ok_bind]

/-! ### What a window shows -/

/-- A forecast that can be computed says how many events it is made of, and its text how many of
them are young. -/
lemma forecastOf_eq_ok {matching : List Value} {total : ℤ} (h : ∀ e ∈ matching, IsEvent e)
    (htotal : totalMotes matching = .ok total) :
    ∃ forecast, forecastOf matching t = .ok forecast ∧ forecast.sourceCount = matching.length ∧
      forecast.utilizationForecast =
        forecastText (youngOf t 3600 matching).length (youngOf t 86400 matching).length := by
  have hday := filterEvents_isAfter (t := t) h 86400
  have hhour := filterEvents_isAfter (t := t) h 3600
  simp only [forecastOf, htotal, hday, hhour, ok_bind]
  exact ⟨_, rfl, rfl, rfl⟩

lemma forecastOf_eq_error {matching : List Value} {e : Error}
    (htotal : totalMotes matching = .error e) : forecastOf matching t = .error e := by
  rw [forecastOf, htotal]
  rfl

/-- An amount that cannot be read in the shorter window cannot be read in the longer one. -/
lemma totalMotes_eq_error {window window' : List Value} {e : Error} (h : window <+: window')
    (htotal : totalMotes window = .error e) : totalMotes window' = .error e := by
  obtain ⟨rest, rfl⟩ := h
  rw [totalMotes, List.foldlM_append]
  rw [totalMotes] at htotal
  rw [htotal]
  rfl

/-- The forecasts of a window and of a longer one differ, unless neither can be computed. -/
lemma forecastOf_eq_iff_of_prefix {window window' : List Value} (h : window <+: window')
    (hevents : ∀ e ∈ window', IsEvent e) :
    forecastOf window t = forecastOf window' t ↔
      window.length = window'.length ∨ ∃ e, totalMotes window = .error e := by
  constructor
  · intro heq
    cases htotal : totalMotes window with
    | error e => exact Or.inr ⟨e, rfl⟩
    | ok total =>
      refine Or.inl ?_
      obtain ⟨forecast, hforecast, hcount, -⟩ :=
        forecastOf_eq_ok (t := t) (fun e he => hevents e (h.subset he)) htotal
      rw [hforecast] at heq
      cases htotal' : totalMotes window' with
      | error e =>
        rw [forecastOf_eq_error htotal'] at heq
        cases heq
      | ok total' =>
        obtain ⟨forecast', hforecast', hcount', -⟩ := forecastOf_eq_ok (t := t) hevents htotal'
        rw [hforecast'] at heq
        cases heq
        rw [← hcount, hcount']
  · rintro (hlen | ⟨e, htotal⟩)
    · rw [h.eq_of_length hlen]
    · rw [forecastOf_eq_error htotal, forecastOf_eq_error (totalMotes_eq_error h htotal)]

/-- The forecasts of two windows on the same events. -/
lemma forecastOf_eq_iff_of_windows {window window' events : List Value} (h : window <+: events)
    (h' : window' <+: events) (hevents : ∀ e ∈ events, IsEvent e) :
    forecastOf window t = forecastOf window' t ↔
      window.length = window'.length ∨
        ∃ e, totalMotes (events.take (min window.length window'.length)) = .error e := by
  rcases le_total window.length window'.length with hle | hle
  · have hprefix := List.prefix_of_prefix_length_le h h' hle
    rw [min_eq_left hle, ← List.prefix_iff_eq_take.1 h]
    exact forecastOf_eq_iff_of_prefix hprefix fun e he => hevents e (h'.subset he)
  · have hprefix := List.prefix_of_prefix_length_le h' h hle
    rw [min_eq_right hle, ← List.prefix_iff_eq_take.1 h', eq_comm, eq_comm (a := window.length)]
    exact forecastOf_eq_iff_of_prefix hprefix fun e he => hevents e (h.subset he)

lemma windowOf_prefix (lotId : String) (log : List Value) :
    windowOf lotId log <+: log.filter (sourceIs lotId) :=
  (List.take_prefix 50 log).filter _

lemma noEvents_ne_forecastOf (lotId : String) :
    (.ok (noEvents lotId) : Except Error Forecast) ≠ forecastOf [] t := by
  intro h
  have htotal : totalMotes [] = .ok 0 := rfl
  obtain ⟨forecast, hforecast, -, htext⟩ :=
    forecastOf_eq_ok (t := t) (fun e he => absurd he List.not_mem_nil) htotal
  rw [hforecast] at h
  rw [← Except.ok.inj h, noEvents_utilizationForecast, youngOf, youngOf, forecastText_eq] at htext
  -- the one text begins with a letter and the other one with a digit
  have hletter : "no events found for source \"".toList =
      'n' :: "o events found for source \"".toList := by decide
  have hdigit : (toString (min 99 (0 * 8))).toList = ['0'] := by decide
  have hchars := congrArg String.toList htext
  simp only [String.toList_append] at hchars
  rw [hletter, List.filter_nil, List.length_nil, hdigit] at hchars
  simp at hchars

end

/-! ### Recorded logs -/

/-- What is recorded is cached as well as written, so that every call reads it. -/
def EventStore.Logs (s : EventStore) (log : List Value) : Prop :=
  s.file.getD (.ok (.arr [])) = .ok (.arr log) ∧ ∀ t, s.Holds t log

lemma logs_empty : (EventStore.mk none none).Logs [] := ⟨rfl, fun _ => rfl⟩

lemma EventStore.Logs.recordEventLocal {s : EventStore} {log : List Value} (h : s.Logs log)
    (now : ℕ) (ev : Value) : (recordEventLocal now ev s).Logs ((ev :: log).take 200) := by
  have hrecord : X402.recordEventLocal now ev s =
      { cachedBlock := some (now, .arr ((ev :: log).take 200)),
        file := some (.ok (.arr ((ev :: log).take 200))) } := by
    rw [X402.recordEventLocal, h.1]
  rw [hrecord]
  refine ⟨rfl, fun t => ?_⟩
  -- the cached log is also that of the file
  rw [Holds]
  dsimp only
  by_cases hfresh : (t.checked : ℤ) - now < 5000
  · rw [Option.filter_some, if_pos (decide_eq_true hfresh)]
  · rw [Option.filter_some, if_neg (by simpa using hfresh)]

/-- Events that are recorded one after the other, each at its time. -/
def recordAll (evs : List (ℕ × Value)) (s : EventStore) : EventStore :=
  evs.foldl (fun s ev => recordEventLocal ev.1 ev.2 s) s

/-- The log holds the last two hundred events, newest first. -/
lemma EventStore.Logs.recordAll {s : EventStore} {log : List Value} (h : s.Logs log)
    (hlen : log.length ≤ 200) (evs : List (ℕ × Value)) :
    (recordAll evs s).Logs (((evs.map Prod.snd).reverse ++ log).take 200) := by
  induction evs generalizing s log with
  | nil => rwa [List.map_nil, List.reverse_nil, List.nil_append, List.take_of_length_le hlen]
  | cons ev evs ih =>
    have hrest := ih (h.recordEventLocal ev.1 ev.2) (List.length_take_le 200 _)
    rw [List.map_cons, List.reverse_cons, List.append_assoc, List.singleton_append]
    -- what the first cut drops, the second one would drop as well
    rwa [List.take_append, List.take_take, min_eq_left (Nat.sub_le _ _), ← List.take_append] at hrest

/-- As long as no more than fifty events have been recorded, the forecast for a lot depends only
on its own ones. -/
theorem recorded_forecast {lotId : String} {t : Clock} {evs : List (ℕ × Value)} (hne : evs ≠ [])
    (hlen : evs.length ≤ 50) (hevents : ∀ ev ∈ evs, IsEvent ev.2) :
    (computeForecast lotId t (recordAll evs ⟨none, none⟩)).1 =
      forecastOf ((evs.map Prod.snd).reverse.filter (sourceIs lotId)) t := by
  have hlogs := (logs_empty.recordAll (Nat.zero_le _) evs).2 t
  rw [List.append_nil, List.take_of_length_le (by simp; omega)] at hlogs
  rw [computeForecast_of_holds hlogs (by simpa using fun e now h => hevents (now, e) h),
    if_neg (by simpa using hne), windowOf, List.take_of_length_le (by simpa using hlen)]

/-! ### Two logs -/

/-- Two logs with the same events of a lot in the same order, at the same time, give it the same
forecast if and only if equally many of these events are among the first fifty of all lots and
both logs or neither are empty, or there is no forecast because an amount among them, as far as
both windows reach, cannot be read. -/
theorem forecast_same_iff {lotId : String} {t : Clock} {s s' : EventStore} {log log' : List Value}
    (hs : s.Holds t log) (hs' : s'.Holds t log') (hlog : ∀ e ∈ log, IsEvent e)
    (hlog' : ∀ e ∈ log', IsEvent e)
    (hsame : log.filter (sourceIs lotId) = log'.filter (sourceIs lotId)) :
    (computeForecast lotId t s).1 = (computeForecast lotId t s').1 ↔
      ((windowOf lotId log).length = (windowOf lotId log').length ∧ (log = [] ↔ log' = [])) ∨
        ∃ e, totalMotes ((log.filter (sourceIs lotId)).take
          (min (windowOf lotId log).length (windowOf lotId log').length)) = .error e := by
  have hprefix := windowOf_prefix lotId log
  have hprefix' := windowOf_prefix lotId log'
  rw [← hsame] at hprefix'
  have hevents : ∀ e ∈ log.filter (sourceIs lotId), IsEvent e := fun e he =>
    hlog e (List.mem_of_mem_filter he)
  rw [computeForecast_of_holds hs hlog, computeForecast_of_holds hs' hlog']
  have hnone : totalMotes [] = .ok 0 := rfl
  by_cases hempty : log = [] <;> by_cases hempty' : log' = []
  · simp [hempty, hempty']
  · -- the empty log says that it is empty, the other one counts no events
    subst hempty
    rw [List.filter_nil, List.prefix_nil] at hprefix'
    rw [if_pos rfl, if_neg hempty', hprefix']
    simp [hempty', hnone, noEvents_ne_forecastOf]
  · subst hempty'
    rw [List.filter_nil] at hsame
    rw [hsame, List.prefix_nil] at hprefix
    rw [if_pos rfl, if_neg hempty, hprefix, hsame]
    simp [hempty, hnone, (noEvents_ne_forecastOf lotId).symm]
  · rw [if_neg hempty, if_neg hempty', forecastOf_eq_iff_of_windows hprefix hprefix' hevents]
    simp only [hempty, hempty', iff_self, and_true]

/-- An event of a source at a time. -/
def eventAt (source : String) (timestamp : ℕ) : Value :=
  .obj [("source", .str source), ("amount", .str "100"), ("timestamp", .num (.finite timestamp))]

lemma eventAt_isEvent (source : String) (timestamp : ℕ) : IsEvent (eventAt source timestamp) where
  source := ⟨source, rfl⟩
  timestamp := ⟨_, rfl⟩

/-- A store that has not read its file yet. -/
def storeOf (log : List Value) : EventStore where
  cachedBlock := none
  file := some (.ok (.arr log))

lemma storeOf_holds (t : Clock) (log : List Value) : (storeOf log).Holds t log := rfl

/-- An event of another lot in front of that of the gate changes nothing. -/
theorem forecast_same_after_one :
    (computeForecast "gate" ⟨7200000, 7200000, 7200000⟩ (storeOf [eventAt "gate" 60])).1 =
      (computeForecast "gate" ⟨7200000, 7200000, 7200000⟩
        (storeOf [eventAt "mall" 90, eventAt "gate" 60])).1 :=
  (forecast_same_iff (storeOf_holds _ _) (storeOf_holds _ _)
    (by simp [eventAt_isEvent]) (by simp [eventAt_isEvent]) rfl).2
    (Or.inl ⟨rfl, by simp⟩)

/-- Fifty events of another lot in front of that of the gate push it out of the window. -/
theorem crowded_lot_is_lost :
    ¬ ∀ (lotId : String) (t : Clock) (s s' : EventStore) (log log' : List Value),
      s.Holds t log → s'.Holds t log' → (∀ e ∈ log, IsEvent e) → (∀ e ∈ log', IsEvent e) →
        log.filter (sourceIs lotId) = log'.filter (sourceIs lotId) →
          (computeForecast lotId t s).1 = (computeForecast lotId t s').1 := by
  intro hsame
  have hgate : ∀ e ∈ [eventAt "gate" 60], IsEvent e := by simp [eventAt_isEvent]
  have hcrowd : ∀ e ∈ List.replicate 50 (eventAt "mall" 90) ++ [eventAt "gate" 60], IsEvent e := by
    intro e he
    rcases List.mem_append.1 he with he | he
    · rw [List.eq_of_mem_replicate he]
      exact eventAt_isEvent "mall" 90
    · exact hgate e he
  have heq := hsame "gate" ⟨7200000, 7200000, 7200000⟩ _ _ _ _ (storeOf_holds _ _)
    (storeOf_holds _ _) hgate hcrowd rfl
  rw [computeForecast_of_holds (storeOf_holds _ _) hgate,
    computeForecast_of_holds (storeOf_holds _ _) hcrowd] at heq
  have hkept : windowOf "gate" [eventAt "gate" 60] = [eventAt "gate" 60] := rfl
  have hlost : windowOf "gate" (List.replicate 50 (eventAt "mall" 90) ++ [eventAt "gate" 60]) = [] :=
    rfl
  rw [if_neg (by simp), if_neg (by simp), hkept, hlost, eq_comm,
    forecastOf_eq_iff_of_prefix List.nil_prefix hgate] at heq
  rcases heq with hlen | ⟨e, he⟩
  · cases hlen
  · cases he

end ArwaAgent.X402
