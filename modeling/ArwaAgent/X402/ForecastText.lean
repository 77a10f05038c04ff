import ArwaAgent.Lib.Search
import ArwaAgent.Js.Integers
import ArwaAgent.Agent.Strategy
import ArwaAgent.X402.ForecastScope

/-!
# What the text of a forecast says

The server prints the trend of a lot as a word, `rising`, `falling` or `steady`; the analyst
looks in the text for `higher`, for `up` and for a percentage with a plus sign.  The server
prints none of these, so that a forecast is never bullish, unless the log is empty and the
lot's own name, which the text then repeats, is.
-/

namespace ArwaAgent.X402

open Js Search

/-! ### Texts that are not bullish -/

/-- No match of the bullish test starts in the text: it has no `+`, and after each `h` and `u`
comes a letter with which a match cannot go on. -/
def quiet : List Char → Bool
  | [] => true
  | c :: cs =>
    c ≠ '+' && (c.toLower ≠ 'h' || cs.head?.any (·.toLower ≠ 'i')) &&
      (c.toLower ≠ 'u' || cs.head?.any (·.toLower ≠ 'p')) && quiet cs

lemma bullishHere_cons {c : Char} {cs : List Char} (hplus : c ≠ '+')
    (hhigher : c.toLower = 'h' → ∀ d ∈ cs.head?, d.toLower ≠ 'i')
    (hup : c.toLower = 'u' → ∀ d ∈ cs.head?, d.toLower ≠ 'p') :
    bullishHere (c :: cs) = false := by
  have hnohigher : "higher".toList.isPrefixOf ((c :: cs).map Char.toLower) = false := by
    have hword : "higher".toList = ['h', 'i', 'g', 'h', 'e', 'r'] := rfl
    rw [hword]
    cases cs with
    | nil => simp [List.isPrefixOf]
    | cons d cs =>
      by_cases hc : c.toLower = 'h'
      · simp [List.isPrefixOf, (hhigher hc d rfl).symm]
      · simp [List.isPrefixOf, Ne.symm hc]
  have hnoup : "up".toList.isPrefixOf ((c :: cs).map Char.toLower) = false := by
    have hword : "up".toList = ['u', 'p'] := rfl
    rw [hword]
    cases cs with
    | nil => simp [List.isPrefixOf]
    | cons d cs =>
      by_cases hc : c.toLower = 'u'
      · simp [List.isPrefixOf, (hup hc d rfl).symm]
      · simp [List.isPrefixOf, Ne.symm hc]
  rw [bullishHere, hnohigher, hnoup]
  · rfl
  · rintro r hr
    exact hplus (List.cons.inj hr).1

lemma silent_of_quiet {cs : List Char} (h : quiet cs = true) : Silent bullishHere cs := by
  induction cs with
  | nil => exact .nil
  | cons c cs ih =>
    simp only [quiet, Bool.and_eq_true, Bool.or_eq_true, decide_eq_true_eq] at h
    obtain ⟨⟨⟨hplus, hhigher⟩, hup⟩, hrest⟩ := h
    -- a letter that could begin a match has its successor in the text itself
    have hnext : ∀ (rest : List Char) (x : Char), cs.head?.any (·.toLower ≠ x) = true →
        ∀ d ∈ (cs ++ rest).head?, d.toLower ≠ x := by
      intro rest x hx d hd
      cases cs with
      | nil => cases hx
      | cons e cs =>
        obtain rfl : e = d := Option.some.inj hd
        simpa using hx
    refine .cons (fun rest => bullishHere_cons hplus (fun hc => ?_) (fun hc => ?_)) (ih hrest)
    · exact hnext rest 'i' (hhigher.resolve_left fun hne => hne hc)
    · exact hnext rest 'p' (hup.resolve_left fun hne => hne hc)

lemma quiet_of_isDigit {cs : List Char} (h : ∀ c ∈ cs, c.isDigit = true) : quiet cs = true := by
  induction cs with
  | nil => rfl
  | cons c cs ih =>
    obtain ⟨d, hd, rfl⟩ := exists_digit (h c List.mem_cons_self)
    have hdigit : ∀ d < 10, Char.ofNat (48 + d) ≠ '+' ∧ (Char.ofNat (48 + d)).toLower ≠ 'h' ∧
        (Char.ofNat (48 + d)).toLower ≠ 'u' := by decide
    obtain ⟨hplus, hh, hu⟩ := hdigit d hd
    simp [quiet, hplus, hh, hu, ih fun c hc => h c (List.mem_cons_of_mem _ hc)]

lemma span_concat {α : Type*} {p : α → Bool} {a : α} (h : p a = false) (as : List α) :
    (as ++ [a]).span p = ((as.span p).1, (as.span p).2 ++ [a]) := by
  simp only [List.span_eq_takeWhile_dropWhile]
  induction as with
  | nil => simp [h]
  | cons b as ih =>
    cases hb : p b
    · simp [hb]
    · simpa [hb] using ih

/-- A quotation mark at the end is no part of a match. -/
lemma bullishHere_concat (cs : List Char) : bullishHere (cs ++ ['"']) = bullishHere cs := by
  have hword : ∀ word : List Char, '"' ∉ word →
      word.isPrefixOf ((cs ++ ['"']).map Char.toLower) = word.isPrefixOf (cs.map Char.toLower) := by
    intro word hquote
    rw [Bool.eq_iff_iff, List.isPrefixOf_iff_prefix, List.isPrefixOf_iff_prefix, List.map_append]
    refine List.prefix_concat_iff.trans (or_iff_right fun hall => hquote ?_)
    rw [hall]
    exact List.mem_append_right _ List.mem_cons_self
  have hpercent : ∀ rest : List Char,
      ((rest ++ ['"']).head? = some '%') = (rest.head? = some '%') := by
    rintro (_ | ⟨c, rest⟩) <;> simp
  simp only [bullishHere, hword _ (show '"' ∉ "higher".toList by decide),
    hword _ (show '"' ∉ "up".toList by decide)]
  congr 1
  rcases cs with _ | ⟨c, cs⟩
  · rfl
  · by_cases hc : c = '+'
    · subst hc
      simp only [List.cons_append, span_concat (show Char.isDigit '"' = false by decide), hpercent]
    · rw [List.cons_append]
      split <;> simp_all

/-! ### The forecasts -/

lemma silent_toString (n : ℕ) : Silent bullishHere (toString n).toList :=
  silent_of_quiet (quiet_of_isDigit fun _ hc => List.all_eq_true.1 (all_isDigit_toDigits n) _ (by
    simpa using hc))

lemma silent_direction (last1h last24h : ℕ) :
    Silent bullishHere (direction last1h last24h).toList := by
  have hword : ∀ word ∈ ["rising", "falling", "steady"], quiet word.toList = true := by decide
  refine silent_of_quiet (hword _ ?_)
  rw [direction]
  split_ifs <;> simp

/-- The text that is made of counts is never bullish. -/
lemma forecastText_not_bullish (last1h last24h : ℕ) :
    (forecastText last1h last24h).toList.tails.any bullishHere = false := by
  have hpercent : Silent bullishHere "% expected utilization next 24h (".toList :=
    silent_of_quiet (by decide)
  have hsemicolon : Silent bullishHere "; ".toList := silent_of_quiet (by decide)
  have hday : Silent bullishHere " events / 24h, ".toList := silent_of_quiet (by decide)
  have hhour : Silent bullishHere " / 1h)".toList := silent_of_quiet (by decide)
  have hutilization := (silent_toString (min 99 (last24h * 8))).append hpercent
  have htrend := (hutilization.append (silent_direction last1h last24h)).append hsemicolon
  have hcounts := (htrend.append (silent_toString last24h)).append hday
  rw [forecastText_eq]
  simp only [String.toList_append]
  have hnil : bullishHere [] = false := rfl
  have hall := (hcounts.append (silent_toString last1h)).append hhour
  exact any_tails_of_silent hall hnil

/-- The text of an empty log is bullish when the name of the lot is. -/
lemma noEvents_bullish (lotId : String) :
    (noEvents lotId).utilizationForecast.toList.tails.any bullishHere =
      lotId.toList.tails.any bullishHere := by
  have hfront : Silent bullishHere "no events found for source \"".toList :=
    silent_of_quiet (by decide)
  rw [noEvents_utilizationForecast, String.toList_append, String.toList_append, List.append_assoc,
    any_tails_append hfront]
  exact any_tails_concat bullishHere_concat _

lemma direction_eq_rising_iff (last1h last24h : ℕ) :
    direction last1h last24h = "rising" ↔ last24h < 24 * last1h := by
  have hcount : (last24h : ℚ) / 24 < last1h ↔ last24h < 24 * last1h := by
    rw [div_lt_iff₀ (by norm_num), mul_comm]
    exact_mod_cast Iff.rfl
  rw [direction, ← hcount]
  split_ifs <;> simp_all

/-! ### Reading the forecast of a log -/

/-- What the analyst reads in a forecast is what the server meant: that it is bullish if events
of the lot were found and they show that it is rising, and else that it is not. -/
def ReadAsMeant (lotId : String) (t : Clock) (log : List Value) (forecast : Forecast) : Prop :=
  ∃ bullish, (forecast.toValue.field "utilization_forecast" >>= signalBullish) = .ok bullish ∧
    (bullish = true ↔ windowOf lotId log ≠ [] ∧
      direction (youngOf t 3600 (windowOf lotId log)).length
        (youngOf t 86400 (windowOf lotId log)).length = "rising")

lemma signalBullish_of_forecast (forecast : Forecast) :
    (forecast.toValue.field "utilization_forecast" >>= signalBullish) =
      .ok (forecast.utilizationForecast.toList.tails.any bullishHere) := rfl

lemma readAsMeant_iff {lotId : String} {t : Clock} {log : List Value} {forecast : Forecast} :
    ReadAsMeant lotId t log forecast ↔
      (forecast.utilizationForecast.toList.tails.any bullishHere = true ↔
        (youngOf t 86400 (windowOf lotId log)).length <
          24 * (youngOf t 3600 (windowOf lotId log)).length) := by
  have hfound : (windowOf lotId log ≠ [] ∧ (youngOf t 86400 (windowOf lotId log)).length <
      24 * (youngOf t 3600 (windowOf lotId log)).length) ↔
        (youngOf t 86400 (windowOf lotId log)).length <
          24 * (youngOf t 3600 (windowOf lotId log)).length := by
    refine and_iff_right_of_imp fun hlt hempty => ?_
    rw [hempty] at hlt
    exact Nat.not_lt_zero _ hlt
  rw [ReadAsMeant, signalBullish_of_forecast]
  simp only [Except.ok.injEq, exists_eq_left', direction_eq_rising_iff, hfound]

lemma text_of_computeForecast {lotId : String} {t : Clock} {s : EventStore} {log : List Value}
    {forecast : Forecast} (hs : s.Holds t log) (hlog : ∀ e ∈ log, IsEvent e) (hne : log ≠ [])
    (hforecast : (computeForecast lotId t s).1 = .ok forecast) :
    forecast.utilizationForecast = forecastText (youngOf t 3600 (windowOf lotId log)).length
      (youngOf t 86400 (windowOf lotId log)).length := by
  rw [computeForecast_of_holds hs hlog, if_neg hne] at hforecast
  have hevents : ∀ e ∈ windowOf lotId log, IsEvent e := fun e he =>
    hlog e (List.mem_of_mem_take (List.mem_of_mem_filter he))
  cases htotal : totalMotes (windowOf lotId log) with
  | error e =>
    rw [forecastOf_eq_error htotal] at hforecast
    cases hforecast
  | ok total =>
    obtain ⟨_, hforecast', -, htext⟩ := forecastOf_eq_ok (t := t) hevents htotal
    rw [hforecast] at hforecast'
    cases hforecast'
    exact htext

/-- A forecast is read as it is meant if and only if the log is empty and the name of the lot is
not bullish, or the log is not empty and no more than a twenty-fourth of the events of the lot
in the window that are younger than a day are younger than an hour. -/
theorem forecast_read_iff {lotId : String} {t : Clock} {s : EventStore} {log : List Value}
    {forecast : Forecast} (hs : s.Holds t log) (hlog : ∀ e ∈ log, IsEvent e)
    (hforecast : (computeForecast lotId t s).1 = .ok forecast) :
    ReadAsMeant lotId t log forecast ↔
      if log = [] then lotId.toList.tails.any bullishHere = false
      else 24 * (youngOf t 3600 (windowOf lotId log)).length ≤
        (youngOf t 86400 (windowOf lotId log)).length := by
  rw [readAsMeant_iff]
  split_ifs with hempty
  · subst hempty
    rw [computeForecast_of_holds hs hlog, if_pos rfl] at hforecast
    rw [← Except.ok.inj hforecast, noEvents_bullish]
    have hnone : ¬ (youngOf t 86400 (windowOf lotId [])).length <
        24 * (youngOf t 3600 (windowOf lotId [])).length := Nat.not_lt_zero _
    rw [iff_false_right hnone, Bool.not_eq_true]
  · rw [text_of_computeForecast hs hlog hempty hforecast, forecastText_not_bullish]
    simp

lemma forecast_of_one (timestamp : ℕ) (t : Clock) : ∃ forecast,
    (computeForecast "gate" t (storeOf [eventAt "gate" timestamp])).1 = .ok forecast := by
  have hevents : ∀ e ∈ [eventAt "gate" timestamp], IsEvent e := by simp [eventAt_isEvent]
  have htotal : totalMotes [eventAt "gate" timestamp] = .ok 100 := by
    have hamount : (Value.str "100").toBigInt = .ok 100 := by decide
    show (Value.str "100").toBigInt >>= _ = _
    rw [hamount]
    rfl
  have hwindow : windowOf "gate" [eventAt "gate" timestamp] = [eventAt "gate" timestamp] := rfl
  obtain ⟨forecast, hforecast, -⟩ := forecastOf_eq_ok (t := t) hevents htotal
  refine ⟨forecast, ?_⟩
  rw [computeForecast_of_holds (storeOf_holds _ _) hevents, if_neg (List.cons_ne_nil _ _), hwindow,
    hforecast]

/-- A lot with an event of two hours ago is falling, and is not read as bullish. -/
theorem forecast_read_falling : ∃ forecast,
    (computeForecast "gate" ⟨7200000, 7200000, 7200000⟩ (storeOf [eventAt "gate" 60])).1 =
      .ok forecast ∧
        ReadAsMeant "gate" ⟨7200000, 7200000, 7200000⟩ [eventAt "gate" 60] forecast := by
  obtain ⟨forecast, hforecast⟩ := forecast_of_one 60 ⟨7200000, 7200000, 7200000⟩
  have hevents : ∀ e ∈ [eventAt "gate" 60], IsEvent e := by simp [eventAt_isEvent]
  refine ⟨forecast, hforecast, (forecast_read_iff (storeOf_holds _ _) hevents hforecast).2 ?_⟩
  decide

/-- A lot with an event of this hour is rising, and is not read as bullish either. -/
theorem rising_is_not_read :
    ¬ ∀ (lotId : String) (t : Clock) (s : EventStore) (log : List Value) (forecast : Forecast),
      s.Holds t log → (∀ e ∈ log, IsEvent e) → (computeForecast lotId t s).1 = .ok forecast →
        ReadAsMeant lotId t log forecast := by
  intro hread
  obtain ⟨forecast, hforecast⟩ := forecast_of_one 7000 ⟨7200000, 7200000, 7200000⟩
  have hevents : ∀ e ∈ [eventAt "gate" 7000], IsEvent e := by simp [eventAt_isEvent]
  have hmeant := readAsMeant_iff.1 (hread _ _ _ _ _ (storeOf_holds _ _) hevents hforecast)
  rw [text_of_computeForecast (storeOf_holds _ _) hevents (List.cons_ne_nil _ _) hforecast,
    forecastText_not_bullish] at hmeant
  have hrising : (youngOf ⟨7200000, 7200000, 7200000⟩ 86400
      (windowOf "gate" [eventAt "gate" 7000])).length <
        24 * (youngOf ⟨7200000, 7200000, 7200000⟩ 3600
          (windowOf "gate" [eventAt "gate" 7000])).length := by decide
  cases hmeant.2 hrising

end ArwaAgent.X402
