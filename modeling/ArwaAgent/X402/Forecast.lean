import ArwaAgent.Js.Value

/-!
# The forecast

What the server sells is a forecast for a parking lot, computed from a log of revenue
events.  The simulator writes the log to a file, newest first; the server reads it through a
cache of five seconds, and looks at the first fifty events.
-/

namespace ArwaAgent.X402

open Js

/-- The cache of a process, and the parsed content of the log file or what reading it throws. -/
structure EventStore where
  cachedBlock : Option (ℕ × Value)
  file : Option (Except Error Value)

/-- The readings of the clock during a call, in milliseconds. -/
structure Clock where
  checked : ℕ
  cached : ℕ
  now : ℕ

/-- `events.slice(0, limit)` -/
def sliceEvents (limit : ℕ) : Value → Except Error Value
  | .arr events => .ok (.arr (events.take limit))
  | .str s => .ok (.str (String.ofList (slice16 limit s.toList)))
  | v => do
    let _ ← v.field "slice"
    .error ⟨"cachedBlock.events.slice is not a function"⟩

/-- The first events of the log, and the store with what has been cached. -/
def getRecentEventsDirect (limit : ℕ) (t : Clock) (s : EventStore) :
    Except Error Value × EventStore :=
  match s.cachedBlock.filter fun c => (t.checked : ℤ) - c.1 < 5000 with
  | some (_, events) => (sliceEvents limit events, s)
  | none =>
    match s.file with
    | some (.ok events) =>
      -- what the cut throws is caught, but only after the cache has been set
      (.ok ((sliceEvents limit events).toOption.getD (.arr [])),
        { s with cachedBlock := some (t.cached, events) })
    | _ => (.ok (.arr []), s)

/-- A new event goes to the front of the log, which is cut at 200; a log that cannot be read is
left as it is. -/
def recordEventLocal (now : ℕ) (ev : Value) (s : EventStore) : EventStore :=
  match s.file.getD (.ok (.arr [])) with
  | .ok (.arr arr) =>
    let arr := (ev :: arr).take 200
    { cachedBlock := some (now, .arr arr), file := some (.ok (.arr arr)) }
  | _ => s

/-- `String(e.source ?? '') === lotId` -/
def isFrom (lotId : String) (e : Value) : Except Error Bool := do
  return (← ((← e.field "source").orElse (.str "")).toStr) = lotId

/-- `Number(e.timestamp ?? 0) > seconds` -/
def isAfter (seconds : ℤ) (e : Value) : Except Error Bool := do
  return (Number.finite seconds).lt
    (← ((← e.field "timestamp").orElse (.num (.finite 0))).toNumber)

/-- `events.filter(p)` for a test that may throw. -/
def filterEvents (p : Value → Except Error Bool) : List Value → Except Error (List Value)
  | [] => .ok []
  | e :: events => do
    if ← p e then return e :: (← filterEvents p events)
    else filterEvents p events

/-- The sum of the amounts. -/
def totalMotes (events : List Value) : Except Error ℤ :=
  events.foldlM (fun s e => do
    return s + (← ((← e.field "amount").orElse (.num (.finite 0))).toBigInt)) 0

/-- A forecast. -/
structure Forecast where
  utilizationForecast : String
  confidence : ℕ
  sourceCount : ℕ
  last24hCount : ℕ
  totalRevenueMotes : String
  model : String
  validForSeconds : ℕ

/-- The forecast that says that there are no events. -/
def noEvents (lotId : String) : Forecast where
  utilizationForecast := s!"no events found for source \"{lotId}\""
  confidence := 50
  sourceCount := 0
  last24hCount := 0
  totalRevenueMotes := "0"
  model := "ARWA-v1-aggregate"
  validForSeconds := 300

@[simp] lemma noEvents_utilizationForecast (lotId : String) :
    (noEvents lotId).utilizationForecast = "no events found for source \"" ++ lotId ++ "\"" := rfl

/-- The direction that the counts of the last hour and of the last day show. -/
def direction (last1h last24h : ℕ) : String :=
  let trend := if (last24h : ℚ) / 24 < last1h then '+' else if last1h = 0 then '-' else '~'
  if trend = '+' then "rising" else if trend = '-' then "falling" else "steady"

/-- The text of a forecast. -/
def forecastText (last1h last24h : ℕ) : String :=
  let baseline := min 99 (last24h * 8)
  s!"{baseline}% expected utilization next 24h ({direction last1h last24h}; {last24h} events / 24h, {last1h} / 1h)"

lemma forecastText_eq (last1h last24h : ℕ) : forecastText last1h last24h =
    toString (min 99 (last24h * 8)) ++ "% expected utilization next 24h (" ++
      direction last1h last24h ++ "; " ++ toString last24h ++ " events / 24h, " ++
      toString last1h ++ " / 1h)" := rfl

/-- The forecast from the events of a lot. -/
def forecastOf (matching : List Value) (t : Clock) : Except Error Forecast := do
  let total ← totalMotes matching
  let nowSec : ℤ := t.now / 1000
  let last24h ← filterEvents (isAfter (nowSec - 86400)) matching
  let last1h ← filterEvents (isAfter (nowSec - 3600)) matching
  return {
    utilizationForecast := forecastText last1h.length last24h.length
    confidence := min 95 (50 + matching.length / 2 + if 0 < last1h.length then 5 else 0)
    sourceCount := matching.length
    last24hCount := last24h.length
    totalRevenueMotes := toString total
    model := "ARWA-v1-aggregate"
    validForSeconds := 300 }

/-- The forecast for a lot. -/
def computeForecast (lotId : String) (t : Clock) (s : EventStore) :
    Except Error Forecast × EventStore :=
  let (events, s) := getRecentEventsDirect 50 t s
  (do
    match ← events with
    | .arr (e :: events) =>
      let matching ← filterEvents (isFrom lotId) (e :: events)
      forecastOf matching t
    | _ => return noEvents lotId, s)

/-- The forecast as it is sent. -/
def Forecast.toValue (forecast : Forecast) : Value :=
  .obj [("utilization_forecast", .str forecast.utilizationForecast),
    ("confidence", .num (.finite forecast.confidence)),
    ("source_count", .num (.finite forecast.sourceCount)),
    ("last_24h_count", .num (.finite forecast.last24hCount)),
    ("total_revenue_motes", .str forecast.totalRevenueMotes),
    ("model", .str forecast.model),
    ("valid_for_seconds", .num (.finite forecast.validForSeconds))]

end ArwaAgent.X402
