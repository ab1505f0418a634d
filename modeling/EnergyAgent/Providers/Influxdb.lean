import EnergyAgent.Lib.Quoted
import EnergyAgent.Lib.Blanks
import Mathlib.Data.Rat.Floor

/-!
# The Flux texts of `InfluxTimeseriesProvider`

`providers/influxdb.py`, the texts that `query` and `query_points` send, and how Flux reads the
literals in them. What the client answers and how it is summarised is left out.
-/

namespace EnergyAgent.Providers

open EnergyAgent.Lib

/-! ## The texts -/

/-- The arguments of `query` and `query_points`. -/
structure TimeseriesQuery where
  deviceId : String
  metrics : List String
  startTime : String
  endTime : String
  maxPoints : Int
  measurements : Option (List String)

/-- `TIMESERIES_MEASUREMENT_INVALID`, and the `ValueError` of `datetime.fromisoformat`. -/
inductive FluxError
  | measurementInvalid
  | timeInvalid
  deriving DecidableEq, Repr

structure InfluxTimeseriesProvider where
  bucket : String
  /-- The seconds between two ISO times. -/
  totalSeconds : String → String → Except FluxError Rat

def allowedMeasurements : List String :=
  ["pcs_metrics", "fan_metrics", "environment_metrics", "inverter_metrics"]

/-- `measurements or ["pcs_metrics"]` -/
def TimeseriesQuery.selectedMeasurements (q : TimeseriesQuery) : List String :=
  match q.measurements with
  | some (measurement :: rest) => measurement :: rest
  | _ => ["pcs_metrics"]

def TimeseriesQuery.checkMeasurements (q : TimeseriesQuery) : Except FluxError Unit :=
  if ∀ measurement ∈ q.selectedMeasurements, measurement ∈ allowedMeasurements then .ok ()
  else .error .measurementInvalid

def quoted (text : String) : String := "\"" ++ text ++ "\""

/-- `device_id.replace('"', '\\"')` -/
def escapedDevice (deviceId : String) : String :=
  String.ofList (Quoted.escapeQuotes deviceId.toList)

/-- `metric.replace(chr(34), "")` -/
def withoutQuotes (metric : String) : String :=
  String.ofList (metric.toList.filter (· ≠ '"'))

def metricTest (metric : String) : String := "r.metric_name == " ++ quoted (withoutQuotes metric)

def metricFilter (metrics : List String) : String := Text.join " or " (metrics.map metricTest)

def measurementFilter (measurements : List String) : String :=
  Text.join " or " (measurements.map fun measurement => "r._measurement == " ++ quoted measurement)

section text

variable (bucket : String) (q : TimeseriesQuery)

/-- The text up to the literal of the device. -/
def beforeDevice : String :=
  "from(bucket: " ++ quoted bucket ++ ")" ++
    " |> range(start: " ++ q.startTime ++ ", stop: " ++ q.endTime ++ ")" ++
    " |> filter(fn: (r) => " ++ measurementFilter q.selectedMeasurements ++ ")" ++
    " |> filter(fn: (r) => r.device_id == "

/-- The text between the literal of the device and the tests of the metrics. -/
def beforeMetrics : String := ")" ++ " |> filter(fn: (r) => "

/-- The text behind the tests of the metrics. -/
def afterMetrics (clauses : String) : String :=
  ")" ++ " |> filter(fn: (r) => r._field == \"value\")" ++ clauses

/-- The text both functions send; they differ in the last clauses. -/
def fluxText (clauses : String) : String :=
  beforeDevice bucket q ++ quoted (escapedDevice q.deviceId) ++
    (beforeMetrics ++ metricFilter q.metrics ++ afterMetrics clauses)

end text

def TimeseriesQuery.limitClause (q : TimeseriesQuery) : String :=
  " |> limit(n: " ++ toString q.maxPoints ++ ")"

/-- `query` -/
def query (provider : InfluxTimeseriesProvider) (q : TimeseriesQuery) : Except FluxError String := do
  q.checkMeasurements
  return fluxText provider.bucket q q.limitClause

/-- The width of the windows that `query_points` aggregates over, in seconds. -/
def TimeseriesQuery.window (q : TimeseriesQuery) (totalSeconds : Rat) : Int :=
  let perSeries := max 1 (q.maxPoints / max 1 (q.metrics.length : Int))
  max 1 ⌊totalSeconds / perSeries⌋

/-- `query_points` -/
def queryPoints (provider : InfluxTimeseriesProvider) (q : TimeseriesQuery) :
    Except FluxError String := do
  q.checkMeasurements
  let seconds ← provider.totalSeconds q.startTime q.endTime
  return fluxText provider.bucket q
    (" |> aggregateWindow(every: " ++ toString (q.window seconds) ++ "s, fn: mean, createEmpty: false)" ++
      q.limitClause)

/-! ## What the literals denote -/

/-- The literal written behind `before` denotes the value and ends at the quote written for it. -/
def Denotes (rules : Quoted.Rules) (text before literal value : String) : Prop :=
  ∃ after, text = before ++ quoted literal ++ after ∧
    Quoted.read rules (literal ++ "\"" ++ after).toList = some (value.toList, after.toList)

/-- The text up to the literal of the metric that comes after `metrics`. -/
def beforeMetric (bucket : String) (q : TimeseriesQuery) (metrics : List String) : String :=
  beforeDevice bucket q ++ quoted (escapedDevice q.deviceId) ++ beforeMetrics ++
    String.join (metrics.map fun metric => metricTest metric ++ " or ") ++ "r.metric_name == "

/-- Each literal that an argument is written into denotes that argument. -/
structure LiteralsDenote (rules : Quoted.Rules) (bucket : String) (q : TimeseriesQuery)
    (text : String) : Prop where
  device : Denotes rules text (beforeDevice bucket q) (escapedDevice q.deviceId) q.deviceId
  metric : ∀ metrics metric rest, q.metrics = metrics ++ metric :: rest →
    Denotes rules text (beforeMetric bucket q metrics) (withoutQuotes metric) (withoutQuotes metric)

section denotes

variable {rules : Quoted.Rules} {bucket clauses : String} {q : TimeseriesQuery}

theorem denotes_iff_read {text before literal after value : String}
    (h : text = before ++ quoted literal ++ after) : Denotes rules text before literal value ↔
      Quoted.read rules (literal.toList ++ '"' :: after.toList) = some (value.toList, after.toList) := by
  have hread : (literal ++ "\"" ++ after).toList = literal.toList ++ '"' :: after.toList := by
    simp only [String.toList_append, List.append_assoc]
    rfl
  constructor
  · rintro ⟨after', htext, h'⟩
    have hafter : after' = after := by
      rw [h] at htext
      exact (String.append_right_inj _).mp htext.symm
    rw [hafter, hread] at h'
    exact h'
  · intro h'
    exact ⟨after, h, by rw [hread]; exact h'⟩

theorem device_denotes_iff : Denotes rules (fluxText bucket q clauses) (beforeDevice bucket q)
    (escapedDevice q.deviceId) q.deviceId ↔ Quoted.Plain rules q.deviceId.toList := by
  have htext : fluxText bucket q clauses = beforeDevice bucket q ++ quoted (escapedDevice q.deviceId) ++
      (beforeMetrics ++ metricFilter q.metrics ++ afterMetrics clauses) := rfl
  rw [denotes_iff_read htext]
  unfold escapedDevice
  rw [String.toList_ofList]
  exact Quoted.read_escapeQuotes_iff rules

theorem metric_denotes_iff {metrics rest : List String} {metric : String}
    (h : q.metrics = metrics ++ metric :: rest) :
    Denotes rules (fluxText bucket q clauses) (beforeMetric bucket q metrics) (withoutQuotes metric)
      (withoutQuotes metric) ↔ Quoted.Plain rules (withoutQuotes metric).toList := by
  have hfilter : metricFilter q.metrics =
      String.join (metrics.map fun metric => metricTest metric ++ " or ") ++ metricTest metric ++
        String.join (rest.map fun metric => " or " ++ metricTest metric) := by
    unfold metricFilter
    rw [h, List.map_append, List.map_cons, Text.join_split, List.map_map, List.map_map]
    rfl
  have htext : fluxText bucket q clauses = beforeMetric bucket q metrics ++
      quoted (withoutQuotes metric) ++ (String.join (rest.map fun metric => " or " ++ metricTest metric)
        ++ afterMetrics clauses) := by
    unfold fluxText beforeMetric
    rw [hfilter]
    unfold metricTest
    simp only [String.append_assoc]
  have hquotes : '"' ∉ (withoutQuotes metric).toList := by
    unfold withoutQuotes
    simp
  rw [denotes_iff_read htext]
  have hiff := @Quoted.read_escapeQuotes_iff rules (withoutQuotes metric).toList
  rw [Quoted.escapeQuotes_eq_self hquotes] at hiff
  exact hiff

/-- What was sent is the text with some last clauses. -/
theorem eq_fluxText {provider : InfluxTimeseriesProvider} {text : String}
    (h : query provider q = .ok text ∨ queryPoints provider q = .ok text) :
    ∃ clauses, text = fluxText provider.bucket q clauses := by
  rcases h with h | h
  · unfold query at h
    cases hcheck : q.checkMeasurements with
    | error e => rw [hcheck] at h; cases h
    | ok u =>
        rw [hcheck] at h
        cases h
        exact ⟨_, rfl⟩
  · unfold queryPoints at h
    cases hcheck : q.checkMeasurements with
    | error e => rw [hcheck] at h; cases h
    | ok u =>
        rw [hcheck] at h
        cases hseconds : provider.totalSeconds q.startTime q.endTime with
        | error e => rw [hseconds] at h; cases h
        | ok seconds =>
            rw [hseconds] at h
            cases h
            exact ⟨_, rfl⟩

/-- **The literals of a sent text denote the arguments** exactly where the device id, and each metric
once its quotes are removed, can be written into a literal as they are. -/
theorem literalsDenote_iff {provider : InfluxTimeseriesProvider} {text : String}
    (h : query provider q = .ok text ∨ queryPoints provider q = .ok text) :
    LiteralsDenote rules provider.bucket q text ↔ Quoted.Plain rules q.deviceId.toList ∧
      ∀ metric ∈ q.metrics, Quoted.Plain rules (withoutQuotes metric).toList := by
  obtain ⟨clauses, rfl⟩ := eq_fluxText h
  constructor
  · intro hdenote
    refine ⟨device_denotes_iff.mp hdenote.device, fun metric hmetric => ?_⟩
    obtain ⟨metrics, rest, hsplit⟩ := List.append_of_mem hmetric
    exact (metric_denotes_iff hsplit).mp (hdenote.metric metrics metric rest hsplit)
  · rintro ⟨hdevice, hmetrics⟩
    refine ⟨device_denotes_iff.mpr hdevice, fun metrics metric rest hsplit => ?_⟩
    have hmetric : metric ∈ q.metrics := by
      rw [hsplit]
      exact List.mem_append_right _ (List.mem_cons_self ..)
    exact (metric_denotes_iff hsplit).mpr (hmetrics metric hmetric)

end denotes

/-- A backslash before any character stands for that character. -/
def backslashRules : Quoted.Rules where
  escaped := some
  escaped_quote := rfl
  interpolation := false

def sampleProvider : InfluxTimeseriesProvider where
  bucket := "energy"
  totalSeconds := fun _ _ => .ok 3600

def sampleQuery (deviceId : String) : TimeseriesQuery where
  deviceId := deviceId
  metrics := ["temperature"]
  startTime := "2026-01-01T00:00:00+00:00"
  endTime := "2026-01-01T01:00:00+00:00"
  maxPoints := 500
  measurements := none

theorem plain_device_denotes : LiteralsDenote backslashRules "energy" (sampleQuery "INV-\"1\"")
    (fluxText "energy" (sampleQuery "INV-\"1\"") (sampleQuery "INV-\"1\"").limitClause) :=
  (@literalsDenote_iff backslashRules (sampleQuery "INV-\"1\"") sampleProvider _ (Or.inl rfl)).mpr
    ⟨by decide, by decide⟩

/-- A device id that ends with a backslash takes the closing quote into the literal. -/
theorem backslash_device_differs : ¬ ∀ rules provider q text,
    query provider q = .ok text ∨ queryPoints provider q = .ok text →
      LiteralsDenote rules provider.bucket q text := by
  intro hall
  have hdenote := hall backslashRules sampleProvider (sampleQuery "INV-1\\") _ (Or.inl rfl)
  have hplain := device_denotes_iff.mp hdenote.device
  revert hplain
  decide

end EnergyAgent.Providers
