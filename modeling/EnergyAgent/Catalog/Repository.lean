import EnergyAgent.Catalog.Cursors
import EnergyAgent.Lib.Keyset
import EnergyAgent.Lib.Text
import Mathlib.Algebra.Order.Group.Int
import Mathlib.Data.Prod.Lex

/-!
# `CatalogRepository`

The lists of alarms and sessions, page by page. The database compares texts by a key of its own
(`Collation`), which two texts that it takes for the same share.
-/

namespace EnergyAgent.Catalog

open EnergyAgent.Lib

instance : LinearOrder Time := LinearOrder.lift' Time.stamp fun _ _ => Time.stamp_inj

/-- How the database compares texts. -/
structure Collation (κ : Type) where
  key : String → κ
  like : String → String → Bool

/-! ## Conditions -/

section conditions

variable {κ : Type} [LinearOrder κ] (collation : Collation κ)

def Collation.same (s t : String) : Bool := collation.key s = collation.key t

/-- `column == value`, which a `NULL` does not satisfy. -/
def equals (column : Option String) (value : String) : Bool :=
  column.any fun c => collation.same c value

/-- The condition of a filter that `if filters.get(name)` lets through. -/
def whereEqual (column value : Option String) : Bool :=
  (Text.truthy value).all (equals collation column)

def whereFrom (column : Time) (value : Option Datetime) : Bool :=
  value.all fun d => queryDatetime d ≤ column

def whereTo (column : Time) (value : Option Datetime) : Bool :=
  value.all fun d => column ≤ queryDatetime d

/-- `f"%{q}%"` against the columns. -/
def whereLike (columns : List (Option String)) (q : Option String) : Bool :=
  let q := Text.strip ((Text.truthy q).getD "")
  q = "" || columns.any fun column => column.any fun c => collation.like c ("%" ++ q ++ "%")

/-- `time < at` or `time > at` -/
def beyond (descending : Bool) (time at_ : Time) : Bool :=
  if descending then time < at_ else at_ < time

/-- The rows behind a cursor. -/
def whereBehind (descending : Bool) (time : Time) (id : String) (after : Option (Time × String)) :
    Bool :=
  after.all fun (at_, after) =>
    beyond descending time at_ || (time = at_ && collation.key after < collation.key id)

/-- `ORDER BY time DESC, id` or `ORDER BY time ASC, id` -/
def sortKey (descending : Bool) (m : Time × String) : Lex (Int × κ) :=
  toLex (if descending then -(m.1.stamp : Int) else m.1.stamp, collation.key m.2)

/-- The order of the list: by time, and by id at the same time. -/
def Precedes (descending : Bool) (m m' : Time × String) : Prop :=
  beyond descending m'.1 m.1 ∨ m.1 = m'.1 ∧ collation.key m.2 < collation.key m'.2

theorem sortKey_lt {descending : Bool} {m m' : Time × String} :
    sortKey collation descending m < sortKey collation descending m' ↔
      Precedes collation descending m m' := by
  have hlt : ∀ t t' : Time, t < t' ↔ t.stamp < t'.stamp := fun _ _ => Iff.rfl
  have heq : m.1 = m'.1 ↔ m.1.stamp = m'.1.stamp := ⟨congrArg _, Time.stamp_inj⟩
  rw [sortKey, sortKey, Prod.Lex.toLex_lt_toLex, Precedes, heq]
  cases descending
  · simp only [beyond, Bool.false_eq_true, if_false, decide_eq_true_iff, hlt, Nat.cast_lt,
      Nat.cast_inj]
  · simp only [beyond, if_true, decide_eq_true_iff, hlt, neg_lt_neg_iff, neg_inj, Nat.cast_lt,
      Nat.cast_inj]

omit [LinearOrder κ] in
theorem sortKey_inj {descending : Bool} {m m' : Time × String}
    (h : sortKey collation descending m = sortKey collation descending m') :
    collation.key m.2 = collation.key m'.2 :=
  congrArg (fun x : Lex (Int × κ) => (ofLex x).2) h

/-- The cursor asks for what follows it in the order. -/
theorem whereBehind_iff (descending : Bool) (time : Time) (id : String)
    (after : Option (Time × String)) :
    whereBehind collation descending time id after = true ↔
      ∀ m ∈ after, sortKey collation descending m < sortKey collation descending (time, id) := by
  cases after with
  | none => simp [whereBehind]
  | some m =>
      have hwhere : whereBehind collation descending time id (some m) = true ↔
          Precedes collation descending m (time, id) := by
        rw [whereBehind, Option.all_some, Bool.or_eq_true, Bool.and_eq_true, decide_eq_true_iff,
          decide_eq_true_iff, Precedes, @eq_comm _ time]
      rw [hwhere, ← sortKey_lt]
      exact ⟨fun h m' hm => Option.some.inj hm ▸ h, fun h => h m rfl⟩

end conditions

/-! ## Alarms -/

structure DeviceProfileModel where
  deviceId : String
  deviceType : String
  deriving DecidableEq, Repr

structure AlarmEventModel where
  alarmId : String
  deviceId : String
  siteId : String
  alarmName : String
  alarmLevel : String
  triggerTime : Time
  status : String
  sourceSystem : String
  deriving DecidableEq

structure AlarmRecord where
  alarmId : String
  deviceId : String
  siteId : String
  deviceType : String
  alarmName : String
  alarmLevel : String
  triggerTime : Time
  status : String
  sourceSystem : String
  deriving DecidableEq

/-- What `/alarms` can filter by. -/
structure AlarmFilters where
  siteId : Option String := none
  deviceId : Option String := none
  alarmLevel : Option String := none
  status : Option String := none
  sourceSystem : Option String := none
  fromTime : Option Datetime := none
  toTime : Option Datetime := none
  q : Option String := none
  supported : Option Bool := none
  templateId : Option String := none

section alarms

variable {κ : Type} [LinearOrder κ] (collation : Collation κ)
  (other : List Char → Option Datetime)

/-- Each alarm with the type of its device; an alarm of an unknown device is not listed. -/
def joined (devices : List DeviceProfileModel) (alarms : List AlarmEventModel) :
    List (AlarmEventModel × String) :=
  alarms.flatMap fun a => (devices.filter fun d => collation.same d.deviceId a.deviceId).map
    fun d => (a, d.deviceType)

def AlarmFilters.matches (filters : AlarmFilters) (a : AlarmEventModel) : Bool :=
  whereEqual collation (some a.siteId) filters.siteId &&
    whereEqual collation (some a.deviceId) filters.deviceId &&
    whereEqual collation (some a.alarmLevel) filters.alarmLevel &&
    whereEqual collation (some a.status) filters.status &&
    whereEqual collation (some a.sourceSystem) filters.sourceSystem &&
    whereFrom a.triggerTime filters.fromTime && whereTo a.triggerTime filters.toTime &&
    whereLike collation [some a.alarmId, some a.alarmName] filters.q

def alarmRecord (row : AlarmEventModel × String) : AlarmRecord where
  alarmId := row.1.alarmId
  deviceId := row.1.deviceId
  siteId := row.1.siteId
  deviceType := row.2
  alarmName := row.1.alarmName
  alarmLevel := row.1.alarmLevel
  triggerTime := ensureUtc (.naive row.1.triggerTime)
  status := row.1.status
  sourceSystem := row.1.sourceSystem

/-- `alarms` of the repository. -/
def listAlarms (devices : List DeviceProfileModel) (alarms : List AlarmEventModel)
    (filters : AlarmFilters) (limit : Nat) (cursor : Option String) :
    Except CatalogError (List AlarmRecord × Option String) := do
  let after ← readCursor other cursor
  let rows := (joined collation devices alarms).filter fun row =>
    filters.matches collation row.1 && whereBehind collation true row.1.triggerTime row.1.alarmId after
  let found := (Keyset.orderBy (fun row => sortKey collation true (row.1.triggerTime, row.1.alarmId))
    rows).take (limit + 1)
  let hasMore := limit < found.length
  let mapped := (found.take limit).map alarmRecord
  pure (mapped, if hasMore then
    mapped.getLast?.map fun last => rowCursor last.triggerTime last.alarmId else none)

end alarms

/-! ## Sessions -/

structure DiagnosisSessionModel where
  id : String
  source : String
  siteId : Option String
  deviceId : Option String
  alarmId : Option String
  alarmName : Option String
  phase : String
  finalSummary : Option String
  riskLevel : String
  traceId : String
  runId : String
  createdBy : Option String
  latestReviewStatus : Option String
  createdAt : Time
  updatedAt : Time
  deriving DecidableEq

/-- The columns of `diagnosis_run` that the list shows. -/
structure DiagnosisRunModel where
  id : String
  diagnosisTemplateId : Option String
  diagnosisTemplateVersion : Option String
  alarmCategory : Option String
  guardrailStatus : Option String
  failureCategory : Option String
  deriving DecidableEq, Repr

structure DiagnosisSessionItem where
  sessionId : String
  runId : String
  source : String
  siteId : Option String
  deviceId : Option String
  alarmId : Option String
  alarmName : Option String
  phase : String
  riskLevel : String
  traceId : String
  createdBy : Option String
  latestReviewStatus : Option String
  finalSummary : Option String
  diagnosisTemplateId : Option String
  diagnosisTemplateVersion : Option String
  alarmCategory : Option String
  guardrailStatus : Option String
  failureCategory : Option String
  createdAt : Time
  updatedAt : Time
  deriving DecidableEq

structure SessionFilters where
  phase : Option String := none
  source : Option String := none
  siteId : Option String := none
  deviceId : Option String := none
  alarmId : Option String := none
  createdBy : Option String := none
  latestReviewStatus : Option String := none
  riskLevel : Option String := none
  fromTime : Option Datetime := none
  toTime : Option Datetime := none
  q : Option String := none

/-- The tables that the list of sessions reads. -/
structure SessionTables where
  sessions : List DiagnosisSessionModel
  runs : List DiagnosisRunModel

section sessions

variable {κ : Type} [LinearOrder κ] (collation : Collation κ)
  (other : List Char → Option Datetime)

/-- What a `LEFT OUTER JOIN` puts beside a row. -/
def orNull {α : Type} : List α → List (Option α)
  | [] => [none]
  | rows => rows.map some

/-- Each session with its run, or with none. -/
def SessionTables.rows (tables : SessionTables) :
    List (DiagnosisSessionModel × Option DiagnosisRunModel) :=
  tables.sessions.flatMap fun s =>
    (orNull (tables.runs.filter fun r => collation.same r.id s.runId)).map fun r => (s, r)

def SessionFilters.matches (filters : SessionFilters) (s : DiagnosisSessionModel) : Bool :=
  whereEqual collation (some s.phase) filters.phase &&
    whereEqual collation (some s.source) filters.source &&
    whereEqual collation s.siteId filters.siteId &&
    whereEqual collation s.deviceId filters.deviceId &&
    whereEqual collation s.alarmId filters.alarmId &&
    whereEqual collation s.createdBy filters.createdBy &&
    whereEqual collation s.latestReviewStatus filters.latestReviewStatus &&
    whereEqual collation (some s.riskLevel) filters.riskLevel &&
    whereFrom s.createdAt filters.fromTime && whereTo s.createdAt filters.toTime &&
    whereLike collation [some s.id, s.deviceId, s.alarmName, s.finalSummary] filters.q

def sessionItem (row : DiagnosisSessionModel × Option DiagnosisRunModel) :
    DiagnosisSessionItem where
  sessionId := row.1.id
  runId := row.1.runId
  source := row.1.source
  siteId := row.1.siteId
  deviceId := row.1.deviceId
  alarmId := row.1.alarmId
  alarmName := row.1.alarmName
  phase := row.1.phase
  riskLevel := row.1.riskLevel
  traceId := row.1.traceId
  createdBy := row.1.createdBy
  latestReviewStatus := row.1.latestReviewStatus
  finalSummary := row.1.finalSummary
  diagnosisTemplateId := row.2.bind (·.diagnosisTemplateId)
  diagnosisTemplateVersion := row.2.bind (·.diagnosisTemplateVersion)
  alarmCategory := row.2.bind (·.alarmCategory)
  guardrailStatus := row.2.bind (·.guardrailStatus)
  failureCategory := row.2.bind (·.failureCategory)
  createdAt := ensureUtc (.naive row.1.createdAt)
  updatedAt := ensureUtc (.naive row.1.updatedAt)

/-- `sessions` -/
def listSessions (tables : SessionTables) (filters : SessionFilters) (limit : Nat)
    (cursor : Option String) : Except CatalogError (List DiagnosisSessionItem × Option String) := do
  let after ← readCursor other cursor
  let rows := (tables.rows collation).filter fun row =>
    filters.matches collation row.1 && whereBehind collation true row.1.updatedAt row.1.id after
  let found := (Keyset.orderBy (fun row => sortKey collation true (row.1.updatedAt, row.1.id))
    rows).take (limit + 1)
  let hasMore := limit < found.length
  let items := (found.take limit).map sessionItem
  pure (items, if hasMore then
    items.getLast?.map fun last => rowCursor last.updatedAt last.sessionId else none)

end sessions

/-! ## Joins -/

section joins

variable {κ : Type} [LinearOrder κ] {collation : Collation κ}

/-- At most one row has an id. -/
theorem length_filter_same {α : Type} {id : α → String} {rows : List α}
    (h : (rows.map fun r => collation.key (id r)).Nodup) (s : String) :
    (rows.filter fun r => collation.same (id r) s).length ≤ 1 := by
  have hne : (rows.filter fun r => collation.same (id r) s).Pairwise
      fun a b => collation.key (id a) ≠ collation.key (id b) :=
    (List.pairwise_map.mp h).filter _
  cases hrows : rows.filter fun r => collation.same (id r) s with
  | nil => exact Nat.zero_le 1
  | cons a rest =>
      cases rest with
      | nil => exact le_rfl
      | cons b rest =>
          have hkey : ∀ r ∈ a :: b :: rest, collation.key (id r) = collation.key s := by
            intro r hr
            rw [← hrows] at hr
            exact of_decide_eq_true (List.mem_filter.mp hr).2
          rw [hrows] at hne
          refine absurd ?_ (List.rel_of_pairwise_cons hne (List.mem_cons_self ..))
          rw [hkey a (by simp), hkey b (by simp)]

/-- No alarm is listed twice. -/
theorem joined_sublist {devices : List DeviceProfileModel}
    (h : (devices.map fun d => collation.key d.deviceId).Nodup) (alarms : List AlarmEventModel) :
    ((joined collation devices alarms).map Prod.fst).Sublist alarms := by
  induction alarms with
  | nil => exact .slnil
  | cons a alarms ih =>
      have hone := length_filter_same h a.deviceId
      have hfirst : (((devices.filter fun d => collation.same d.deviceId a.deviceId).map
          fun d => (a, d.deviceType)).map Prod.fst).Sublist [a] := by
        generalize devices.filter (fun d => collation.same d.deviceId a.deviceId) = found at hone ⊢
        match found, hone with
        | [], _ => exact List.nil_sublist _
        | [_], _ => exact .refl _
      rw [joined, List.flatMap_cons, List.map_append]
      exact hfirst.append ih

/-- Every session is listed once. -/
theorem rows_fst {tables : SessionTables}
    (h : (tables.runs.map fun r => collation.key r.id).Nodup) :
    (tables.rows collation).map Prod.fst = tables.sessions := by
  have hone : ∀ s : DiagnosisSessionModel,
      ((orNull (tables.runs.filter fun r => collation.same r.id s.runId)).map
        fun r => (s, r)).map Prod.fst = [s] := by
    intro s
    have hle := length_filter_same h s.runId
    generalize tables.runs.filter (fun r => collation.same r.id s.runId) = found at hle ⊢
    match found, hle with
    | [], _ => rfl
    | [_], _ => rfl
  rw [SessionTables.rows, List.map_flatMap]
  simp only [hone]
  exact List.flatMap_singleton' _

end joins

end EnergyAgent.Catalog
