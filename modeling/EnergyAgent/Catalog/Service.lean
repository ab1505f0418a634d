import EnergyAgent.Catalog.Pages
import EnergyAgent.Agent.Templates
import Mathlib.Data.List.Lex

/-!
# `CatalogService.alarms`

The repository's pages are filtered by what the templates say of an alarm, until there are more
alarms than the limit or no further page.
-/

namespace EnergyAgent.Catalog

open EnergyAgent.Lib
open EnergyAgent.Agent

structure AlarmItem where
  alarmId : String
  deviceId : String
  siteId : String
  alarmName : String
  alarmLevel : String
  triggerTime : Time
  status : String
  sourceSystem : String
  alarmCategory : Option String
  supported : Bool
  templateId : Option String
  templateVersion : Option String
  deriving DecidableEq

structure AlarmListResponse where
  items : List AlarmItem
  nextCursor : Option String
  hasMore : Bool

section service

variable (registry : TemplateRegistry) (lower : String → String)

/-- `alarm_support`: category, id and version of the template. -/
def alarmSupport (deviceType : Option String) (alarmName : String) :
    Option String × Option String × Option String :=
  match registry.route lower deviceType (some alarmName) none none with
  | .error _ => (none, none, none)
  | .ok (template, _) =>
      (some template.alarmCategory, some template.templateId, some template.templateVersion)

/-- `map_alarm` -/
def mapAlarm (record : AlarmRecord) : AlarmItem :=
  let support := alarmSupport registry lower (some record.deviceType) record.alarmName
  { alarmId := record.alarmId
    deviceId := record.deviceId
    siteId := record.siteId
    alarmName := record.alarmName
    alarmLevel := record.alarmLevel
    triggerTime := record.triggerTime
    status := record.status
    sourceSystem := record.sourceSystem
    alarmCategory := support.1
    supported := support.2.1.isSome
    templateId := support.2.1
    templateVersion := support.2.2 }

/-- The two filters that `alarms` applies itself. -/
def AlarmFilters.keeps (filters : AlarmFilters) (item : AlarmItem) : Bool :=
  filters.supported.all (fun supported => item.supported = supported) &&
    (Text.truthy filters.templateId).all fun templateId => item.templateId = some templateId

/-- The `for` loop over a batch, which ends behind the first item above the limit. -/
def collect (filters : AlarmFilters) (limit : Nat) (items : List AlarmItem) :
    List AlarmRecord → List AlarmItem
  | [] => items
  | record :: records =>
      let item := mapAlarm registry lower record
      if filters.keeps item then
        if limit < (items ++ [item]).length then items ++ [item]
        else collect filters limit (items ++ [item]) records
      else collect filters limit items records

/-- The `while` loop, for as many batches as `fuel` allows. -/
def scan (batch : Option String → Except CatalogError (List AlarmRecord × Option String))
    (filters : AlarmFilters) (limit : Nat) :
    Nat → List AlarmItem → Option String → Except CatalogError (List AlarmItem)
  | 0, _, _ => .error .unfinished
  | fuel + 1, items, batchCursor =>
      if limit < items.length then .ok items
      else do
        let (records, pageCursor) ← batch batchCursor
        let items := collect registry lower filters limit items records
        if limit < items.length then pure items
        else match Text.truthy pageCursor with
          | none => pure items
          | some next => scan batch filters limit fuel items (some next)

variable {κ : Type} [LinearOrder κ] (collation : Collation κ) (other : List Char → Option Datetime)

/-- `alarms` -/
def alarms (devices : List DeviceProfileModel) (table : List AlarmEventModel) (fuel : Nat)
    (filters : AlarmFilters) (limit : Nat) (cursor : Option String) :
    Except CatalogError AlarmListResponse := do
  let queryFilters := { filters with supported := none, templateId := none }
  let found ← scan registry lower
    (listAlarms collation other devices table queryFilters (max 100 (limit * 2))) filters limit fuel
    [] cursor
  let hasMore := limit < found.length
  let items := found.take limit
  pure {
    items := items
    nextCursor := if hasMore then
      items.getLast?.map fun last => rowCursor last.triggerTime last.alarmId else none
    hasMore := hasMore }

end service

/-! ## A page of what is kept -/

section kept

variable {registry : TemplateRegistry} {lower : String → String}

theorem collect_eq {filters : AlarmFilters} {limit : Nat} {items : List AlarmItem}
    (h : items.length ≤ limit) (records : List AlarmRecord) :
    collect registry lower filters limit items records =
      (items ++ (records.map (mapAlarm registry lower)).filter filters.keeps).take (limit + 1) := by
  induction records generalizing items with
  | nil =>
      rw [collect, List.map_nil, List.filter_nil, List.append_nil,
        List.take_of_length_le (Nat.le_succ_of_le h)]
  | cons record records ih =>
      rw [collect, List.map_cons]
      by_cases hkeep : filters.keeps (mapAlarm registry lower record) = true
      · have hcons := List.append_cons items (mapAlarm registry lower record)
          ((records.map (mapAlarm registry lower)).filter filters.keeps)
        rw [if_pos hkeep, List.filter_cons_of_pos hkeep, hcons]
        by_cases hfull : limit < (items ++ [mapAlarm registry lower record]).length
        · have hlength : (items ++ [mapAlarm registry lower record]).length = limit + 1 := by
            rw [List.length_append, List.length_singleton] at hfull ⊢
            omega
          rw [if_pos hfull, List.take_left' hlength]
        · rw [if_neg hfull, ih (Nat.not_lt.mp hfull)]
      · rw [if_neg hkeep, List.filter_cons_of_neg hkeep, ih h]

/-- A round of the loop. -/
theorem scan_round {batch : Option String → Except CatalogError (List AlarmRecord × Option String)}
    {filters : AlarmFilters} {limit fuel : Nat} {items : List AlarmItem} {cursor : Option String}
    {records : List AlarmRecord} {pageCursor : Option String} (h : items.length ≤ limit)
    (hbatch : batch cursor = .ok (records, pageCursor)) :
    scan registry lower batch filters limit (fuel + 1) items cursor =
      if limit < (collect registry lower filters limit items records).length then
        .ok (collect registry lower filters limit items records)
      else match Text.truthy pageCursor with
        | none => .ok (collect registry lower filters limit items records)
        | some next => scan registry lower batch filters limit fuel
            (collect registry lower filters limit items records) (some next) := by
  rw [scan, if_neg (Nat.not_lt.mpr h), hbatch]
  rfl

variable (registry lower) in
/-- The item of a row. -/
def alarmItem (row : AlarmEventModel × String) : AlarmItem :=
  mapAlarm registry lower (alarmRecord row)

variable {κ : Type} [LinearOrder κ] {collation : Collation κ} {other : List Char → Option Datetime}
  {devices : List DeviceProfileModel} {table : List AlarmEventModel}

/-- The loop finds the first items of what is ahead of its cursor, one more than the limit. -/
theorem scan_eq {queryFilters filters : AlarmFilters} {limit size fuel : Nat} (hsize : 1 ≤ size)
    {rows : List (AlarmEventModel × String)}
    (hrows : rows = (joined collation devices table).filter fun row =>
      queryFilters.matches collation row.1)
    (hdistinct : Keyset.Distinct alarmMark (sortKey collation true) rows)
    {items : List AlarmItem} (hitems : items.length ≤ limit) {cursor : Option (Time × String)}
    (hfuel : (Keyset.ahead alarmMark (sortKey collation true) cursor rows).length < fuel) :
    scan registry lower (listAlarms collation other devices table queryFilters size) filters limit
        fuel items (cursor.map encodeMark) =
      .ok ((items ++ ((Keyset.ahead alarmMark (sortKey collation true) cursor rows).map
        (alarmItem registry lower)).filter filters.keeps).take (limit + 1)) := by
  induction fuel generalizing items cursor with
  | zero => exact absurd hfuel (Nat.not_lt_zero _)
  | succ fuel ih =>
      have hbatch := @listAlarms_page _ _ collation other devices table queryFilters size cursor
      rw [← hrows] at hbatch
      have hpage : (Keyset.page alarmMark (sortKey collation true) rows size cursor).items = _ :=
        Keyset.page_items
      let found := items ++
        (((Keyset.ahead alarmMark (sortKey collation true) cursor rows).take size).map
          (alarmItem registry lower)).filter filters.keeps
      have hfound : items ++ ((((Keyset.page alarmMark (sortKey collation true) rows size
          cursor).items.map alarmRecord).map (mapAlarm registry lower)).filter filters.keeps) =
          found := by
        rw [List.map_map, hpage]
        rfl
      have htotal : items ++ ((Keyset.ahead alarmMark (sortKey collation true) cursor rows).map
          (alarmItem registry lower)).filter filters.keeps = found ++
          (((Keyset.ahead alarmMark (sortKey collation true) cursor rows).drop size).map
            (alarmItem registry lower)).filter filters.keeps := by
        rw [List.append_assoc, ← List.filter_append, ← List.map_append, List.take_append_drop]
      rw [scan_round hitems hbatch, htotal, collect_eq hitems, hfound]
      by_cases hfull : limit < found.length
      · have hlength : limit < (found.take (limit + 1)).length := by
          rw [List.length_take]
          omega
        rw [if_pos hlength, List.take_append_of_le_length hfull]
      · have hlength : ¬ limit < (found.take (limit + 1)).length := by
          rw [List.length_take]
          omega
        have htake : found.take (limit + 1) = found := List.take_of_length_le (by omega)
        rw [if_neg hlength, htake]
        cases hnext : (Keyset.page alarmMark (sortKey collation true) rows size cursor).next with
        | none =>
            have hall := Keyset.page_next_eq_none hsize hnext
            rw [List.drop_eq_nil_of_le hall, List.map_nil, List.filter_nil, List.append_nil, htake]
            simp only [Option.map_none, Text.truthy]
        | some m =>
            have hahead := Keyset.ahead_next hdistinct hnext
            obtain ⟨-, -, -, -, hmore⟩ := Keyset.page_next_eq_some hnext
            have hlt : (Keyset.ahead alarmMark (sortKey collation true) (some m) rows).length < fuel := by
              rw [hahead, List.length_drop]
              omega
            have hrest := ih (Nat.not_lt.mp hfull) hlt
            rw [hahead] at hrest
            simp only [Option.map_some, truthy_encodeMark]
            exact hrest

variable (registry lower collation) in
/-- The alarm satisfies the whole filter. -/
def AlarmFilters.satisfied (filters : AlarmFilters) (row : AlarmEventModel × String) : Bool :=
  filters.matches collation row.1 && filters.keeps (alarmItem registry lower row)

/-- What the service returns is a page of the rows that satisfy the whole filter. -/
theorem alarms_page {filters : AlarmFilters} {limit fuel : Nat} (hlimit : 1 ≤ limit)
    (hdistinct : Keyset.Distinct alarmMark (sortKey collation true) (joined collation devices table))
    (hfuel : (joined collation devices table).length < fuel) (cursor : Option (Time × String)) :
    let page := Keyset.page alarmMark (sortKey collation true)
      ((joined collation devices table).filter (filters.satisfied registry lower collation)) limit
      cursor
    alarms registry lower collation other devices table fuel filters limit
        (cursor.map encodeMark) =
      .ok ⟨page.items.map (alarmItem registry lower), page.next.map encodeMark, page.next.isSome⟩ := by
  intro page
  let queryFilters := { filters with supported := none, templateId := none }
  let rows := (joined collation devices table).filter fun row => queryFilters.matches collation row.1
  have hrows : Keyset.Distinct alarmMark (sortKey collation true) rows :=
    Keyset.nodup_filter hdistinct _
  have hkept : (joined collation devices table).filter (filters.satisfied registry lower collation) =
      rows.filter (filters.keeps ∘ alarmItem registry lower) := by
    rw [List.filter_filter]
    exact List.filter_congr fun row _ => Bool.and_comm _ _
  have hlt : (Keyset.ahead alarmMark (sortKey collation true) cursor rows).length < fuel :=
    (Keyset.length_ahead_le.trans (List.length_filter_le _ _)).trans_lt hfuel
  have hscan := @scan_eq registry lower _ _ collation other devices table queryFilters filters limit
    (max 100 (limit * 2)) fuel (by omega) rows rfl hrows [] (Nat.zero_le _) cursor hlt
  rw [List.nil_append, List.filter_map, ← Keyset.ahead_filter hrows, ← hkept, ← List.map_take] at hscan
  have hpair := page_of_query collation true ((joined collation devices table).filter
    (filters.satisfied registry lower collation)) limit alarmMark cursor (alarmItem registry lower)
    (fun item => rowCursor item.triggerTime item.alarmId) fun _ => rfl
  obtain ⟨hitems, hnext⟩ := Prod.mk.inj hpair
  have hmore : decide (limit < ((Keyset.ahead alarmMark (sortKey collation true) cursor
      ((joined collation devices table).filter
        (filters.satisfied registry lower collation))).take (limit + 1)).length) =
      page.next.isSome := by
    rw [Keyset.page_next_isSome hlimit, List.length_take, decide_eq_decide]
    omega
  rw [alarms, hscan, ← hmore, ← hitems, ← hnext]
  simp only [bind, Except.bind, pure, Except.pure, List.length_map, ← List.map_take]

end kept

/-! ## The whole list -/

section list

variable {κ : Type} [LinearOrder κ] {collation : Collation κ} {other : List Char → Option Datetime}
  {registry : TemplateRegistry} {lower : String → String} {devices : List DeviceProfileModel}
  {table : List AlarmEventModel}

theorem distinct_joined (hdevices : (devices.map fun d => collation.key d.deviceId).Nodup)
    (halarms : (table.map fun a => collation.key a.alarmId).Nodup) :
    Keyset.Distinct alarmMark (sortKey collation true) (joined collation devices table) := by
  refine distinct_of_keys collation true ?_
  have hsublist := (joined_sublist hdevices table).map fun a => collation.key a.alarmId
  rw [List.map_map] at hsublist
  exact halarms.sublist hsublist

/-- A response shows a page of alarms. -/
def ShowsAlarms (registry : TemplateRegistry) (lower : String → String) (p : AlarmListResponse)
    (q : Keyset.Page (AlarmEventModel × String) (Time × String)) : Prop :=
  p = ⟨q.items.map (alarmItem registry lower), q.next.map encodeMark, q.next.isSome⟩

/-- Following the cursors lists every alarm of a known device that satisfies the filter, once and in
order. -/
theorem alarm_pages_exact (hdevices : (devices.map fun d => collation.key d.deviceId).Nodup)
    (halarms : (table.map fun a => collation.key a.alarmId).Nodup) (filters : AlarmFilters)
    {limit fuel n : Nat} (hlimit : 1 ≤ limit) (hfuel : table.length < fuel)
    (hn : table.length < n) :
    (∀ s ≠ "", decodeCursor (some (encodeCursor s)) = .ok (some s)) ∧
    (∀ t, (fromisoformat other (isoformat t)).map queryDatetime = some t) ∧
    ∃ (pages : List AlarmListResponse) (listed : List (AlarmEventModel × String)),
      Keyset.follow AlarmListResponse.nextCursor none (List.replicate n
        (alarms registry lower collation other devices table fuel filters limit)) = .ok pages ∧
      Keyset.Ended AlarmListResponse.nextCursor pages ∧
      listed.Perm ((joined collation devices table).filter
        (filters.satisfied registry lower collation)) ∧
      listed.Pairwise (fun a b => Precedes collation true (alarmMark a) (alarmMark b)) ∧
      pages.flatMap AlarmListResponse.items = listed.map (alarmItem registry lower) ∧
      (∀ p ∈ pages, p.items.length ≤ limit) ∧
      ∀ before p after, pages = before ++ p :: after →
        (p.hasMore = true ↔ (before ++ [p]).flatMap AlarmListResponse.items ≠
          listed.map (alarmItem registry lower)) := by
  refine ⟨fun s hs => decode_encode_cursor hs, queryDatetime_isoformat other, ?_⟩
  have hjoined := distinct_joined hdevices halarms
  have hlength : (joined collation devices table).length ≤ table.length := by
    simpa using (joined_sublist hdevices table).length_le
  let kept := (joined collation devices table).filter (filters.satisfied registry lower collation)
  have hkept : Keyset.Distinct alarmMark (sortKey collation true) kept := Keyset.nodup_filter hjoined _
  have hlt : kept.length < n := ((List.length_filter_le _ _).trans hlength).trans_lt hn
  have hpage := fun cursor => @alarms_page registry lower _ _ collation other devices table filters
    limit fuel hlimit hjoined (hlength.trans_lt hfuel) cursor
  have hserves : Keyset.Serves alarmMark (sortKey collation true) encodeMark
      (ShowsAlarms registry lower) limit
      (alarms registry lower collation other devices table fuel filters limit) kept := by
    intro cursor p hp
    exact Except.ok.inj (hp.symm.trans (hpage cursor))
  have hnext : ∀ p q, ShowsAlarms registry lower p q →
      p.nextCursor = q.next.map encodeMark := by
    rintro _ q rfl
    rfl
  have hitems : ∀ p q, ShowsAlarms registry lower p q →
      p.items = q.items.map (alarmItem registry lower) := by
    rintro _ q rfl
    rfl
  obtain ⟨pages, hpages, hended, hall, hsize, hmore⟩ :=
    Keyset.follow_fixed hnext hitems hserves (fun cursor => ⟨_, hpage cursor⟩) hkept hlimit hlt
  refine ⟨pages, _, hpages, hended, Keyset.perm_orderBy, ?_, hall, fun p hp => (hsize p hp).1, ?_⟩
  · exact (Keyset.pairwise_orderBy hkept).imp fun hlt => (sortKey_lt collation).mp hlt
  · intro before p after hsplit
    obtain ⟨-, q, hq⟩ := hsize p (by simp [hsplit])
    have hasMore_eq : p.hasMore = p.nextCursor.isSome := by
      rw [hq, Option.isSome_map]
    rw [hasMore_eq]
    exact hmore before p after hsplit

end list

/-! ## Samples -/

/-- Texts by their code points. -/
def binary : Collation (List Nat) where
  key s := s.toList.map Char.toNat
  like s pattern := Text.contains s (String.ofList (pattern.toList.drop 1).dropLast)

def noTemplates : TemplateRegistry := ⟨[], List.nodup_nil⟩

def sampleTime : Time := ⟨⟨2026, 1, 31, 23, 59, 59, 500000⟩, by decide⟩

def sampleAlarm (id : String) : AlarmEventModel where
  alarmId := id
  deviceId := "device-1"
  siteId := "site-1"
  alarmName := "fan"
  alarmLevel := "minor"
  triggerTime := sampleTime
  status := "ACTIVE"
  sourceSystem := "scada"

/-- Two alarms of one device at one time, one on a page. -/
theorem sample_alarm_pages :
    (∀ s ≠ "", decodeCursor (some (encodeCursor s)) = .ok (some s)) ∧
    (∀ t, (fromisoformat (fun _ => none) (isoformat t)).map queryDatetime = some t) ∧
    ∃ (pages : List AlarmListResponse) (listed : List (AlarmEventModel × String)),
      Keyset.follow AlarmListResponse.nextCursor none (List.replicate 3
        (alarms noTemplates id binary (fun _ => none) [⟨"device-1", "pcs"⟩]
          [sampleAlarm "b", sampleAlarm "a|1"] 3 { siteId := some "site-1" } 1)) = .ok pages ∧
      Keyset.Ended AlarmListResponse.nextCursor pages ∧
      listed.Perm ((joined binary [⟨"device-1", "pcs"⟩] [sampleAlarm "b", sampleAlarm "a|1"]).filter
        (AlarmFilters.satisfied noTemplates id binary { siteId := some "site-1" })) ∧
      listed.Pairwise (fun a b => Precedes binary true (alarmMark a) (alarmMark b)) ∧
      pages.flatMap AlarmListResponse.items = listed.map (alarmItem noTemplates id) ∧
      (∀ p ∈ pages, p.items.length ≤ 1) ∧
      ∀ before p after, pages = before ++ p :: after →
        (p.hasMore = true ↔ (before ++ [p]).flatMap AlarmListResponse.items ≠
          listed.map (alarmItem noTemplates id)) :=
  alarm_pages_exact (by decide) (by decide) _ le_rfl (by decide) (by decide)

/-- An alarm of a device that has no profile is not listed. -/
theorem unknown_device_not_listed :
    ¬ ∀ (registry : TemplateRegistry) (devices : List DeviceProfileModel)
      (table : List AlarmEventModel) (filters : AlarmFilters) (limit fuel n : Nat),
      (devices.map fun d => binary.key d.deviceId).Nodup →
      (table.map fun a => binary.key a.alarmId).Nodup → 1 ≤ limit → table.length < fuel →
      table.length < n → filters.supported = none → filters.templateId = none →
      ∃ pages : List AlarmListResponse,
        Keyset.follow AlarmListResponse.nextCursor none (List.replicate n
          (alarms registry id binary (fun _ => none) devices table fuel filters limit)) = .ok pages ∧
        Keyset.Ended AlarmListResponse.nextCursor pages ∧
        ((pages.flatMap AlarmListResponse.items).map AlarmItem.alarmId).Perm
          ((table.filter (filters.matches binary)).map AlarmEventModel.alarmId) := by
  intro hall
  obtain ⟨pages, hpages, -, hperm⟩ := hall noTemplates [] [sampleAlarm "a"] {} 1 2 2 (by decide)
    (by decide) le_rfl (by decide) (by decide) rfl rfl
  have hempty : Keyset.follow AlarmListResponse.nextCursor none (List.replicate 2
      (alarms noTemplates id binary (fun _ => none) [] [sampleAlarm "a"] 2 {} 1)) =
      .ok [⟨[], none, false⟩] := rfl
  rw [hempty] at hpages
  cases hpages
  exact absurd hperm.length_eq (by decide)

end EnergyAgent.Catalog
