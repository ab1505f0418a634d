import EnergyAgent.Catalog.Repository

/-!
# The pages of the catalog

What the repository returns is a page of the rows that satisfy the filter.
-/

namespace EnergyAgent.Catalog

open EnergyAgent.Lib

def encodeMark (m : Time × String) : String := rowCursor m.1 m.2

theorem encodeMark_ne (m : Time × String) : encodeMark m ≠ "" :=
  encodeCursor_ne (by simp)

theorem truthy_encodeMark (m : Time × String) :
    Text.truthy (some (encodeMark m)) = some (encodeMark m) := by
  rw [Text.truthy, if_neg (encodeMark_ne m)]

section pages

variable {κ : Type} [LinearOrder κ] (collation : Collation κ) (descending : Bool)
  {other : List Char → Option Datetime}

theorem readCursor_encodeMark (cursor : Option (Time × String)) :
    readCursor other (cursor.map encodeMark) = .ok cursor := by
  cases cursor with
  | none => rfl
  | some m => exact readCursor_rowCursor other m.1 m.2

theorem filter_whereBehind {α : Type} (rows : List α) (p : α → Bool) (mark : α → Time × String)
    (cursor : Option (Time × String)) :
    rows.filter (fun r => p r && whereBehind collation descending (mark r).1 (mark r).2 cursor) =
      Keyset.behind mark (sortKey collation descending) cursor (rows.filter p) := by
  cases cursor with
  | none => simp [Keyset.behind, whereBehind]
  | some m =>
      rw [Keyset.behind, List.filter_filter]
      refine List.filter_congr fun r _ => ?_
      rw [Bool.and_comm]
      congr 1
      rw [Bool.eq_iff_iff, whereBehind_iff, decide_eq_true_iff]
      exact ⟨fun h => h m rfl, fun h m' hm => Option.some.inj hm ▸ h⟩

omit [LinearOrder κ] in
theorem distinct_of_keys {α : Type} {mark : α → Time × String} {rows : List α}
    (h : (rows.map fun r => collation.key (mark r).2).Nodup) :
    Keyset.Distinct mark (sortKey collation descending) rows := by
  refine List.pairwise_map.mpr ((List.pairwise_map.mp h).imp fun hne heq => hne ?_)
  exact sortKey_inj collation heq

/-- The rows that a query finds, as a page. -/
theorem page_of_query {α β : Type} (rows : List α) (limit : Nat) (mark : α → Time × String)
    (cursor : Option (Time × String)) (view : α → β) (cursorOf : β → String)
    (hcursor : ∀ r, cursorOf (view r) = encodeMark (mark r)) :
    let found := (Keyset.ahead mark (sortKey collation descending) cursor rows).take (limit + 1)
    let items := (found.take limit).map view
    (items, if limit < found.length then items.getLast?.map cursorOf else none) =
      ((Keyset.page mark (sortKey collation descending) rows limit cursor).items.map view,
        (Keyset.page mark (sortKey collation descending) rows limit cursor).next.map encodeMark) := by
  simp only [Keyset.page, Prod.mk.injEq, true_and]
  split
  · rw [List.getLast?_map, Option.map_map, Option.map_map]
    exact congrArg (Option.map · _) (funext hcursor)
  · rfl

end pages

section lists

variable {κ : Type} [LinearOrder κ] (collation : Collation κ) {other : List Char → Option Datetime}

/-- The position of an alarm in the list. -/
def alarmMark (row : AlarmEventModel × String) : Time × String :=
  (row.1.triggerTime, row.1.alarmId)

theorem listAlarms_page (devices : List DeviceProfileModel) (alarms : List AlarmEventModel)
    (filters : AlarmFilters) (limit : Nat) (cursor : Option (Time × String)) :
    let page := Keyset.page alarmMark (sortKey collation true)
      ((joined collation devices alarms).filter fun row => filters.matches collation row.1) limit
      cursor
    listAlarms collation other devices alarms filters limit (cursor.map encodeMark) =
      .ok (page.items.map alarmRecord, page.next.map encodeMark) := by
  intro page
  rw [listAlarms, readCursor_encodeMark]
  refine congrArg Except.ok ?_
  have hrows := filter_whereBehind collation true (joined collation devices alarms)
    (fun row => filters.matches collation row.1) alarmMark cursor
  rw [show (joined collation devices alarms).filter (fun row => filters.matches collation row.1 &&
    whereBehind collation true row.1.triggerTime row.1.alarmId cursor) = _ from hrows]
  exact page_of_query collation true _ limit alarmMark cursor alarmRecord _ fun _ => rfl

/-- The position of a session in the list. -/
def sessionMark (row : DiagnosisSessionModel × Option DiagnosisRunModel) : Time × String :=
  (row.1.updatedAt, row.1.id)

theorem listSessions_page (tables : SessionTables) (filters : SessionFilters) (limit : Nat)
    (cursor : Option (Time × String)) :
    let page := Keyset.page sessionMark (sortKey collation true)
      ((tables.rows collation).filter fun row => filters.matches collation row.1) limit cursor
    listSessions collation other tables filters limit (cursor.map encodeMark) =
      .ok (page.items.map sessionItem, page.next.map encodeMark) := by
  intro page
  rw [listSessions, readCursor_encodeMark]
  refine congrArg Except.ok ?_
  have hrows := filter_whereBehind collation true (tables.rows collation)
    (fun row => filters.matches collation row.1) sessionMark cursor
  rw [show (tables.rows collation).filter (fun row => filters.matches collation row.1 &&
    whereBehind collation true row.1.updatedAt row.1.id cursor) = _ from hrows]
  exact page_of_query collation true _ limit sessionMark cursor sessionItem _ fun _ => rfl

end lists

end EnergyAgent.Catalog
