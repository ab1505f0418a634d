import EnergyAgent.Cases.Readability
import EnergyAgent.Catalog.Service

/-!
# `list_page`

The list of cases page by page, in both orders, beside the list of sessions. A case that cannot be
read makes the request for its page raise (`case_record`), so the list ends where the first such case
stands; everything else about the pages is the same for both lists.
-/

namespace EnergyAgent.Cases

open EnergyAgent.Lib EnergyAgent.Persistence EnergyAgent.Catalog

/-- A row of `diagnosis_case` with its `updated_at`. -/
structure CaseRow where
  model : DiagnosisCaseModel
  updatedAt : Time
  deriving DecidableEq

/-- A case as `list_page` hands it out. -/
structure ListedCase where
  case : DiagnosisCase
  updatedAt : Time

def ListedCase.row (c : ListedCase) : CaseRow := ⟨c.case.row, c.updatedAt⟩

structure CaseFilters where
  reviewStatus : Option String := none
  deviceType : Option String := none
  deviceModel : Option String := none
  alarmName : Option String := none
  createdBy : Option String := none
  isActive : Option Bool := none

/-- The column of a `CaseStatus`. -/
def statusText : CaseStatus → String
  | .draft => "DRAFT"
  | .pendingReview => "PENDING_REVIEW"
  | .approved => "APPROVED"
  | .rejected => "REJECTED"
  | .disabled => "DISABLED"
  | .superseded => "SUPERSEDED"

inductive ListingError
  | cursor (e : CatalogError)
  | case (e : CaseError)
  deriving DecidableEq, Repr

structure CasePage where
  items : List ListedCase
  total : Nat
  nextCursor : Option String

section listing

variable {κ : Type} [LinearOrder κ] (collation : Collation κ) (other : List Char → Option Datetime)

def CaseFilters.matches (filters : CaseFilters) (row : CaseRow) : Bool :=
  filters.reviewStatus.all (equals collation (some (statusText row.model.reviewStatus))) &&
    filters.deviceType.all (equals collation row.model.deviceType) &&
    filters.deviceModel.all (equals collation row.model.deviceModel) &&
    filters.alarmName.all (equals collation row.model.alarmName) &&
    filters.createdBy.all (equals collation (some row.model.createdBy)) &&
    filters.isActive.all (fun active => row.model.isActive = active)

/-- `case_record` -/
def listedCase (row : CaseRow) : Except ListingError ListedCase :=
  match caseRecord row.model with
  | .error e => .error (.case e)
  | .ok case => .ok ⟨case, ensureUtc (.naive row.updatedAt)⟩

def listPage (table : List CaseRow) (filters : CaseFilters) (limit : Nat) (sort : String)
    (cursor : Option String) : Except ListingError CasePage := do
  let descending : Bool := sort ≠ "updated_at_asc"
  let after ← (readCursor other cursor).mapError .cursor
  let rows := table.filter fun row => filters.matches collation row &&
    whereBehind collation descending row.updatedAt row.model.caseId after
  let found := (Keyset.orderBy
    (fun row => sortKey collation descending (row.updatedAt, row.model.caseId)) rows).take (limit + 1)
  let total := (table.filter (filters.matches collation)).length
  let hasMore := limit < found.length
  let items ← (found.take limit).mapM listedCase
  pure ⟨items, total, if hasMore then
    items.getLast?.map fun last => rowCursor last.updatedAt last.case.row.caseId else none⟩

/-! ## A page of cases -/

theorem listedCase_eq_ok {row : CaseRow} {c : ListedCase} (h : listedCase row = .ok c) :
    c.row = row := by
  unfold listedCase at h
  cases hcase : caseRecord row.model with
  | error e => simp [hcase] at h
  | ok case =>
      simp only [hcase] at h
      cases h
      show CaseRow.mk case.row row.updatedAt = row
      rw [(caseRecord_eq_ok hcase).1]

theorem mapM_listedCase {rows : List CaseRow} {items : List ListedCase}
    (h : rows.mapM listedCase = .ok items) : items.map ListedCase.row = rows := by
  induction rows generalizing items with
  | nil =>
      cases h
      rfl
  | cons row rows ih =>
      rw [List.mapM_cons] at h
      obtain ⟨c, hc, h⟩ := Prog.except_bind_eq_ok h
      obtain ⟨rest, hrest, h⟩ := Prog.except_bind_eq_ok h
      cases h
      rw [List.map_cons, listedCase_eq_ok hc, ih hrest]

theorem mapM_readable {rows : List CaseRow} (h : ∀ row ∈ rows, Readable row.model) :
    ∃ items, rows.mapM listedCase = .ok items := by
  induction rows with
  | nil => exact ⟨[], rfl⟩
  | cons row rows ih =>
      obtain ⟨hrow, hrows⟩ := List.forall_mem_cons.mp h
      obtain ⟨items, hitems⟩ := ih hrows
      have hlisted : listedCase row = .ok ⟨⟨row.model, hrow⟩, row.updatedAt⟩ := by
        rw [listedCase, caseRecord_of_readable hrow]
        rfl
      exact ⟨_, by rw [List.mapM_cons, hlisted, hitems]; rfl⟩

def caseMark (row : CaseRow) : Time × String := (row.updatedAt, row.model.caseId)

/-- A response shows a page of rows. -/
def ShowsCases (p : CasePage) (q : Keyset.Page CaseRow (Time × String)) : Prop :=
  p.items.map ListedCase.row = q.items ∧ p.nextCursor = q.next.map encodeMark

variable {table : List CaseRow} {filters : CaseFilters} {limit : Nat} {sort : String}

/-- `sort != "updated_at_asc"` -/
abbrev latestFirst (sort : String) : Bool := sort ≠ "updated_at_asc"

/-- What `list_page` reads before it makes cases of the rows. -/
theorem listPage_eq (cursor : Option (Time × String)) :
    listPage collation other table filters limit sort (cursor.map encodeMark) =
      let found := (Keyset.ahead caseMark (sortKey collation (latestFirst sort)) cursor
        (table.filter (filters.matches collation))).take (limit + 1)
      ((found.take limit).mapM listedCase).map fun items =>
        ⟨items, (table.filter (filters.matches collation)).length, if limit < found.length then
          items.getLast?.map fun last => rowCursor last.updatedAt last.case.row.caseId else none⟩ := by
  have hrows : table.filter (fun row => filters.matches collation row && whereBehind collation
      (latestFirst sort) row.updatedAt row.model.caseId cursor) = _ :=
    filter_whereBehind collation (latestFirst sort) table (filters.matches collation) caseMark cursor
  have hread : (readCursor other (cursor.map encodeMark)).mapError ListingError.cursor = .ok cursor := by
    rw [readCursor_encodeMark]
    rfl
  rw [listPage, hread]
  dsimp only [bind, Except.bind]
  rw [hrows]
  rfl

theorem listPage_serves : Keyset.Serves caseMark (sortKey collation (latestFirst sort)) encodeMark
    ShowsCases limit (listPage collation other table filters limit sort)
    (table.filter (filters.matches collation)) := by
  intro cursor p hp
  rw [listPage_eq] at hp
  obtain ⟨items, hitems, rfl⟩ := Prog.except_map_eq_ok hp
  have hrows := mapM_listedCase hitems
  have hpair := page_of_query collation (latestFirst sort) (table.filter (filters.matches collation))
    limit caseMark cursor id (fun row => rowCursor row.updatedAt row.model.caseId) fun _ => rfl
  obtain ⟨hpage, hnext⟩ := Prod.mk.inj hpair
  rw [List.map_id, ← hrows] at hpage hnext
  refine ⟨hpage.trans (List.map_id _), ?_⟩
  rw [List.getLast?_map, Option.map_map] at hnext
  exact hnext

theorem listPage_total
    (h : ∀ row ∈ table, filters.matches collation row = true → Readable row.model)
    (cursor : Option (Time × String)) :
    ∃ p, listPage collation other table filters limit sort (cursor.map encodeMark) = .ok p := by
  have hread : ∀ row ∈ ((Keyset.ahead caseMark (sortKey collation (latestFirst sort)) cursor
      (table.filter (filters.matches collation))).take (limit + 1)).take limit,
      Readable row.model := by
    intro row hrow
    have hmem := (Keyset.mem_behind.mp (Keyset.mem_ahead.mp
      (List.mem_of_mem_take (List.mem_of_mem_take hrow)))).1
    obtain ⟨hrow, hmatches⟩ := List.mem_filter.mp hmem
    exact h row hrow hmatches
  obtain ⟨items, hitems⟩ := mapM_readable hread
  rw [listPage_eq]
  dsimp only
  rw [hitems]
  exact ⟨_, rfl⟩

end listing

/-! ## Both lists -/

section lists

variable {κ : Type} [LinearOrder κ] {collation : Collation κ} {other : List Char → Option Datetime}

/-- Following the cursors of a table that does not change yields `rows`, each once and in the order
of the list, in pages of at most `limit` rows. -/
def ListsExactly {ε P α : Type} (request : Option String → Except ε P) (next : P → Option String)
    (items : P → List α) (limit n : Nat) (before : α → α → Prop) (rows : List α) : Prop :=
  ∃ pages, Keyset.follow next none (List.replicate n request) = .ok pages ∧
    Keyset.Ended next pages ∧ (pages.flatMap items).Perm rows ∧
    (pages.flatMap items).Pairwise before ∧ ∀ p ∈ pages, (items p).length ≤ limit

/-- A row with the time and the id of `m`, which every table has, is yielded once, or the list has
not come to it. -/
def KeepsPresent {ε P : Type} (requests : List (Option String → Except ε P))
    (next : P → Option String) (marks : P → List (Time × String))
    (before : Time × String → Time × String → Prop) (m : Time × String) : Prop :=
  ∃ pages, Keyset.follow next none requests = .ok pages ∧
    ((pages.flatMap marks).count m = 1 ∨
      (¬ Keyset.Ended next pages ∧ ∀ m' ∈ pages.flatMap marks, before m' m))

/-- The ids of the tables are distinct for the database. -/
def SessionTables.Distinct (collation : Collation κ) (tables : SessionTables) : Prop :=
  (tables.sessions.map fun s => collation.key s.id).Nodup ∧
    (tables.runs.map fun r => collation.key r.id).Nodup

def DistinctCases (collation : Collation κ) (table : List CaseRow) : Prop :=
  (table.map fun row => collation.key row.model.caseId).Nodup

theorem distinct_sessions {tables : SessionTables} (h : SessionTables.Distinct collation tables)
    (filters : SessionFilters) : Keyset.Distinct sessionMark (sortKey collation true)
      ((tables.rows collation).filter fun row => filters.matches collation row.1) := by
  refine Keyset.nodup_filter (distinct_of_keys collation true ?_) _
  have hids := h.1
  rw [← rows_fst h.2, List.map_map] at hids
  exact hids

theorem distinct_cases {table : List CaseRow} (h : DistinctCases collation table)
    (filters : CaseFilters) (descending : Bool) : Keyset.Distinct caseMark
      (sortKey collation descending) (table.filter (filters.matches collation)) := by
  refine Keyset.nodup_filter (distinct_of_keys collation descending ?_) _
  exact h

/-- A response shows a page of sessions. -/
def ShowsSessions (p : List DiagnosisSessionItem × Option String)
    (q : Keyset.Page (DiagnosisSessionModel × Option DiagnosisRunModel) (Time × String)) : Prop :=
  p = (q.items.map sessionItem, q.next.map encodeMark)

theorem listSessions_serves (tables : SessionTables) (filters : SessionFilters) (limit : Nat) :
    Keyset.Serves sessionMark (sortKey collation true) encodeMark ShowsSessions limit
      (listSessions collation other tables filters limit)
      ((tables.rows collation).filter fun row => filters.matches collation row.1) := by
  intro cursor p hp
  exact Except.ok.inj (hp.symm.trans (listSessions_page collation tables filters limit cursor))

def itemMark (item : DiagnosisSessionItem) : Time × String := (item.updatedAt, item.sessionId)

theorem sessions_exact {tables : SessionTables} (h : SessionTables.Distinct collation tables)
    (filters : SessionFilters) {limit n : Nat} (hlimit : 1 ≤ limit)
    (hn : tables.sessions.length < n) :
    ListsExactly (listSessions collation other tables filters limit) Prod.snd Prod.fst limit n
      (fun a b => Precedes collation true (itemMark a) (itemMark b))
      (((tables.rows collation).filter fun row => filters.matches collation row.1).map
        sessionItem) := by
  have hlength : ((tables.rows collation).filter fun row =>
      filters.matches collation row.1).length < n := by
    refine (List.length_filter_le _ _).trans_lt ?_
    rw [← rows_fst h.2, List.length_map] at hn
    exact hn
  have hdistinct := distinct_sessions h filters
  have hnext : ∀ p q, ShowsSessions p q → p.2 = q.next.map encodeMark := fun p q hp => by rw [hp]
  have hitems : ∀ p q, ShowsSessions p q → p.1 = q.items.map sessionItem := fun p q hp => by rw [hp]
  obtain ⟨pages, hpages, hended, hall, hsize, -⟩ := Keyset.follow_fixed hnext hitems
    (listSessions_serves tables filters limit)
    (fun cursor => ⟨_, listSessions_page collation tables filters limit cursor⟩) hdistinct hlimit
    hlength
  refine ⟨pages, hpages, hended, ?_, ?_, fun p hp => (hsize p hp).1⟩
  · rw [hall]
    exact Keyset.perm_orderBy.map sessionItem
  · rw [hall]
    exact List.pairwise_map.mpr ((Keyset.pairwise_orderBy hdistinct).imp fun hlt =>
      (sortKey_lt collation).mp hlt)

theorem sessions_present {states : List SessionTables} {filters : SessionFilters} {limit : Nat}
    {m : Time × String} (hlimit : 1 ≤ limit)
    (h : ∀ tables ∈ states, SessionTables.Distinct collation tables ∧
      ∃ s ∈ tables.sessions, filters.matches collation s = true ∧ (s.updatedAt, s.id) = m) :
    KeepsPresent (states.map fun tables => listSessions collation other tables filters limit)
      Prod.snd (fun p => p.1.map itemMark) (Precedes collation true) m := by
  let found := fun tables : SessionTables =>
    (tables.rows collation).filter fun row => filters.matches collation row.1
  have hserves : List.Forall₂ (Keyset.Serves sessionMark (sortKey collation true) encodeMark
      ShowsSessions limit)
      (states.map fun tables => listSessions collation other tables filters limit)
      (states.map found) := by
    refine List.forall₂_map_left_iff.mpr (List.forall₂_map_right_iff.mpr (List.forall₂_same.mpr ?_))
    exact fun tables _ => listSessions_serves tables filters limit
  have htables : ∀ rows ∈ states.map found, Keyset.Distinct sessionMark (sortKey collation true) rows ∧
      ∃ row ∈ rows, sessionMark row = m := by
    intro rows hrows
    obtain ⟨tables, htables, rfl⟩ := List.mem_map.mp hrows
    obtain ⟨hdistinct, s, hs, hmatches, hm⟩ := h tables htables
    refine ⟨distinct_sessions hdistinct filters, ?_⟩
    rw [← rows_fst hdistinct.2] at hs
    obtain ⟨row, hrow, rfl⟩ := List.mem_map.mp hs
    exact ⟨row, List.mem_filter.mpr ⟨hrow, hmatches⟩, hm⟩
  have hmarks : ∀ p q, ShowsSessions p q → p.1.map itemMark = q.items.map sessionMark := by
    intro p q hp
    rw [hp, List.map_map]
    rfl
  have hnext : ∀ p q, ShowsSessions p q → p.2 = q.next.map encodeMark := fun p q hp => by rw [hp]
  obtain ⟨pages, hpages⟩ := @Keyset.follow_total _ _ _ _ _ _ _ none _ _ _ _ _ _ hnext _ _ hserves
    (by
      intro request hrequest cursor
      obtain ⟨tables, -, rfl⟩ := List.mem_map.mp hrequest
      exact ⟨_, listSessions_page collation tables filters limit cursor⟩)
  refine ⟨pages, hpages, ?_⟩
  rcases Keyset.follow_once hnext hmarks hserves hlimit htables hpages with hone | ⟨hended, hbefore⟩
  · exact .inl hone
  · exact .inr ⟨hended, fun m' hm' => (sortKey_lt collation).mp (hbefore m' hm')⟩

theorem cases_exact_iff {table : List CaseRow} (h : DistinctCases collation table)
    (filters : CaseFilters) {limit n : Nat} (sort : String) (hlimit : 1 ≤ limit)
    (hn : table.length < n) :
    ListsExactly (listPage collation other table filters limit sort) CasePage.nextCursor
      (fun p => p.items.map ListedCase.row) limit n
      (fun a b => Precedes collation (latestFirst sort) (caseMark a) (caseMark b))
      (table.filter (filters.matches collation)) ↔
    ∀ row ∈ table, filters.matches collation row = true → Readable row.model := by
  constructor
  · rintro ⟨pages, -, -, hperm, -, -⟩ row hrow hmatches
    have hmem := hperm.mem_iff.mpr (List.mem_filter.mpr ⟨hrow, hmatches⟩)
    obtain ⟨p, -, hp⟩ := List.mem_flatMap.mp hmem
    obtain ⟨c, -, rfl⟩ := List.mem_map.mp hp
    exact c.case.readable
  · intro hread
    have hdistinct := distinct_cases h filters (latestFirst sort)
    have hlength : (table.filter (filters.matches collation)).length < n :=
      (List.length_filter_le _ _).trans_lt hn
    have hnext : ∀ p q, ShowsCases p q → p.nextCursor = q.next.map encodeMark := fun p q hp => hp.2
    have hitems : ∀ p q, ShowsCases p q → p.items.map ListedCase.row = q.items.map id :=
      fun p q hp => hp.1.trans (List.map_id _).symm
    obtain ⟨pages, hpages, hended, hall, hsize, -⟩ := Keyset.follow_fixed hnext hitems
      (listPage_serves collation other) (listPage_total collation other hread) hdistinct hlimit
      hlength
    rw [List.map_id] at hall
    refine ⟨pages, hpages, hended, ?_, ?_, fun p hp => (hsize p hp).1⟩
    · rw [hall]
      exact Keyset.perm_orderBy
    · rw [hall]
      exact (Keyset.pairwise_orderBy hdistinct).imp fun hlt => (sortKey_lt collation).mp hlt

theorem cases_present {states : List (List CaseRow)} {filters : CaseFilters} {limit : Nat}
    {sort : String} {m : Time × String} (hlimit : 1 ≤ limit)
    (hread : ∀ table ∈ states, ∀ row ∈ table, filters.matches collation row = true →
      Readable row.model)
    (h : ∀ table ∈ states, DistinctCases collation table ∧
      ∃ row ∈ table, filters.matches collation row = true ∧ caseMark row = m) :
    KeepsPresent (states.map fun table => listPage collation other table filters limit sort)
      CasePage.nextCursor (fun p => p.items.map fun c => caseMark c.row)
      (Precedes collation (latestFirst sort)) m := by
  have hserves : List.Forall₂ (Keyset.Serves caseMark (sortKey collation (latestFirst sort))
      encodeMark ShowsCases limit)
      (states.map fun table => listPage collation other table filters limit sort)
      (states.map (List.filter (filters.matches collation))) := by
    refine List.forall₂_map_left_iff.mpr (List.forall₂_map_right_iff.mpr (List.forall₂_same.mpr ?_))
    exact fun table _ => listPage_serves collation other
  have htables : ∀ rows ∈ states.map (List.filter (filters.matches collation)),
      Keyset.Distinct caseMark (sortKey collation (latestFirst sort)) rows ∧
        ∃ row ∈ rows, caseMark row = m := by
    intro rows hrows
    obtain ⟨table, htable, rfl⟩ := List.mem_map.mp hrows
    obtain ⟨hdistinct, row, hrow, hmatches, hm⟩ := h table htable
    exact ⟨distinct_cases hdistinct filters _, row, List.mem_filter.mpr ⟨hrow, hmatches⟩, hm⟩
  have hmarks : ∀ p q, ShowsCases p q →
      (p.items.map fun c => caseMark c.row) = q.items.map caseMark := by
    intro p q hp
    rw [← hp.1, List.map_map]
    rfl
  have hnext : ∀ p q, ShowsCases p q → p.nextCursor = q.next.map encodeMark := fun p q hp => hp.2
  obtain ⟨pages, hpages⟩ := @Keyset.follow_total _ _ _ _ _ _ _ none _ _ _ _ _ _ hnext _ _ hserves
    (by
      intro request hrequest cursor
      obtain ⟨table, htable, rfl⟩ := List.mem_map.mp hrequest
      exact listPage_total collation other (hread table htable) cursor)
  refine ⟨pages, hpages, ?_⟩
  rcases Keyset.follow_once hnext hmarks hserves hlimit htables hpages with hone | ⟨hended, hbefore⟩
  · exact .inl hone
  · exact .inr ⟨hended, fun m' hm' => (sortKey_lt collation).mp (hbefore m' hm')⟩

variable (collation other)

/-- The pages of both lists, of each table by itself and of tables that change from one request to
the next. -/
structure PagesExact (sessions : List SessionTables) (sessionFilters : SessionFilters)
    (cases : List (List CaseRow)) (caseFilters : CaseFilters) (limit : Nat) : Prop where
  sessions_fixed : ∀ tables ∈ sessions, ∀ n > tables.sessions.length,
    ListsExactly (listSessions collation other tables sessionFilters limit) Prod.snd Prod.fst limit n
      (fun a b => Precedes collation true (itemMark a) (itemMark b))
      (((tables.rows collation).filter fun row => sessionFilters.matches collation row.1).map
        sessionItem)
  cases_fixed : ∀ table ∈ cases, ∀ sort, ∀ n > table.length,
    ListsExactly (listPage collation other table caseFilters limit sort) CasePage.nextCursor
      (fun p => p.items.map ListedCase.row) limit n
      (fun a b => Precedes collation (latestFirst sort) (caseMark a) (caseMark b))
      (table.filter (caseFilters.matches collation))
  sessions_changing : ∀ m, (∀ tables ∈ sessions, ∃ s ∈ tables.sessions,
      sessionFilters.matches collation s = true ∧ (s.updatedAt, s.id) = m) →
    KeepsPresent (sessions.map fun tables =>
      listSessions collation other tables sessionFilters limit) Prod.snd
      (fun p => p.1.map itemMark) (Precedes collation true) m
  cases_changing : ∀ sort m, (∀ table ∈ cases, ∃ row ∈ table,
      caseFilters.matches collation row = true ∧ caseMark row = m) →
    KeepsPresent (cases.map fun table => listPage collation other table caseFilters limit sort)
      CasePage.nextCursor (fun p => p.items.map fun c => caseMark c.row)
      (Precedes collation (latestFirst sort)) m

theorem pages_exact_iff {sessions : List SessionTables} {cases : List (List CaseRow)} {limit : Nat}
    (hsessions : ∀ tables ∈ sessions, SessionTables.Distinct collation tables)
    (hcases : ∀ table ∈ cases, DistinctCases collation table) (hlimit : 1 ≤ limit)
    (sessionFilters : SessionFilters) (caseFilters : CaseFilters) :
    PagesExact collation other sessions sessionFilters cases caseFilters limit ↔
      ∀ table ∈ cases, ∀ row ∈ table, caseFilters.matches collation row = true →
        Readable row.model := by
  constructor
  · intro h table htable
    exact (cases_exact_iff (hcases table htable) caseFilters "updated_at_desc" hlimit
      (Nat.lt_succ_self _)).mp (h.cases_fixed table htable _ _ (Nat.lt_succ_self _))
  · intro hread
    refine ⟨?_, ?_, ?_, ?_⟩
    · intro tables htables n hn
      exact sessions_exact (hsessions tables htables) sessionFilters hlimit hn
    · intro table htable sort n hn
      exact (cases_exact_iff (hcases table htable) caseFilters sort hlimit hn).mpr
        (hread table htable)
    · intro m hm
      exact sessions_present hlimit fun tables htables =>
        ⟨hsessions tables htables, hm tables htables⟩
    · intro sort m hm
      exact cases_present hlimit hread fun table htable => ⟨hcases table htable, hm table htable⟩

end lists

/-! ## Samples -/

def sampleSession (id : String) : DiagnosisSessionModel where
  id := id
  source := "chat"
  siteId := none
  deviceId := none
  alarmId := none
  alarmName := none
  phase := "INIT"
  finalSummary := none
  riskLevel := "low"
  traceId := "trace"
  runId := "run-1"
  createdBy := none
  latestReviewStatus := none
  createdAt := sampleTime
  updatedAt := sampleTime

def sampleCase (id : String) : CaseRow := ⟨Indexing.approvedCase id 1 none, sampleTime⟩

/-- Cases of one time, with one more at the second request. -/
theorem approved_pages_exact : PagesExact binary (fun _ => none)
    [⟨[sampleSession "s-2", sampleSession "s-1"], []⟩] {}
    [[sampleCase "c-3", sampleCase "c-1"], [sampleCase "c-3", sampleCase "c-1", sampleCase "c-2"]]
    { isActive := some false } 1 :=
  (pages_exact_iff binary (fun _ => none) (by simp [SessionTables.Distinct]; decide)
    (by simp [DistinctCases]; decide) le_rfl {} { isActive := some false }).mpr
    (by simp [sampleCase]; decide)

/-- The draft that a patch with a `null` has left behind makes the list of cases raise. -/
theorem patched_draft_stops_list :
    ¬ ∀ w : World Unit, (lifecycle (sampleSettings .rabbitmq)).Reachable w →
      ∀ table : List CaseRow, (∀ row ∈ table, w.getCase row.model.caseId = some row.model) →
        DistinctCases binary table →
        PagesExact binary (fun _ => none) [] {} [table] {} 1 := by
  intro hclaim
  have hrun : ((lifecycle (sampleSettings .rabbitmq)).run (World.empty ()) (draftRun ++
      [.api (engineer ⟨"none", by decide⟩) (.patch "case-1" nullPatch)])).any
      (fun w => (w.getCase "case-1").any fun row =>
        row.caseId = "case-1" ∧ row.resolutionSteps = none) = true := by decide +kernel
  obtain ⟨w, hw, hrow⟩ := (Option.any_eq_true _ _).mp hrun
  obtain ⟨row, hrow, hnull⟩ := (Option.any_eq_true _ _).mp hrow
  obtain ⟨hid, hnull⟩ := of_decide_eq_true hnull
  have hreach : (lifecycle (sampleSettings .rabbitmq)).Reachable w :=
    TransitionSystem.Reachable.of_run (.init ⟨rfl, rfl, rfl, rfl, rfl, rfl⟩) hw
  have hpages := hclaim w hreach [⟨row, sampleTime⟩] (by simpa [hid] using hrow)
    (by simp [DistinctCases])
  have hread := (cases_exact_iff (by simp [DistinctCases]) {} "updated_at_desc" le_rfl
    (Nat.lt_succ_self _)).mp
    (hpages.cases_fixed _ (List.mem_singleton_self _) _ _ (Nat.lt_succ_self _))
  have hreadable := hread _ (List.mem_singleton_self _) rfl
  rw [Readable, hnull] at hreadable
  exact absurd hreadable.1 (by simp)

end EnergyAgent.Cases
