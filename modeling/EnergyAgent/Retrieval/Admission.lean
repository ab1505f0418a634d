import EnergyAgent.Persistence.Models
import EnergyAgent.Retrieval.Service

/-!
# What a search may return

The candidate queries of `providers/mysql.py` admit rows, `rank` of `keyword.py` and the vector index
pick some of them, and the stages of a search score, sort and drop them. Whatever the index and the
reranker answer, the evidence that is returned consists of admitted rows, in order and without
repetition.
-/

namespace EnergyAgent.Retrieval

open EnergyAgent.Lib EnergyAgent.Providers
open EnergyAgent.Persistence (DiagnosisCaseModel ManualDocumentModel)

/-! ## Tables and filters -/

/-- A row of `manual_chunk`, with the columns that a search reads. -/
structure ManualChunkModel where
  chunkId : String
  docId : String
  deviceType : String
  deviceModel : Option String
  manufacturer : Option String
  alarmName : Option String
  chapterTitle : String
  pageNo : Option Int
  sectionType : String
  summaryOrContent : String
  version : String
  verified : Bool
  effective : Bool
  deriving DecidableEq

/-- A row of `maintenance_ticket`; `closeTime` is in seconds. -/
structure MaintenanceTicketModel where
  ticketId : String
  siteId : String
  deviceModel : String
  alarmName : String
  faultSymptom : String
  rootCause : String
  actionTaken : String
  isVerified : Bool
  closeTime : Option Int
  manufacturer : Option String
  deriving DecidableEq

/-- The tables that the candidate queries read. -/
structure Database where
  chunks : List ManualChunkModel
  documents : List ManualDocumentModel
  tickets : List MaintenanceTicketModel
  cases : List DiagnosisCaseModel

/-- The filters of a search, with those that only the queries read. -/
structure SearchFilters extends Filters where
  docVersion : Option String := none
  sectionTypes : List String := []
  siteId : Option String := none
  excludeTicketIds : List String := []
  excludeSessionId : Option String := none

/-- `if value: query.where(column == value)`; `NULL` is equal to nothing. -/
def agrees (value column : Option String) : Bool :=
  (Text.truthy value).all fun text => column = some text

/-! ## The candidate queries -/

section queries

variable (db : Database) (filters : SearchFilters)

/-- The document of a chunk is approved, effective and indexed. -/
def strongDocument (chunk : ManualChunkModel) (document : ManualDocumentModel) : Bool :=
  document.docId = chunk.docId ∧ document.version = chunk.version ∧
    document.reviewStatus = "APPROVED" ∧ document.effective = true ∧ document.indexStatus = .indexed

/-- `manual_candidates`, which a search calls for effective chunks only. With `strongOnly` the chunks
are joined with their documents. -/
def manualCandidates (strongOnly : Bool) : List ManualChunkModel :=
  let chunks := db.chunks.filter fun chunk =>
    agrees filters.deviceType (some chunk.deviceType) ∧
    agrees filters.deviceModel chunk.deviceModel ∧
    agrees filters.manufacturer chunk.manufacturer ∧
    agrees filters.alarmName chunk.alarmName ∧
    chunk.effective = true ∧
    agrees filters.docVersion (some chunk.version) ∧
    (filters.sectionTypes = [] ∨ chunk.sectionType ∈ filters.sectionTypes)
  if strongOnly then
    chunks.flatMap fun chunk => (db.documents.filter (strongDocument chunk)).map fun _ => chunk
  else chunks

/-- `ticket_candidates` -/
def ticketCandidates (verifiedOnly : Bool) : List MaintenanceTicketModel :=
  db.tickets.filter fun ticket =>
    agrees filters.deviceModel (some ticket.deviceModel) ∧
    agrees filters.alarmName (some ticket.alarmName) ∧
    agrees filters.siteId (some ticket.siteId) ∧
    (verifiedOnly = true → ticket.isVerified = true) ∧
    ticket.ticketId ∉ filters.excludeTicketIds

/-- `case_candidates` -/
def caseCandidates : List DiagnosisCaseModel :=
  db.cases.filter fun case =>
    case.reviewStatus = .approved ∧
    (case.indexStatus = .indexed ∨ case.indexStatus = .degraded) ∧
    case.isActive = true ∧
    agrees filters.deviceType case.deviceType ∧
    agrees filters.deviceModel case.deviceModel ∧
    agrees filters.manufacturer case.manufacturer ∧
    agrees filters.alarmName case.alarmName ∧
    (Text.truthy filters.excludeSessionId).all fun id => case.sourceSessionId ≠ id

end queries

/-! ## Rows -/

/-- A column in an f-string. -/
def pyText (column : Option String) : String := column.getD "None"

def manualRow (chunk : ManualChunkModel) : Row where
  id := chunk.chunkId
  sourceId := chunk.docId
  chunkId := some chunk.chunkId
  content := chunk.summaryOrContent
  citation := "[手册: " ++ chunk.docId ++ " " ++ chunk.chapterTitle ++ "/page=" ++
    pyText (chunk.pageNo.map toString) ++ "]"
  metadata :=
    { alarmName := chunk.alarmName
      deviceType := some chunk.deviceType
      deviceModel := chunk.deviceModel
      manufacturer := chunk.manufacturer
      verified := chunk.verified
      effective := chunk.effective }

/-- The device type is no column of the table. -/
def ticketRow (now : Int) (ticket : MaintenanceTicketModel) : Row where
  id := ticket.ticketId
  sourceId := ticket.ticketId
  chunkId := none
  content := ticket.faultSymptom ++ "；根因: " ++ ticket.rootCause ++ "；处理: " ++ ticket.actionTaken
  citation := "[工单: " ++ ticket.ticketId ++ "]"
  metadata :=
    { alarmName := some ticket.alarmName
      deviceModel := some ticket.deviceModel
      manufacturer := ticket.manufacturer
      verified := ticket.isVerified
      closed := ticket.closeTime.isSome
      closedDaysAgo := ticket.closeTime.map fun t => (now - t) / 86400 }

def caseRow (case : DiagnosisCaseModel) : Row where
  id := case.caseId
  sourceId := case.caseId
  chunkId := none
  content := pyText case.symptomSummary ++ "；时序: " ++ pyText case.timeseriesFeatures ++ "；根因: " ++
    case.rootCause ++ "；处理: " ++ Text.join "；" (case.resolutionSteps.getD [])
  citation := "[案例: " ++ case.caseId ++ " v" ++ toString case.caseVersion ++ "]"
  metadata :=
    { alarmName := case.alarmName
      deviceType := case.deviceType
      deviceModel := case.deviceModel
      manufacturer := case.manufacturer }

/-- A search: its arguments, with the rewritten query and the cached vector. -/
structure Query where
  source : SourceType
  rewrite : QueryRewrite
  filters : SearchFilters
  cachedVector : Option (List Rat)
  topK : Nat
  scoreThreshold : Rat
  verifiedOnly : Bool
  now : Int

/-- The rows that MySQL admits. -/
def candidateRows (db : Database) (query : Query) (mode : RetrievalMode) : List Row :=
  match query.source with
  | .manual => (manualCandidates db query.filters (mode ≠ .keywordOnly)).map manualRow
  | .ticket => (ticketCandidates db query.filters query.verifiedOnly).map (ticketRow query.now)
  | _ => (caseCandidates db query.filters).map caseRow

def Query.request (query : Query) (db : Database) (mode : RetrievalMode) : Request where
  source := query.source
  rewrite := query.rewrite
  filters := query.filters.toFilters
  rows := candidateRows db query mode
  cachedVector := query.cachedVector
  topK := query.topK
  scoreThreshold := query.scoreThreshold

/-! ## Keywords -/

/-- `LightweightKeywordRetriever`: its tokens, and the score of a row among others. -/
structure KeywordRetriever where
  tokenize : String → List String
  score : String → List String → SourceType → List Row → Row → Rat

/-- `rank` -/
def KeywordRetriever.rank (keyword : KeywordRetriever) (query : String) (exactTerms : List String)
    (source : SourceType) (rows : List Row) (topK : Nat) : List (Row × Rat) :=
  if keyword.tokenize query = [] ∨ rows = [] then []
  else
    let scored := (rows.map fun row => (row, keyword.score query exactTerms source rows row)).filter
      fun scored => 0 < scored.2
    let maximum := (scored.map Prod.snd).foldl max 0
    ((scored.insertionSort fun a b => b.2 ≤ a.2).take topK).map
      fun (row, score) => (row, score / maximum)

/-- The service with this retriever. -/
def RetrievalService.ranking (service : RetrievalService) (keyword : KeywordRetriever) :
    RetrievalService :=
  { service with rank := keyword.rank }

/-- `search`, with its candidate query. -/
def searchTables (service : RetrievalService) (keyword : KeywordRetriever) (ports : Ports)
    (db : Database) (query : Query) (mode : RetrievalMode) : Except ProviderError RetrievalResult :=
  search (service.ranking keyword) ports (query.request db mode) mode

/-! ## Admitted rows -/

/-- **What MySQL admits**: effective chunks, of approved, effective and indexed documents unless only
keywords are searched for; verified tickets; active, approved and indexed cases of other sessions. -/
def Admitted (db : Database) (query : Query) (mode : RetrievalMode) (row : Row) : Prop :=
  match query.source with
  | .manual => ∃ chunk ∈ db.chunks, row = manualRow chunk ∧ chunk.effective = true ∧
      (mode ≠ .keywordOnly → ∃ document ∈ db.documents,
        document.docId = chunk.docId ∧ document.version = chunk.version ∧
        document.reviewStatus = "APPROVED" ∧ document.effective = true ∧
        document.indexStatus = .indexed)
  | .ticket => ∃ ticket ∈ db.tickets, row = ticketRow query.now ticket ∧
      (query.verifiedOnly = true → ticket.isVerified = true)
  | _ => ∃ case ∈ db.cases, row = caseRow case ∧ case.reviewStatus = .approved ∧
      case.isActive = true ∧ (case.indexStatus = .indexed ∨ case.indexStatus = .degraded) ∧
      ∀ id ∈ Text.truthy query.filters.excludeSessionId, case.sourceSessionId ≠ id

theorem manualCandidates_admitted {db : Database} {filters : SearchFilters} {strongOnly : Bool}
    {chunk : ManualChunkModel} (h : chunk ∈ manualCandidates db filters strongOnly) :
    chunk ∈ db.chunks ∧ chunk.effective = true ∧
      (strongOnly = true → ∃ document ∈ db.documents, strongDocument chunk document = true) := by
  unfold manualCandidates at h
  cases strongOnly with
  | false =>
      rw [if_neg Bool.false_ne_true, List.mem_filter, decide_eq_true_iff] at h
      obtain ⟨hmem, -, -, -, -, heffective, -⟩ := h
      exact ⟨hmem, heffective, fun hstrong => by cases hstrong⟩
  | true =>
      rw [if_pos rfl, List.mem_flatMap] at h
      obtain ⟨chunk', hchunk, hjoined⟩ := h
      obtain ⟨document, hdocument, rfl⟩ := List.mem_map.mp hjoined
      obtain ⟨hmem, hstrong⟩ := List.mem_filter.mp hdocument
      rw [List.mem_filter, decide_eq_true_iff] at hchunk
      obtain ⟨hmem', -, -, -, -, heffective, -⟩ := hchunk
      exact ⟨hmem', heffective, fun _ => ⟨document, hmem, hstrong⟩⟩

theorem caseCandidates_admitted {db : Database} {filters : SearchFilters} {row : Row}
    (h : row ∈ (caseCandidates db filters).map caseRow) :
    ∃ case ∈ db.cases, row = caseRow case ∧ case.reviewStatus = .approved ∧
      case.isActive = true ∧ (case.indexStatus = .indexed ∨ case.indexStatus = .degraded) ∧
      ∀ id ∈ Text.truthy filters.excludeSessionId, case.sourceSessionId ≠ id := by
  obtain ⟨case, hcase, rfl⟩ := List.mem_map.mp h
  obtain ⟨hmem, hwhere⟩ := List.mem_filter.mp hcase
  obtain ⟨hstatus, hindex, hactive, -, -, -, -, hsession⟩ := of_decide_eq_true hwhere
  refine ⟨case, hmem, rfl, hstatus, hactive, hindex, fun id hid => ?_⟩
  rw [Option.mem_def.mp hid] at hsession
  exact of_decide_eq_true hsession

/-- Every candidate row is admitted. -/
theorem admitted_of_mem {db : Database} {query : Query} {mode : RetrievalMode} {row : Row}
    (h : row ∈ candidateRows db query mode) : Admitted db query mode row := by
  unfold candidateRows at h
  unfold Admitted
  cases hsource : query.source with
  | manual =>
      rw [hsource] at h
      obtain ⟨chunk, hchunk, rfl⟩ := List.mem_map.mp h
      obtain ⟨hmem, heffective, hstrong⟩ := manualCandidates_admitted hchunk
      refine ⟨chunk, hmem, rfl, heffective, fun hmode => ?_⟩
      obtain ⟨document, hdocument, hmatch⟩ := hstrong (decide_eq_true hmode)
      exact ⟨document, hdocument, of_decide_eq_true hmatch⟩
  | ticket =>
      rw [hsource] at h
      obtain ⟨ticket, hticket, rfl⟩ := List.mem_map.mp h
      obtain ⟨hmem, hwhere⟩ := List.mem_filter.mp hticket
      exact ⟨ticket, hmem, rfl, (of_decide_eq_true hwhere).2.2.2.1⟩
  | case =>
      rw [hsource] at h
      exact caseCandidates_admitted h
  | graph =>
      rw [hsource] at h
      exact caseCandidates_admitted h

/-- `rank` returns rows that it was given. -/
theorem mem_of_mem_rank {keyword : KeywordRetriever} {query : String} {exactTerms : List String}
    {source : SourceType} {rows : List Row} {topK : Nat} {scored : Row × Rat}
    (h : scored ∈ keyword.rank query exactTerms source rows topK) : scored.1 ∈ rows := by
  unfold KeywordRetriever.rank at h
  split at h
  · cases h
  · obtain ⟨⟨row, score⟩, htaken, rfl⟩ := List.mem_map.mp h
    have hsorted := (List.mem_insertionSort _).mp (List.mem_of_mem_take htaken)
    obtain ⟨row', hrow', hpair⟩ := List.mem_map.mp (List.mem_of_mem_filter hsorted)
    cases hpair
    exact hrow'

/-! ## The stages -/

/-- The candidate has the identity and the text of the row. -/
def FromRow (source : SourceType) (row : Row) (c : RetrievalCandidate) : Prop :=
  c.identity = (source, row.sourceId, row.chunkId.getD "") ∧
    c.contentSummary = String.ofList (row.content.toList.take 1200)

/-- The candidate comes from one of the rows. -/
def Stems (source : SourceType) (rows : List Row) (c : RetrievalCandidate) : Prop :=
  ∃ row ∈ rows, FromRow source row c

theorem Stems.sourceType {source : SourceType} {rows : List Row} {c : RetrievalCandidate}
    (h : Stems source rows c) : c.sourceType = source := by
  obtain ⟨row, -, hidentity, -⟩ := h
  exact congrArg Prod.fst hidentity

theorem stems_candidate {source : SourceType} {rows : List Row} {row : Row} (h : row ∈ rows)
    (keyword vector : Option Rat) : Stems source rows (candidate source row keyword vector) :=
  ⟨row, h, rfl, rfl⟩

theorem stems_keyword {service : RetrievalService} {keyword : KeywordRetriever} {request : Request}
    {c : RetrievalCandidate} (h : c ∈ keywordCandidates (service.ranking keyword) request) :
    Stems request.source request.rows c := by
  obtain ⟨⟨row, score⟩, hranked, rfl⟩ := List.mem_map.mp h
  exact stems_candidate (mem_of_mem_rank hranked) _ _

/-- Whatever the index answers, its hits count only for rows that are there. -/
theorem stems_vector {service : RetrievalService} {request : Request}
    {embed : List String → Except ProviderError (List (List Rat))}
    {find : SourceType → List Rat → List String → Nat → Except ProviderError (List Hit)}
    {vector : List RetrievalCandidate} (h : vectorChannel service request embed find = .ok vector) :
    ∀ c ∈ vector, Stems request.source request.rows c := by
  unfold vectorChannel at h
  cases hquery : queryVector request embed with
  | error e =>
      rw [hquery] at h
      cases h
  | ok q =>
      cases hfind : find request.source q (request.rows.map Row.id) service.vectorTopN with
      | error e =>
          simp only [hquery, hfind, bind, Except.bind] at h
          cases h
      | ok hits =>
          simp only [hquery, hfind, bind, Except.bind, pure, Except.pure, Except.ok.injEq] at h
          subst h
          intro c hc
          obtain ⟨hit, -, hrow⟩ := List.mem_filterMap.mp hc
          obtain ⟨row, hfound, rfl⟩ := Option.map_eq_some_iff.mp hrow
          have hmem := List.mem_of_find?_eq_some hfound
          exact ⟨row, List.mem_reverse.mp hmem, rfl, rfl⟩

theorem stems_vectorStage {service : RetrievalService} {ports : Ports} {request : Request}
    {mode : RetrievalMode} {vector : List RetrievalCandidate} {lost : List String}
    (h : vectorStage service ports request mode = .ok (vector, lost)) :
    ∀ c ∈ vector, Stems request.source request.rows c := by
  have hnone : ∀ c ∈ ([] : List RetrievalCandidate), Stems request.source request.rows c :=
    fun c hc => by cases hc
  unfold vectorStage at h
  split at h
  · cases h
    exact hnone
  · split at h
    · split at h
      · next hchannel =>
          cases h
          exact stems_vector hchannel
      · split at h
        · cases h
          exact hnone
        · cases h
    · cases h
      exact hnone

/-- A candidate that an upsert leaves was there before, or is the new one. -/
theorem forall_mem_withVector {P : RetrievalCandidate → Prop} {c : RetrievalCandidate}
    (hvector : ∀ x embedding, P x → P { x with vectorScore := c.vectorScore, embedding := embedding })
    {merged : List RetrievalCandidate} (hmerged : ∀ x ∈ merged, P x) (hc : P c) :
    ∀ x ∈ withVector merged c, P x := by
  intro x hx
  unfold withVector at hx
  split at hx
  · next existing hexisting =>
      rcases Table.mem_upsert hx with hold | rfl
      · exact hmerged x hold
      · exact hvector _ _ (hmerged existing (Table.get_eq_some hexisting).1)
  · rcases Table.mem_upsert hx with hold | rfl
    · exact hmerged x hold
    · exact hc

/-- What the normalized scores and the embeddings cannot spoil holds of the merged candidates if it
holds of those of the channels. -/
theorem forall_mem_merge_of_scores {P : RetrievalCandidate → Prop} {S : Rat → Prop}
    (hscores : ∀ values, ∀ score ∈ normalizeScores values, S score)
    (hkeyword : ∀ c score, S score → P c → P { c with keywordScore := some score })
    (hvector : ∀ c score embedding, S score → P c →
      P { c with vectorScore := some score, embedding := embedding })
    {limit : Nat} {keyword vector : List RetrievalCandidate} (hk : ∀ c ∈ keyword, P c)
    (hv : ∀ c ∈ vector, P c) : ∀ c ∈ mergeCandidates limit keyword vector, P c := by
  intro c hc
  have hall := List.mem_of_mem_take hc
  revert c
  -- both loops keep `P` of what has been merged
  refine fun c _ hall => List.foldlRecOn (motive := fun merged => ∀ c ∈ merged, P c) _ _ ?_ ?_ c hall
  · refine List.foldlRecOn (motive := fun merged => ∀ c ∈ merged, P c) _ _ ?_ ?_
    · exact fun c hc => by cases hc
    · intro merged hmerged x hx c hc
      rcases Table.mem_upsert hc with hold | rfl
      · exact hmerged c hold
      · exact hkeyword _ _ (hscores _ _ (List.of_mem_zip hx).2) (hk x.1 (List.of_mem_zip hx).1)
  · intro merged hmerged x hx
    have hscore := hscores _ _ (List.of_mem_zip hx).2
    exact forall_mem_withVector (fun y embedding hy => hvector y _ embedding hscore hy) hmerged
      (hvector _ _ x.1.embedding hscore (hv x.1 (List.of_mem_zip hx).1))

/-- What scores and embeddings do not matter for holds of the merged candidates if it holds of those
of the channels. -/
theorem forall_mem_merge {P : RetrievalCandidate → Prop}
    (hkeyword : ∀ c score, P c → P { c with keywordScore := score })
    (hvector : ∀ c score embedding, P c → P { c with vectorScore := score, embedding := embedding })
    {limit : Nat} {keyword vector : List RetrievalCandidate} (hk : ∀ c ∈ keyword, P c)
    (hv : ∀ c ∈ vector, P c) : ∀ c ∈ mergeCandidates limit keyword vector, P c :=
  forall_mem_merge_of_scores (S := fun _ => True) (fun _ _ _ => trivial)
    (fun c score _ => hkeyword c (some score))
    (fun c score embedding _ => hvector c (some score) embedding) hk hv

/-- What a loop that may raise has put together. -/
theorem exists_of_mem_mapM {α β ε : Type} {f : α → Except ε β} {xs : List α} {ys : List β}
    (h : xs.mapM f = .ok ys) : ∀ y ∈ ys, ∃ x ∈ xs, f x = .ok y := by
  induction xs generalizing ys with
  | nil =>
      cases h
      exact fun y hy => by cases hy
  | cons x xs ih =>
      rw [List.mapM_cons] at h
      cases hx : f x with
      | error e =>
          rw [hx] at h
          cases h
      | ok y =>
          cases hxs : xs.mapM f with
          | error e =>
              rw [hx, hxs] at h
              cases h
          | ok rest =>
              rw [hx, hxs] at h
              cases h
              intro y' hy'
              rcases List.mem_cons.mp hy' with rfl | hrest
              · exact ⟨x, List.mem_cons_self .., hx⟩
              · obtain ⟨x', hx', hy⟩ := ih hxs y' hrest
                exact ⟨x', List.mem_cons_of_mem _ hx', hy⟩

theorem stems_reranked {request : Request}
    {rerank : String → List (String × String) → Except ProviderError (List (String × Rat))}
    {source : SourceType} {rows : List Row} {merged result : List RetrievalCandidate}
    (h : reranked request rerank merged = .ok result) (hmerged : ∀ c ∈ merged, Stems source rows c) :
    ∀ c ∈ result, Stems source rows c := by
  unfold reranked at h
  cases hscores : rerank (searchQuery request)
      (merged.map fun c => (identityText c, c.contentSummary)) with
  | error e =>
      rw [hscores] at h
      cases h
  | ok scores =>
      simp only [hscores, bind, Except.bind] at h
      intro c hc
      obtain ⟨c', hc', hscored⟩ := exists_of_mem_mapM h c hc
      split at hscored
      · cases hscored
        exact hmerged c' hc'
      · cases hscored

theorem stems_rerankStage {ports : Ports} {request : Request} {mode : RetrievalMode}
    {source : SourceType} {rows : List Row} {merged result : List RetrievalCandidate}
    {lost : List String} (h : rerankStage ports request mode merged = .ok (result, lost))
    (hmerged : ∀ c ∈ merged, Stems source rows c) : ∀ c ∈ result, Stems source rows c := by
  unfold rerankStage at h
  split at h
  · split at h
    · split at h
      · next hreranked =>
          cases h
          exact stems_reranked hreranked hmerged
      · split at h
        · cases h
          exact hmerged
        · cases h
    · cases h
      exact hmerged
  · cases h
    exact hmerged

/-! ## Selection -/

/-- By score, the best first. -/
abbrev Descending (candidates : List RetrievalCandidate) : Prop :=
  candidates.Pairwise fun a b => b.finalScore ≤ a.finalScore

theorem descending_byFinalScore (candidates : List RetrievalCandidate) :
    Descending (byFinalScore candidates) := by
  have : Std.Total fun a b : RetrievalCandidate => b.finalScore ≤ a.finalScore :=
    ⟨fun a b => le_total b.finalScore a.finalScore⟩
  have : IsTrans RetrievalCandidate fun a b => b.finalScore ≤ a.finalScore :=
    ⟨fun a b c hab hbc => hbc.trans hab⟩
  exact List.pairwise_insertionSort _ candidates

/-- What the loop selects: some of the candidates in their order, good enough and each once. -/
theorem selectCandidates_spec {d : Diversity} {topK : Nat} {q : Rat}
    (rest : List RetrievalCandidate) :
    ∀ selected, (∀ c ∈ selected, q ≤ c.finalScore) →
      (selected.map RetrievalCandidate.identity).Nodup →
      ∃ picked, selectCandidates d topK q selected rest = selected ++ picked ∧ picked.Sublist rest ∧
        (∀ c ∈ selected ++ picked, q ≤ c.finalScore) ∧
        ((selected ++ picked).map RetrievalCandidate.identity).Nodup := by
  induction rest with
  | nil =>
      intro selected hgood hnodup
      refine ⟨[], (List.append_nil _).symm, List.Sublist.refl _, ?_, ?_⟩
      · rwa [List.append_nil]
      · rwa [List.append_nil]
  | cons c rest ih =>
      intro selected hgood hnodup
      rw [selectCandidates]
      split
      · obtain ⟨picked, heq, hsub, hgood', hnodup'⟩ := ih selected hgood hnodup
        exact ⟨picked, heq, hsub.cons c, hgood', hnodup'⟩
      · next hkept =>
          rw [leftOut, decide_eq_true_iff, not_or, not_or, not_lt] at hkept
          obtain ⟨hquality, hnew, -⟩ := hkept
          have hgood' : ∀ x ∈ selected ++ [c], q ≤ x.finalScore := by
            intro x hx
            rcases List.mem_append.mp hx with hold | hlast
            · exact hgood x hold
            · rw [List.mem_singleton.mp hlast]
              exact hquality
          have hnodup' : ((selected ++ [c]).map RetrievalCandidate.identity).Nodup := by
            rw [List.map_append, List.nodup_append']
            refine ⟨hnodup, by simp, ?_⟩
            simpa [List.disjoint_singleton] using hnew
          split
          · exact ⟨[c], rfl, (List.nil_sublist rest).cons_cons c, hgood', hnodup'⟩
          · obtain ⟨picked, heq, hsub, hgood'', hnodup''⟩ := ih (selected ++ [c]) hgood' hnodup'
            rw [List.append_assoc] at heq hgood'' hnodup''
            exact ⟨c :: picked, heq, hsub.cons_cons c, hgood'', hnodup''⟩

/-- Candidates of one source leave nothing to exchange. -/
theorem deduplicate_spec {d : Diversity} {topK : Nat} {q : Rat} {source : SourceType}
    {candidates : List RetrievalCandidate} (hsource : ∀ c ∈ candidates, c.sourceType = source) :
    (deduplicateAndDiversify d topK q candidates).Sublist (byFinalScore candidates) ∧
      (∀ c ∈ deduplicateAndDiversify d topK q candidates, q ≤ c.finalScore) ∧
      ((deduplicateAndDiversify d topK q candidates).map RetrievalCandidate.identity).Nodup := by
  obtain ⟨picked, heq, hsub, hgood, hnodup⟩ := @selectCandidates_spec d topK q
    (byFinalScore candidates) [] (fun c hc => by cases hc) List.nodup_nil
  rw [List.nil_append] at heq hgood hnodup
  suffices hpicked : deduplicateAndDiversify d topK q candidates = picked by
    rw [hpicked]
    exact ⟨hsub, hgood, hnodup⟩
  unfold deduplicateAndDiversify
  simp only [heq]
  split
  · next hmany =>
      have hnone : (byFinalScore candidates).find? (fun c =>
          c.sourceType ∉ (picked.map RetrievalCandidate.sourceType).dedup ∧ q ≤ c.finalScore ∧
            c.identity ∉ picked.map RetrievalCandidate.identity) = none := by
        rw [List.find?_eq_none]
        intro c hc halternate
        obtain ⟨hother, -⟩ := of_decide_eq_true halternate
        obtain ⟨p, hp⟩ := List.exists_mem_of_length_pos (by omega : 0 < picked.length)
        have hsame : p.sourceType = c.sourceType := by
          rw [hsource p ((List.mem_insertionSort _).mp (hsub.subset hp)),
            hsource c ((List.mem_insertionSort _).mp hc)]
        refine hother (List.mem_dedup.mpr ?_)
        rw [← hsame]
        exact List.mem_map_of_mem hp
      rw [hnone]
  · rfl

/-- The evidence of a result, of candidates that come from the rows. -/
theorem packed_spec {service : RetrievalService} {request : Request} {rows : List Row}
    {merged : List RetrievalCandidate} (degraded : List String)
    (hmerged : ∀ c ∈ merged, Stems request.source rows c) :
    (∀ item ∈ (packed service request merged degraded).rankedEvidence,
      request.scoreThreshold ≤ item.finalScore ∧ Stems request.source rows item) ∧
    ((packed service request merged degraded).rankedEvidence.map
      RetrievalCandidate.identity).Nodup ∧
    Descending (packed service request merged degraded).rankedEvidence ∧
    (packed service request merged degraded).rankedEvidence.length ≤
      if request.source = .ticket then 2 else 3 := by
  let scored := merged.map (scoreCandidate service.weights service.lower request.filters)
  have hscored : ∀ c ∈ scored, Stems request.source rows c := by
    intro c hc
    obtain ⟨c', hc', rfl⟩ := List.mem_map.mp hc
    exact hmerged c' hc'
  obtain ⟨hsub, hgood, hnodup⟩ := @deduplicate_spec service.diversity request.topK
    request.scoreThreshold request.source scored fun c hc => (hscored c hc).sourceType
  -- the evidence is a part of the selection, without the embeddings
  let final := deduplicateAndDiversify service.diversity request.topK request.scoreThreshold scored
  let kept := (final.filter fun c => c.sourceType = request.source.evidence).take
    (if request.source = .ticket then 2 else 3)
  have hevidence : (packed service request merged degraded).rankedEvidence =
      kept.map fun c => { c with embedding := none } := by
    exact List.map_take.symm
  have hkept : kept.Sublist final := (List.take_sublist _ _).trans List.filter_sublist
  rw [hevidence]
  refine ⟨?_, ?_, ?_, ?_⟩
  · intro item hitem
    obtain ⟨c, hc, rfl⟩ := List.mem_map.mp hitem
    have hfinal := hkept.subset hc
    refine ⟨hgood c hfinal, ?_⟩
    exact hscored c ((List.mem_insertionSort _).mp (hsub.subset hfinal))
  · rw [List.map_map]
    exact (hkept.map RetrievalCandidate.identity).nodup hnodup
  · have hdescending : Descending kept :=
      (descending_byFinalScore scored).sublist (hkept.trans hsub)
    exact List.pairwise_map.mpr hdescending
  · rw [List.length_map]
    exact List.length_take_le _ _

/-- A search that returns has gone through both of its stages. -/
theorem search_eq_ok {service : RetrievalService} {ports : Ports} {request : Request}
    {mode : RetrievalMode} {result : RetrievalResult}
    (h : search service ports request mode = .ok result) :
    ∃ vector lost merged lost', vectorStage service ports request mode = .ok (vector, lost) ∧
      rerankStage ports request mode (mergeCandidates service.rerankInputSize
        (if mode = .vectorOnly then [] else keywordCandidates service request) vector) =
        .ok (merged, lost') ∧
      result = packed service request merged (request.rewrite.warnings ++ lost ++ lost') := by
  unfold search at h
  generalize (if mode = .vectorOnly then [] else keywordCandidates service request) = keyword at h ⊢
  cases hvector : vectorStage service ports request mode with
  | error e =>
      rw [hvector] at h
      cases h
  | ok found =>
      rw [hvector] at h
      simp only [bind, Except.bind] at h
      by_cases hfailed : keyword = [] ∧ found.1 = [] ∧ mode = .vectorOnly ∧ request.rows ≠ []
      · rw [if_pos hfailed] at h
        cases h
      · rw [if_neg hfailed] at h
        cases hrerank : rerankStage ports request mode
          (mergeCandidates service.rerankInputSize keyword found.1) with
        | error e =>
            rw [hrerank] at h
            cases h
        | ok ranked =>
            rw [hrerank] at h
            cases h
            exact ⟨found.1, found.2, ranked.1, ranked.2, rfl, hrerank, rfl⟩

/-- **A search returns what MySQL has admitted**, good enough, each row once and the best first,
whatever the vector index and the reranker answer. -/
theorem search_admits (service : RetrievalService) (keyword : KeywordRetriever) (ports : Ports)
    (db : Database) (query : Query) (mode : RetrievalMode) {result : RetrievalResult}
    (h : searchTables service keyword ports db query mode = .ok result) :
    (∀ item ∈ result.rankedEvidence, query.scoreThreshold ≤ item.finalScore ∧
      ∃ row ∈ candidateRows db query mode, Admitted db query mode row ∧
        FromRow query.source row item) ∧
    (result.rankedEvidence.map RetrievalCandidate.identity).Nodup ∧
    Descending result.rankedEvidence ∧
    result.rankedEvidence.length ≤ if query.source = .ticket then 2 else 3 := by
  obtain ⟨vector, lost, merged, lost', hstage, hrerank, rfl⟩ := search_eq_ok h
  have hkeywords : ∀ c ∈ (if mode = .vectorOnly then []
      else keywordCandidates (service.ranking keyword) (query.request db mode)),
      Stems query.source (candidateRows db query mode) c := by
    intro c hc
    split at hc
    · cases hc
    · exact stems_keyword hc
  have hmerged := stems_rerankStage hrerank
    (forall_mem_merge (fun _ _ hc => hc) (fun _ _ _ hc => hc) hkeywords (stems_vectorStage hstage))
  obtain ⟨hitems, hnodup, hdescending, hlength⟩ := @packed_spec (service.ranking keyword)
    (query.request db mode) (candidateRows db query mode) merged
    (query.rewrite.warnings ++ lost ++ lost') hmerged
  refine ⟨fun item hitem => ?_, hnodup, hdescending, hlength⟩
  obtain ⟨hscore, row, hrow, hfrom⟩ := hitems item hitem
  exact ⟨hscore, row, hrow, admitted_of_mem hrow, hfrom⟩

/-- A manual with one chunk, and an index that answers with a hit of its own. -/
def sampleDatabase : Database where
  chunks := [⟨"chunk-1", "manual-1", "PCS", none, none, some "风扇异常", "风扇", some 3, "fault",
    "check the fan", "1", true, true⟩]
  documents := [⟨"manual-1", "1", "PCS", none, none, "APPROVED", true, .indexed, none, none⟩]
  tickets := []
  cases := []

def sampleQuery : Query where
  source := .manual
  rewrite := ⟨"fan speed low", "fan speed low", ["fan"], []⟩
  filters := {}
  cachedVector := none
  topK := 5
  scoreThreshold := 9 / 20
  verifiedOnly := true
  now := 0

def stalePorts : Ports where
  embedding := some fun texts => .ok (texts.map fun _ => [1])
  milvus := some fun _ _ _ _ => .ok [⟨"chunk-0", 1, none⟩, ⟨"chunk-1", 1 / 2, none⟩]
  reranker := none

def everyRow : KeywordRetriever := ⟨fun text => [text], fun _ _ _ _ _ => 1⟩

/-- The hit that is no row is not returned. -/
theorem stale_hit_dropped : ∃ result,
    searchTables keywordService everyRow stalePorts sampleDatabase sampleQuery .hybrid =
      .ok result ∧
    result.rankedEvidence ≠ [] ∧
    ∀ item ∈ result.rankedEvidence, 9 / 20 ≤ item.finalScore ∧
      ∃ row ∈ candidateRows sampleDatabase sampleQuery .hybrid,
        Admitted sampleDatabase sampleQuery .hybrid row ∧ FromRow .manual row item := by
  cases hsearch : searchTables keywordService everyRow stalePorts sampleDatabase sampleQuery .hybrid with
  | error e =>
      have hok : (searchTables keywordService everyRow stalePorts sampleDatabase sampleQuery
        .hybrid).isOk = true := by
        decide +kernel
      rw [hsearch] at hok
      cases hok
  | ok result =>
      have hsome : ((searchTables keywordService everyRow stalePorts sampleDatabase sampleQuery
          .hybrid).toOption.any fun r => r.rankedEvidence ≠ []) = true := by
        decide +kernel
      rw [hsearch] at hsome
      exact ⟨result, rfl, of_decide_eq_true hsome, (search_admits keywordService everyRow stalePorts
        sampleDatabase sampleQuery .hybrid hsearch).1⟩

end EnergyAgent.Retrieval
