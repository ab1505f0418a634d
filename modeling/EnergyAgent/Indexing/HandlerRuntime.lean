import EnergyAgent.Indexing.Repository
import EnergyAgent.Lib.Effect

/-!
# `IndexHandlerRuntime`

The handlers of index messages, as programs over the stored state. What a call to the embedding
service, the vector store or the graph does is a parameter (`IndexPorts`); everything the handlers
themselves decide is here.

The pieces of `_case` that another worker can get in between (the status check, the vector write,
the graph projection, `_set_case_index`, `_queue_superseded_case`) are definitions of their own: the
handlers run them in one go, `Indexing.Concurrent` one at a time.
-/

namespace EnergyAgent.Indexing

open EnergyAgent.Lib EnergyAgent.Persistence

/-! ## Errors and ports -/

/-- What a handler raises. -/
inductive HandlerError
  /-- `StaleIndexEventError("INDEX_EVENT_STALE")`. -/
  | stale
  /-- `PermanentIndexError(code)`. -/
  | permanent (code : String)
  /-- Any other `Exception`: its `code` attribute (or the default) and its type name. -/
  | failure (code typeName : String)
  /-- `CancelledError`, which `except Exception` does not catch. -/
  | cancelled
  deriving DecidableEq, Repr

/-- An exception without a `code` attribute. -/
def HandlerError.uncoded (typeName : String) : HandlerError :=
  .failure "INDEX_PROVIDER_UNAVAILABLE" typeName

/-- An exception of the embedding service, the vector store or the broker: none of them raises one
of the handlers' own two. -/
def HandlerError.fromPort : HandlerError → Bool
  | .stale | .permanent _ => false
  | .failure _ _ | .cancelled => true

abbrev PortError := { e : HandlerError // e.fromPort = true }

/-- What a call to the vector store did. -/
inductive CallOutcome
  | applied
  | raised (e : PortError)
  /-- The store took the change, and the caller saw an error all the same. -/
  | appliedThenRaised (e : PortError)
  deriving DecidableEq

inductive Collection
  | manual | ticket | case
  deriving DecidableEq, Repr

/-- The arguments of `GraphService.project_case`. -/
structure CaseProjection where
  caseId : String
  caseVersion : Nat
  deviceType : String
  alarmName : String
  faultCause : String
  resolutionAction : String
  deriving DecidableEq, Repr

/-- A graph provider over graph states `γ`. -/
structure GraphPort (γ : Type) where
  projectCase : CaseProjection → γ → Except HandlerError Unit × γ
  tombstoneCase : String → γ → Except HandlerError Unit × γ

/-- An id drawn by `new_id`: a UUID, so in particular not the empty string. -/
abbrev NewId := { s : String // s ≠ "" }

/-- What the handlers are constructed with. The vector store answers row by row: an upsert of
several rows is applied when it applies each of them. -/
structure IndexPorts (γ : Type) where
  embed : String → Except PortError Embedding
  vectorUpsert : Collection → VectorRow → CallOutcome
  vectorDelete : String → CallOutcome
  graph : Option (GraphPort γ)
  repository : Bool
  newJobId : IndexJobMessage → NewId

structure HandlerResult where
  status : IndexJobStatus
  graphDegraded : Bool
  deriving DecidableEq, Repr

variable {γ : Type}

/-- What a port answers, as a handler sees it. -/
def ofPort {α : Type} : Except PortError α → Except HandlerError α
  | .ok a => .ok a
  | .error e => .error e.val

/-- `embed_texts` on one text. -/
def IndexPorts.embedText (ports : IndexPorts γ) (text : String) : Except HandlerError Embedding :=
  ofPort (ports.embed text)

/-- A handler. -/
abbrev Handler (γ α : Type) := Prog (World γ) HandlerError α

/-! ## The vector store -/

def upsertCollection : Collection → List VectorRow → World γ → World γ
  | .manual, rows, w => { w with vectors.manual := upsertRows w.vectors.manual rows }
  | .ticket, rows, w => { w with vectors.ticket := upsertRows w.vectors.ticket rows }
  | .case, rows, w => { w with vectors.case := upsertRows w.vectors.case rows }

/-- The answer to an upsert of several rows: the first one that is not `applied`. -/
def upsertOutcome (ports : IndexPorts γ) (collection : Collection) : List VectorRow → CallOutcome
  | [] => .applied
  | row :: rows =>
      match ports.vectorUpsert collection row with
      | .applied => upsertOutcome ports collection rows
      | outcome => outcome

/-- A call that changes the store by `f`, with the given outcome. -/
def callOutcome (outcome : CallOutcome) (f : World γ → World γ) : Handler γ Unit :=
  match outcome with
  | .applied => Prog.write f
  | .raised e => Prog.raise e.val
  | .appliedThenRaised e => do
      Prog.write f
      Prog.raise e.val

/-- `milvus.upsert`. -/
def vectorUpsert (ports : IndexPorts γ) (collection : Collection) (rows : List VectorRow) :
    Handler γ Unit :=
  callOutcome (upsertOutcome ports collection rows) (upsertCollection collection rows)

/-- Take the vector of a case out of the case collection. -/
def dropCaseVector (caseId : String) (w : World γ) : World γ :=
  { w with vectors.case := Table.delete VectorRow.id w.vectors.case caseId }

/-- `milvus.delete("case", [case_id])`. -/
def vectorDelete (ports : IndexPorts γ) (caseId : String) : Handler γ Unit :=
  callOutcome (ports.vectorDelete caseId) (dropCaseVector caseId)

/-- `try: x except Exception: h`. -/
def catchException {α : Type} (x h : Handler γ α) : Handler γ α :=
  Prog.handle x (fun e => if e = .cancelled then Prog.raise e else h)

/-! ## Manuals and tickets -/

def manualVector (document : ManualDocumentModel) (chunk : ManualChunkModel)
    (embedding : Embedding) : VectorRow where
  id := chunk.chunkId
  sourceId := document.docId
  deviceType := document.deviceType
  deviceModel := document.deviceModel.getD ""
  manufacturer := document.manufacturer.getD ""
  alarmName := chunk.alarmName.getD ""
  indexGeneration := document.indexGeneration.getD ""
  verified := true
  effective := true
  caseVersion := none
  closeTime := none
  embedding := embedding

/-- The two `UPDATE`s that close `_manual`. -/
def indexManual (document : ManualDocumentModel) (docId : String) (w : World γ) : World γ :=
  { w with
    documents := w.documents.map (fun row =>
      if row.docId = docId ∧ row.version = document.version ∧ row.effective then
        { row with indexStatus := .indexed, indexErrorCode := none }
      else row)
    chunks := w.chunks.map (fun chunk =>
      if chunk.docId = docId ∧ chunk.version = document.version then { chunk with indexed := true }
      else chunk) }

/-- `_manual`. -/
def handleManual (ports : IndexPorts γ) (event : IndexJobMessage) : Handler γ HandlerResult := do
  let found ← Prog.read (fun w => w.documents.find? (fun row =>
    row.docId = event.entityId ∧ row.indexGeneration = some event.entityVersion))
  match found with
  | none => Prog.raise (.permanent "INDEX_ENTITY_NOT_FOUND")
  | some document =>
      Prog.raiseIf (document.effective = false ∨ document.reviewStatus ≠ "APPROVED" ∨
        document.indexGeneration ≠ some event.entityVersion) .stale
      let chunks ← Prog.read (fun w => w.chunks.filter (fun chunk =>
        chunk.docId = event.entityId ∧ chunk.version = document.version))
      let vectors ← Prog.lift (chunks.mapM (fun chunk =>
        ports.embedText ((Text.truthy chunk.embeddingText).getD chunk.summaryOrContent)))
      vectorUpsert ports .manual (List.zipWith (manualVector document) chunks vectors)
      Prog.write (indexManual document event.entityId)
      pure ⟨.indexed, false⟩

/-- The checks `_ticket` and `_ticket_batch` make on the row they read. -/
def checkTicket (event : IndexJobMessage) :
    Option MaintenanceTicketModel → Except HandlerError MaintenanceTicketModel
  | none => .error (.permanent "INDEX_ENTITY_NOT_FOUND")
  | some ticket =>
      if ticket.indexGeneration ≠ some event.entityVersion ∨ ticket.isVerified = false then
        .error .stale
      else .ok ticket

/-- The text embedded for a ticket. -/
def ticketText (ticket : MaintenanceTicketModel) : String :=
  let parts := [ticket.deviceModel, ticket.alarmName, ticket.faultSymptom, ticket.rootCause,
    ticket.actionTaken].filter (· ≠ "")
  Text.strip (String.ofList (Text.collapseSpaces false (Text.join " " parts).toList))

def ticketVector (event : IndexJobMessage) (ticket : MaintenanceTicketModel)
    (embedding : Embedding) : VectorRow where
  id := ticket.ticketId
  sourceId := ticket.ticketId
  deviceType := ""
  deviceModel := ticket.deviceModel
  manufacturer := ticket.manufacturer.getD ""
  alarmName := ticket.alarmName
  indexGeneration := event.entityVersion
  verified := true
  effective := true
  caseVersion := none
  closeTime := some (ticket.closeTime.getD 0)
  embedding := embedding

/-- The values the `UPDATE` of `_ticket` writes; it skips tickets that are no longer verified. -/
def indexTicketRow (text : String) (ticket : MaintenanceTicketModel) : MaintenanceTicketModel :=
  if ticket.isVerified then
    { ticket with
      embeddingText := some text
      indexStatus := .indexed
      indexErrorCode := none
      indexed := true }
  else ticket

/-- The `UPDATE` that closes `_ticket`. -/
def indexTicket (ticketId text : String) (w : World γ) : World γ :=
  w.updateTicket ticketId (indexTicketRow text)

/-- `_ticket`. -/
def handleTicket (ports : IndexPorts γ) (event : IndexJobMessage) : Handler γ HandlerResult := do
  let found ← Prog.read (·.getTicket event.entityId)
  let ticket ← Prog.lift (checkTicket event found)
  let vector ← Prog.lift (ports.embedText (ticketText ticket))
  vectorUpsert ports .ticket [ticketVector event ticket vector]
  Prog.write (indexTicket event.entityId (ticketText ticket))
  pure ⟨.indexed, false⟩

/-! ## Cases -/

/-- The checks `_case` makes on the row it reads. A tombstone needs a case that is withdrawn and
not active, any other operation an approved one. -/
def checkCase (event : IndexJobMessage) :
    Option DiagnosisCaseModel → Except HandlerError DiagnosisCaseModel
  | none => .error (.permanent "INDEX_ENTITY_NOT_FOUND")
  | some case =>
      if toString case.caseVersion ≠ event.entityVersion then .error .stale
      else if event.operation = .tombstone then
        if case.isActive ∨ case.reviewStatus.withdrawn = false then .error .stale else .ok case
      else if case.reviewStatus ≠ .approved then .error .stale
      else .ok case

/-- The text embedded for a case: the one stored, if not empty, else the parts joined. The join
fails on a row whose `resolution_steps` is the JSON value `null`. -/
def caseText (case : DiagnosisCaseModel) : Except HandlerError String :=
  match Text.truthy case.embeddingText with
  | some text => .ok text
  | none =>
      match case.resolutionSteps with
      | none => .error (.uncoded "TypeError")
      | some steps =>
          .ok (Text.join "\n" ([case.deviceType.getD "", case.deviceModel.getD "",
            case.alarmName.getD "", case.symptomSummary.getD "", case.timeseriesFeatures.getD "",
            case.rootCause, Text.join "；" steps].filter (· ≠ "")))

def caseVector (case : DiagnosisCaseModel) (embedding : Embedding) : VectorRow where
  id := case.caseId
  sourceId := case.caseId
  deviceType := case.deviceType.getD ""
  deviceModel := case.deviceModel.getD ""
  manufacturer := case.manufacturer.getD ""
  alarmName := case.alarmName.getD ""
  indexGeneration := "case-v" ++ toString case.caseVersion
  verified := true
  effective := true
  caseVersion := some case.caseVersion
  closeTime := none
  embedding := embedding

/-- `_projection`. -/
def projection (event : IndexJobMessage) (status : GraphProjectionStatus)
    (errorCode : Option String) (w : World γ) : World γ :=
  { w with
    projections := Table.upsert GraphProjectionModel.key w.projections
      { entityType := event.entityType
        entityId := event.entityId
        entityVersion := event.entityVersion
        status := status
        lastErrorCode := errorCode
        projected := status = .projected ∨ status = .tombstoned } }

/-- The values `_set_case_index` writes. -/
def indexRow (status : IndexStatus) (active : Bool) (embeddingText : Option String)
    (row : DiagnosisCaseModel) : DiagnosisCaseModel :=
  { row with
    indexStatus := status
    indexErrorCode := none
    isActive := active
    embeddingText := embeddingText.orElse (fun _ => row.embeddingText) }

/-- `_set_case_index`: an `UPDATE` by case id alone, whatever the row says by now. -/
def setCaseIndex (caseId : String) (status : IndexStatus) (active : Bool)
    (embeddingText : Option String) (w : World γ) : World γ :=
  w.updateCase caseId (indexRow status active embeddingText)

/-- The last step that is not blank. -/
def resolutionAction (steps : List String) : String :=
  match steps.reverse.find? (fun step => ¬ Text.isBlank step) with
  | some step => Text.strip step
  | none => ""

/-- Run a graph call on the graph part of the store. -/
def graphCall (call : γ → Except HandlerError Unit × γ) : Handler γ Unit :=
  fun w => ((call w.graph).1, { w with graph := (call w.graph).2 })

/-- `_project_case_graph`. -/
def projectCaseGraph (graph : GraphPort γ) (case : DiagnosisCaseModel) : Handler γ Unit :=
  match case.resolutionSteps with
  | none => Prog.raise (.uncoded "TypeError")
  | some steps => do
      let deviceType := Text.strip (case.deviceType.getD "")
      let alarmName := Text.strip (case.alarmName.getD "")
      let action := resolutionAction steps
      Prog.raiseIf (deviceType = "" ∨ alarmName = "" ∨ action = "") (.uncoded "ValueError")
      graphCall (graph.projectCase
        { caseId := case.caseId
          caseVersion := case.caseVersion
          deviceType := deviceType
          alarmName := alarmName
          faultCause := case.rootCause
          resolutionAction := action })

/-- The graph part of an upsert; the result is `graph_degraded`. -/
def projectCase (ports : IndexPorts γ) (event : IndexJobMessage) (case : DiagnosisCaseModel) :
    Handler γ Bool :=
  catchException
    (match ports.graph with
      | some graph => do
          projectCaseGraph graph case
          Prog.write (projection event .projected none)
          pure false
      | none => do
          Prog.write (projection event .degraded (some "GRAPH_DISABLED"))
          pure true)
    (do
      Prog.write (projection event .degraded (some "GRAPH_PROJECTION_FAILED"))
      pure true)

/-- The graph part of a tombstone; the result is `graph_degraded`. -/
def unprojectCase (ports : IndexPorts γ) (event : IndexJobMessage) (case : DiagnosisCaseModel) :
    Handler γ Bool :=
  catchException
    (match ports.graph with
      | some graph => do
          graphCall (graph.tombstoneCase case.caseId)
          Prog.write (projection event .tombstoned none)
          pure false
      | none => do
          Prog.write (projection event .tombstoned none)
          pure false)
    (do
      Prog.write (projection event .degraded (some "GRAPH_PROJECTION_FAILED"))
      pure true)

/-- `_record` raises a pydantic error; the driver's error carries SQLAlchemy's own code. -/
def RepositoryError.toHandlerError : RepositoryError → HandlerError
  | .attemptsExceeded => .uncoded "ValidationError"
  | .duplicateKey => .failure "gkpj" "IntegrityError"

/-- The tombstone request for a case that a revision replaces. -/
def supersedeRequest (event : IndexJobMessage) (old : DiagnosisCaseModel) : IndexJobCreate where
  entityType := .diagnosisCase
  entityId := old.caseId
  entityVersion := toString old.caseVersion
  operation := .tombstone
  traceId := event.traceId
  correlationId := event.correlationId
  causationId := event.jobId
  maxAttempts := defaultMaxAttempts

/-- The row of a case as `_queue_superseded_case` leaves it. -/
def supersededRow (row : DiagnosisCaseModel) : DiagnosisCaseModel :=
  { row with reviewStatus := .superseded, isActive := false, indexStatus := .queued }

/-- The transaction of `_queue_superseded_case`. -/
def supersedeOld (event : IndexJobMessage) (jobId oldCaseId : String) (w : World γ) :
    Except HandlerError (Unit × World γ) :=
  match w.getCase oldCaseId with
  | none => .ok ((), w)
  | some old =>
      if old.reviewStatus ≠ .approved then .ok ((), w)
      else
        match addJob (supersedeRequest event old) jobId (w.updateCase oldCaseId supersededRow) with
        | .ok (_, w') => .ok ((), w')
        | .error e => .error e.toHandlerError

/-- `_queue_superseded_case`. -/
def queueSupersededCase (ports : IndexPorts γ) (event : IndexJobMessage) (oldCaseId : String) :
    Handler γ Unit := do
  Prog.raiseIf (ports.repository = false) (.permanent "INDEX_REPOSITORY_UNAVAILABLE")
  Prog.transaction (supersedeOld event (ports.newJobId event).val oldCaseId)

/-- The end of an upsert: the case a revision replaces is queued for its tombstone. -/
def supersedeOriginal (ports : IndexPorts γ) (event : IndexJobMessage)
    (case : DiagnosisCaseModel) : Handler γ Unit :=
  match case.supersededId with
  | some old => queueSupersededCase ports event old
  | none => pure ()

def indexedStatus (graphDegraded : Bool) : IndexStatus :=
  if graphDegraded then .degraded else .indexed

def caseResult (graphDegraded : Bool) : HandlerResult where
  status := if graphDegraded then .degraded else .indexed
  graphDegraded := graphDegraded

/-- `_case` after its check, for a tombstone. -/
def tombstoneCase (ports : IndexPorts γ) (event : IndexJobMessage) (case : DiagnosisCaseModel) :
    Handler γ HandlerResult := do
  vectorDelete ports case.caseId
  let degraded ← unprojectCase ports event case
  Prog.write (setCaseIndex event.entityId .tombstoned false none)
  pure ⟨.tombstoned, degraded⟩

/-- `_case` after its check, for any other operation. -/
def upsertCase (ports : IndexPorts γ) (event : IndexJobMessage) (case : DiagnosisCaseModel) :
    Handler γ HandlerResult := do
  let text ← Prog.lift (caseText case)
  let vector ← Prog.lift (ports.embedText text)
  vectorUpsert ports .case [caseVector case vector]
  let degraded ← projectCase ports event case
  Prog.write (setCaseIndex event.entityId (indexedStatus degraded) true (some text))
  supersedeOriginal ports event case
  pure (caseResult degraded)

/-- `_case`. -/
def handleCase (ports : IndexPorts γ) (event : IndexJobMessage) : Handler γ HandlerResult := do
  let found ← Prog.read (·.getCase event.entityId)
  let case ← Prog.lift (checkCase event found)
  if event.operation = .tombstone then tombstoneCase ports event case
  else upsertCase ports event case

/-- `handle`. -/
def handle (ports : IndexPorts γ) (event : IndexJobMessage) : Handler γ HandlerResult :=
  match event.entityType with
  | .manualDocument => handleManual ports event
  | .maintenanceTicket => handleTicket ports event
  | .diagnosisCase => handleCase ports event
  | .templateGraph => Prog.raise (.permanent "INDEX_EVENT_INVALID")

/-! ## The status check -/

theorem checkCase_eq_ok {event : IndexJobMessage} {found : Option DiagnosisCaseModel}
    {case : DiagnosisCaseModel} (h : checkCase event found = .ok case) : found = some case := by
  cases found with
  | none => cases h
  | some row =>
      simp only [checkCase] at h
      split at h
      · cases h
      · split at h
        · split at h
          · cases h
          · cases h
            rfl
        · split at h
          · cases h
          · cases h
            rfl

/-- What a case that passes the check is like. -/
theorem checkCase_status {event : IndexJobMessage} {found : Option DiagnosisCaseModel}
    {case : DiagnosisCaseModel} (h : checkCase event found = .ok case) :
    found = some case ∧ toString case.caseVersion = event.entityVersion ∧
      if event.operation = .tombstone then
        case.reviewStatus.withdrawn = true ∧ case.isActive = false
      else case.reviewStatus = .approved := by
  refine ⟨checkCase_eq_ok h, ?_⟩
  obtain rfl := checkCase_eq_ok h
  simp only [checkCase] at h
  split at h
  · cases h
  · next hversion =>
      refine ⟨not_not.mp hversion, ?_⟩
      split at h
      · next hop =>
          rw [if_pos hop]
          split at h
          · cases h
          · next hok => simpa [not_or, and_comm] using hok
      · next hop =>
          rw [if_neg hop]
          split at h
          · cases h
          · next hok => exact not_not.mp hok

/-! ## What the writes leave alone -/

theorem indexRow_caseId (status : IndexStatus) (active : Bool) (embeddingText : Option String)
    (row : DiagnosisCaseModel) : (indexRow status active embeddingText row).caseId = row.caseId := rfl

theorem supersededRow_caseId (row : DiagnosisCaseModel) :
    (supersededRow row).caseId = row.caseId := rfl

theorem handle_of_ticket {ports : IndexPorts γ} {event : IndexJobMessage}
    (h : event.entityType = .maintenanceTicket) : handle ports event = handleTicket ports event := by
  unfold handle
  rw [h]

theorem handle_of_case {ports : IndexPorts γ} {event : IndexJobMessage}
    (h : event.entityType = .diagnosisCase) : handle ports event = handleCase ports event := by
  unfold handle
  rw [h]

/-- What the transaction of `_queue_superseded_case` did when it committed. -/
theorem supersedeOld_cases {event : IndexJobMessage} {jobId oldCaseId : String} {w w' : World γ}
    {u : Unit} (h : supersedeOld event jobId oldCaseId w = .ok (u, w')) :
    (w' = w ∧ ∀ row, w.getCase oldCaseId = some row → row.reviewStatus ≠ .approved) ∨
    (∃ row rec, w.getCase oldCaseId = some row ∧ row.reviewStatus = .approved ∧
      addJob (supersedeRequest event row) jobId (w.updateCase oldCaseId supersededRow) =
        .ok (rec, w')) := by
  unfold supersedeOld at h
  cases hget : w.getCase oldCaseId with
  | none =>
      rw [hget] at h
      cases h
      exact Or.inl ⟨rfl, by simp⟩
  | some row =>
      simp only [hget] at h
      by_cases happroved : row.reviewStatus = .approved
      · rw [if_neg (not_not_intro happroved)] at h
        split at h
        · next rec w₁ hadd =>
            cases h
            exact Or.inr ⟨row, rec, rfl, happroved, hadd⟩
        · cases h
      · rw [if_pos happroved] at h
        cases h
        refine Or.inl ⟨rfl, fun r hr => ?_⟩
        cases hr
        exact happroved

/-! ## What the graph calls leave alone -/

/-- The two worlds differ at most in the graph and in the projection table. -/
def SameButGraph (w w' : World γ) : Prop :=
  ∃ graph projections, w' = { w with graph := graph, projections := projections }

theorem SameButGraph.refl (w : World γ) : SameButGraph w w := ⟨w.graph, w.projections, rfl⟩

theorem keeps_projection {w : World γ} {event : IndexJobMessage} {status : GraphProjectionStatus}
    {errorCode : Option String} :
    Prog.Keeps (SameButGraph w) (Prog.write (projection event status errorCode) : Handler γ Unit) := by
  apply Prog.Keeps.of_snd
  rintro _ ⟨graph, projections, rfl⟩
  exact ⟨graph, _, rfl⟩

theorem keeps_graphCall {w : World γ} {call : γ → Except HandlerError Unit × γ} :
    Prog.Keeps (SameButGraph w) (graphCall call) := by
  apply Prog.Keeps.of_snd
  rintro _ ⟨graph, projections, rfl⟩
  exact ⟨_, projections, rfl⟩

theorem keeps_projectCaseGraph {w : World γ} {graph : GraphPort γ} {case : DiagnosisCaseModel} :
    Prog.Keeps (SameButGraph w) (projectCaseGraph graph case) := by
  unfold projectCaseGraph
  cases case.resolutionSteps with
  | none => exact .raise _
  | some steps => exact .bind .raiseIf (fun _ => keeps_graphCall)

theorem keeps_catchException {α : Type} {I : World γ → Prop} {x h : Handler γ α}
    (hx : Prog.Keeps I x) (hh : Prog.Keeps I h) : Prog.Keeps I (catchException x h) := by
  refine .handle hx (fun e => ?_)
  by_cases he : e = .cancelled
  · rw [if_pos he]
    exact .raise _
  · rw [if_neg he]
    exact hh

theorem keeps_projectCase {w : World γ} {ports : IndexPorts γ} {event : IndexJobMessage}
    {case : DiagnosisCaseModel} : Prog.Keeps (SameButGraph w) (projectCase ports event case) := by
  unfold projectCase
  refine keeps_catchException ?_ (.bind keeps_projection (fun _ => .pure _))
  cases ports.graph with
  | none => exact .bind keeps_projection (fun _ => .pure _)
  | some graph =>
      exact .bind keeps_projectCaseGraph (fun _ => .bind keeps_projection (fun _ => .pure _))

theorem keeps_unprojectCase {w : World γ} {ports : IndexPorts γ} {event : IndexJobMessage}
    {case : DiagnosisCaseModel} : Prog.Keeps (SameButGraph w) (unprojectCase ports event case) := by
  unfold unprojectCase
  refine keeps_catchException ?_ (.bind keeps_projection (fun _ => .pure _))
  cases ports.graph with
  | none => exact .bind keeps_projection (fun _ => .pure _)
  | some graph => exact .bind keeps_graphCall (fun _ => .bind keeps_projection (fun _ => .pure _))

theorem keeps_callOutcome {I : World γ → Prop} {f : World γ → World γ} (hf : ∀ w, I w → I (f w))
    (outcome : CallOutcome) : Prog.Keeps I (callOutcome outcome f) := by
  unfold callOutcome
  cases outcome with
  | applied => exact .write hf
  | raised e => exact .raise _
  | appliedThenRaised e => exact .bind (.write hf) (fun _ => .raise _)

theorem keeps_vectorUpsert {I : World γ → Prop} {ports : IndexPorts γ} {collection : Collection}
    {rows : List VectorRow} (h : ∀ w, I w → I (upsertCollection collection rows w)) :
    Prog.Keeps I (vectorUpsert ports collection rows) :=
  keeps_callOutcome h _

theorem projectCase_frame {ports : IndexPorts γ} {event : IndexJobMessage}
    {case : DiagnosisCaseModel} {w w' : World γ} {r : Except HandlerError Bool}
    (h : projectCase ports event case w = (r, w')) : SameButGraph w w' :=
  keeps_projectCase.of_eq h (SameButGraph.refl w)

end EnergyAgent.Indexing
