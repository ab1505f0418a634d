import EnergyAgent.Cases.Lifecycle
import EnergyAgent.Lib.Threads

/-!
# Requests and workers that interrupt each other

The operations of the case service and of the index workers once more, cut at their transactions and
at their calls to the vector store: between two of them any other request and any other worker may
run. `update_draft` reads the draft without a lock, so its `SELECT` and its `UPDATE` are two steps; every
other write of a case locks the row it has read. The equations `run_…` say that an operation which
nobody interrupts is the one of `Cases.Application` and `Indexing.Consumer`.
-/

namespace EnergyAgent.Cases

open EnergyAgent.Core EnergyAgent.Lib EnergyAgent.Persistence EnergyAgent.Indexing

variable {γ : Type}

/-! ## Accesses -/

/-- The accesses that the results about interleavings tell apart. -/
inductive AccessKind
  /-- The `UPDATE` of `update_draft`. -/
  | draft (caseId : String)
  /-- The transition of `submit`, which has read and checked `case`. -/
  | submission (case : DiagnosisCase)
  /-- `append_event` -/
  | event (event : CaseReviewEventModel)
  /-- A case is set active. -/
  | activation (caseId : String)
  /-- The transaction of `_queue_superseded_case`. -/
  | supersession (caseId : String)
  /-- `repository.start` -/
  | start
  /-- `repository.finish` and `repository.fail` -/
  | finish
  | other

/-- An access to the store; that of a worker belongs to a job. -/
structure Access where
  jobId : Option String := none
  kind : AccessKind := .other

/-- A function of the case service, in steps. -/
abbrev ServiceThread (γ α : Type) := Thread Access (World γ) CaseError α

/-- A handler, in steps. -/
abbrev HandlerThread (γ α : Type) := Thread Access (World γ) HandlerError α

/-- A consumer, in steps. -/
abbrev WorkerThread (γ α : Type) := Thread Access (World γ) ConsumeError α

/-! ## Drafts -/

/-- The fields that differ from the row that was read: the `UPDATE` sets no others. -/
def CasePatchRequest.changes (patch : CasePatchRequest) (row : DiagnosisCaseModel) :
    CasePatchRequest where
  deviceType := patch.deviceType.filter (· ≠ row.deviceType)
  deviceModel := patch.deviceModel.filter (· ≠ row.deviceModel)
  manufacturer := patch.manufacturer.filter (· ≠ row.manufacturer)
  alarmName := patch.alarmName.filter (· ≠ row.alarmName)
  symptomSummary := patch.symptomSummary.filter (· ≠ row.symptomSummary)
  timeseriesFeatures := patch.timeseriesFeatures.filter (· ≠ row.timeseriesFeatures)
  rootCause := patch.rootCause.filter (· ≠ some row.rootCause)
  resolutionSteps := patch.resolutionSteps.filter (· ≠ row.resolutionSteps)
  safetyNotes := patch.safetyNotes.filter (· ≠ row.safetyNotes)
  evidenceRefs := patch.evidenceRefs.filter (· ≠ row.evidenceRefs)

/-- The `UPDATE`: what it does not set stays as it is by now. -/
def CasePatchRequest.update (changes : CasePatchRequest) (row : DiagnosisCaseModel) :
    DiagnosisCaseModel :=
  changes.rewrite ((changes.newRootCause row).getD row.rootCause) row

/-- The `SELECT` of `update_draft`, with its checks. -/
def readDraft (caseId actorId : String) (privileged : Bool) (w : World γ) :
    Except CaseError DiagnosisCaseModel :=
  match w.getCase caseId with
  | none => .error .caseNotFound
  | some model =>
      if model.reviewStatus ≠ .draft then .error .caseNotEditable
      else if model.createdBy ≠ actorId ∧ privileged = false then .error .caseNotEditable
      else .ok model

theorem update_changes {patch : CasePatchRequest} {rootCause : String} {row : DiagnosisCaseModel}
    (h : patch.newRootCause row = some rootCause) :
    (patch.changes row).update row = patch.rewrite rootCause row := by
  have hfield : ∀ {α : Type} [DecidableEq α] (new : Option α) (old : α),
      (new.filter (· ≠ old)).getD old = new.getD old := by
    intro α _ new old
    cases new with
    | none => rfl
    | some value =>
        by_cases hvalue : value = old
        · simp [Option.filter, hvalue]
        · simp [Option.filter, hvalue]
  have hcause : ((patch.changes row).newRootCause row).getD row.rootCause = rootCause := by
    show (((patch.rootCause.filter (· ≠ some row.rootCause)).getD (some row.rootCause))).getD
      row.rootCause = rootCause
    rw [hfield]
    show (patch.newRootCause row).getD row.rootCause = rootCause
    rw [h]
    rfl
  unfold CasePatchRequest.update
  rw [hcause]
  simp only [CasePatchRequest.rewrite, CasePatchRequest.changes, hfield]

/-- Two rewritings that agree on the row of the case are the same. -/
theorem updateCase_congr {w : World γ} (hids : (w.cases.map (·.caseId)).Nodup) {caseId : String}
    {row : DiagnosisCaseModel} (hrow : w.getCase caseId = some row)
    {f g : DiagnosisCaseModel → DiagnosisCaseModel} (h : f row = g row) :
    w.updateCase caseId f = w.updateCase caseId g := by
  obtain ⟨hmem, hid⟩ := Table.get_eq_some hrow
  have hcases : Table.update DiagnosisCaseModel.caseId w.cases caseId f =
      Table.update DiagnosisCaseModel.caseId w.cases caseId g := by
    refine List.map_congr_left fun r hr => ?_
    by_cases hr' : r.caseId = caseId
    · obtain rfl : r = row := List.inj_on_of_nodup_map hids hr hmem (hr'.trans hid.symm)
      simp [h]
    · simp [hr']
  unfold World.updateCase
  rw [hcases]

/-- What a read comes to, which may be an error. -/
def reads {ε α : Type} (f : World γ → Except ε α) : Prog (World γ) ε α := fun w => (f w, w)

namespace Interleaved

/-- An access of the service. -/
def access {α : Type} (x : Service γ α) : ServiceThread γ α := Thread.atomic {} x

/-- `update_draft` -/
def updateDraft (caseId : String) (patch : CasePatchRequest) (actorId : String)
    (privileged : Bool) : ServiceThread γ DiagnosisCase := do
  let model ← access (reads (readDraft caseId actorId privileged))
  match patch.newRootCause model with
  | none => .raise .integrity
  | some rootCause => do
      Thread.atomic { kind := .draft caseId }
        (Prog.write fun w => w.updateCase caseId (patch.changes model).update)
      .lift (caseRecord (patch.rewrite rootCause model))

/-! ## The case service -/

section service

variable (settings : CaseSettings) (call : CaseCall)

/-- `_index` -/
def index (case : DiagnosisCase) : ServiceThread γ DiagnosisCase :=
  let text := buildEmbeddingText case
  Thread.handle
    (do
      let embedded ← .lift (embedCase call text)
      let row := caseVector case.row embedded.2
      access (vectorCall (embedded.1.upsert row) (upsertCollection .case [row]))
      Thread.atomic { kind := .activation case.row.caseId }
        (setIndex case.row.caseId .indexed none (some text) true))
    fun _ => access
      (setIndex case.row.caseId .failed (some "CASE_INDEX_PROVIDER_FAILED") (some text) false)

/-- `_tombstone` -/
def tombstone (case : DiagnosisCase) : ServiceThread γ DiagnosisCase :=
  Thread.handle
    (do
      access (deleteCaseVector call case.row.caseId)
      access (setIndex case.row.caseId .tombstoned none none false))
    fun _ => access
      (setIndex case.row.caseId .failed (some "CASE_TOMBSTONE_PROVIDER_FAILED") none false)

/-- `_supersede` -/
def supersede (caseId : String) : ServiceThread γ Unit := do
  let current ← access (fetch caseId)
  let result ← access (transition settings.indexRepository
    (withdrawal settings call current caseId .superseded "case.superseded" (.supersede caseId)
      (some (supersedeKey caseId)) none) call.newJobId.val)
  match settings.indexExecutionMode with
  | .sync => do
      let _ ← tombstone call result.case
      pure ()
  | .rabbitmq => pure ()

/-- `patch` -/
def patch (caseId : String) (payload : CasePatchRequest) : ServiceThread γ DiagnosisCase :=
  updateDraft caseId payload call.actor.actorId call.actor.actorRole.privileged

/-- `submit` -/
def submit (caseId : String) : ServiceThread γ DiagnosisCase := do
  let case ← access (fetch caseId)
  Thread.raiseIf
    (case.row.createdBy ≠ call.actor.actorId ∧ call.actor.actorRole.privileged = false)
    .caseNotEditable
  let missing := missingCaseFields case (call.latestEvidence case.row.sourceSessionId)
  Thread.raiseIf (missing ≠ []) (.caseNotReady missing)
  let result ← Thread.atomic { kind := .submission case }
    (transition settings.indexRepository (submitTransition call caseId) call.newJobId.val)
  pure result.case

/-- The index run of a fresh approval. -/
def indexApproved (approved : DiagnosisCase) : ServiceThread γ DiagnosisCase :=
  match settings.indexExecutionMode with
  | .sync => index call approved
  | .rabbitmq => pure approved

/-- The end of an approval: a revision that is indexed supersedes its original. -/
def supersedeReplaced (updated : DiagnosisCase) : ServiceThread γ DiagnosisCase :=
  match updated.row.indexStatus, updated.row.supersededId with
  | .indexed, some original => do
      supersede settings call original
      pure updated
  | _, _ => pure updated

/-- What `review_case` does after a fresh approval. -/
def afterApproval (approved : DiagnosisCase) : ServiceThread γ DiagnosisCase := do
  let updated ← indexApproved settings call approved
  supersedeReplaced settings call updated

/-- `review_case` -/
def reviewCase (caseId : String) (payload : CaseReviewRequest) : ServiceThread γ DiagnosisCase := do
  let case ← access (fetch caseId)
  Thread.raiseIf (case.row.createdBy = call.actor.actorId) .selfReviewForbidden
  let result ← access (transition settings.indexRepository
    (reviewTransition settings call case caseId payload) call.newJobId.val)
  if result.replayed = true ∨ payload.decision = .reject then pure result.case
  else afterApproval settings call result.case

/-- `disable` -/
def disable (caseId : String) (payload : CaseDisableRequest) : ServiceThread γ DiagnosisCase := do
  let current ← access (fetch caseId)
  let result ← access (transition settings.indexRepository
    (withdrawal settings call current caseId .disabled "case.disabled"
      (.disable caseId payload.reason) call.idempotencyKey (some payload.reason))
    call.newJobId.val)
  match settings.indexExecutionMode with
  | .sync => tombstone call result.case
  | .rabbitmq => pure result.case

/-- The idempotency check of `revision`. -/
def revisionReplay (caseId : String) (fingerprint : RequestFingerprint) :
    ServiceThread γ (Option DiagnosisCase) := do
  let event ← access (Prog.read fun w => replayOf w caseId call.idempotencyKey)
  match event with
  | none => pure none
  | some event => do
      Thread.raiseIf (event.requestHash ≠ fingerprint) .caseStateConflict
      match Text.truthy event.comment with
      | none => pure none
      | some revisionId => access (get revisionId)

/-- The event of a revision; it keeps the review status. -/
def revisionEvent (original created : DiagnosisCase) (caseId : String)
    (fingerprint : RequestFingerprint) : CaseReviewEventModel where
  caseId := caseId
  actorId := call.actor.actorId
  actorRole := call.actor.actorRole.value
  action := "case.revision_created"
  fromStatus := original.row.reviewStatus
  toStatus := original.row.reviewStatus
  comment := some created.row.caseId
  idempotencyKey := call.idempotencyKey
  requestHash := fingerprint
  traceId := call.traceId

/-- `append_event` -/
def appendEvent (event : CaseReviewEventModel) : ServiceThread γ Unit :=
  Thread.atomic { kind := .event event } (Cases.appendEvent event)

/-- `revision` -/
def revision (caseId : String) (payload : CaseRevisionRequest) : ServiceThread γ DiagnosisCase := do
  let original ← access (fetch caseId)
  let fingerprint := .revision caseId payload.patch.dump payload.submitForReview
  let replay ← revisionReplay call caseId fingerprint
  match replay with
  | some existing => pure existing
  | none => do
      Thread.raiseIf
        (original.row.reviewStatus ≠ .approved ∧ original.row.reviewStatus ≠ .rejected)
        .caseStateConflict
      let version ← access (Prog.read fun w => nextVersion w original.row.sourceSessionId)
      let created ← access (create (revisionValues call original version payload.patch))
      appendEvent (revisionEvent call original created caseId fingerprint)
      if payload.submitForReview then submit settings call created.row.caseId else pure created

/-- The part of `reindex` after its idempotency check. -/
def runReindex (caseId : String) (case : DiagnosisCase) : ServiceThread γ DiagnosisCase :=
  match reindexOperation case.row with
  | none => .raise .caseNotIndexed
  | some operation =>
      match settings.indexExecutionMode with
      | .rabbitmq =>
          access (queueIndex settings.indexRepository caseId
            (indexRequest settings call case.row operation)
            (reindexEvent call caseId "case.reindex_queued") call.newJobId.val)
      | .sync => do
          appendEvent (reindexEvent call caseId "case.reindex_started" case.row.reviewStatus)
          if operation = .tombstone then tombstone call case else index call case

/-- `reindex` -/
def reindex (caseId : String) : ServiceThread γ DiagnosisCase := do
  let case ← access (fetch caseId)
  let event ← access (Prog.read fun w => replayOf w caseId call.idempotencyKey)
  match event with
  | some event => do
      Thread.raiseIf (event.requestHash ≠ .reindex caseId) .caseStateConflict
      access (fetch caseId)
  | none => runReindex settings call caseId case

/-- The values of `_create_draft`. -/
def draftValues (draft : DraftValues) (version : Nat) : DiagnosisCaseModel :=
  { caseId := call.newCaseId.val
    sourceSessionId := draft.sessionId
    sourceRunId := draft.runId
    sourceReviewId := draft.reviewId
    sourceTicketId := draft.sourceTicketId
    deviceType := draft.deviceType
    deviceModel := draft.deviceModel
    manufacturer := draft.manufacturer
    alarmName := draft.alarmName
    symptomSummary := draft.summary
    timeseriesFeatures := draft.timeseries
    rootCause := draft.rootCause
    resolutionSteps := some draft.resolutionSteps
    safetyNotes := some draft.safetyNotes
    evidenceRefs := some draft.evidenceRefs
    reviewStatus := .draft
    reviewer := none
    reviewComment := none
    caseVersion := version
    embeddingText := none
    indexStatus := .pending
    indexErrorCode := none
    isActive := false
    supersedesCaseId := none
    createdBy := call.actor.actorId }

/-- `_create_draft` -/
def createDraft (draft : DraftValues) : ServiceThread γ DiagnosisCase := do
  let version ← access (Prog.read fun w => nextVersion w draft.sessionId)
  access (create (some (draftValues call draft version)))

/-- Handle a request. -/
def request : CaseRequest → ServiceThread γ DiagnosisCase
  | .createDraft draft => createDraft call draft
  | .patch caseId payload => patch call caseId payload
  | .submit caseId => submit settings call caseId
  | .review caseId payload => reviewCase settings call caseId payload
  | .disable caseId payload => disable settings call caseId payload
  | .revision caseId payload => revision settings call caseId payload
  | .reindex caseId => reindex settings call caseId

end service

/-! ## Workers -/

section workers

/-- An access of a worker. -/
def work {ε α : Type} (jobId : String) (x : Prog (World γ) ε α) : Thread Access (World γ) ε α :=
  Thread.atomic { jobId := some jobId } x

/-- An access that begins or ends the work on a job. -/
def workAs {ε α : Type} (jobId : String) (kind : AccessKind) (x : Prog (World γ) ε α) :
    Thread Access (World γ) ε α :=
  Thread.atomic { jobId := some jobId, kind := kind } x

/-- `_set_case_index` with `active=True` -/
def activate (jobId caseId : String) (degraded : Bool) (text : String) : HandlerThread γ Unit :=
  workAs jobId (.activation caseId)
    (Prog.write (setCaseIndex caseId (indexedStatus degraded) true (some text)))

variable (ports : IndexPorts γ) (event : IndexJobMessage)

/-- `_queue_superseded_case`, for a case that replaces another one. -/
def supersedeOriginal (case : DiagnosisCaseModel) : HandlerThread γ Unit :=
  match case.supersededId with
  | some old => workAs event.jobId (.supersession old) (queueSupersededCase ports event old)
  | none => pure ()

/-- `_case` after its check, for a tombstone. The calls of the graph are one access: no other code
reads what they write. -/
def tombstoneCase (case : DiagnosisCaseModel) : HandlerThread γ HandlerResult := do
  work event.jobId (vectorDelete ports case.caseId)
  let degraded ← work event.jobId (unprojectCase ports event case)
  work event.jobId (Prog.write (setCaseIndex event.entityId .tombstoned false none))
  pure ⟨.tombstoned, degraded⟩

/-- `_case` after its check, for any other operation. -/
def upsertCase (case : DiagnosisCaseModel) : HandlerThread γ HandlerResult := do
  let text ← .lift (caseText case)
  let vector ← .lift (ports.embedText text)
  work event.jobId (vectorUpsert ports .case [caseVector case vector])
  let degraded ← work event.jobId (projectCase ports event case)
  activate event.jobId event.entityId degraded text
  supersedeOriginal ports event case
  pure (caseResult degraded)

/-- `_case` -/
def handleCase : HandlerThread γ HandlerResult := do
  let found ← work event.jobId (Prog.read (·.getCase event.entityId))
  let case ← .lift (checkCase event found)
  if event.operation = .tombstone then tombstoneCase ports event case
  else upsertCase ports event case

/-- `handle`. The other entities are handled in one step: no other code reads or writes what they
do. -/
def handle : HandlerThread γ HandlerResult :=
  if event.entityType = .diagnosisCase then handleCase ports event
  else work event.jobId (Indexing.handle ports event)

/-! ### The consumer -/

/-- A handler's thread inside a worker. -/
def ofHandler {α : Type} (x : HandlerThread γ α) : WorkerThread γ α :=
  x.handle fun e => .raise (.call e)

variable (ports : ConsumerPorts γ)

/-- The end of a failure: the message is published for a retry or to the dead letters, and
acknowledged. -/
def publishAndAck (dead : Bool) : HandlerThread γ Unit := do
  work event.jobId (publishFailed (ports.publish event) dead event)
  work event.jobId (ackMessage (ports.lastAck event) event)

/-- The `except Exception` branch of `consume`, and `_fail` of the drainer. -/
def failMessage (attemptCount : Nat) (maxAttempts : MaxAttempts) (e : HandlerError) :
    HandlerThread γ Unit := do
  let dead := deadLettered attemptCount maxAttempts e
  workAs event.jobId .finish (Prog.write (fail event.jobId e.code e.typeName (!dead)))
  publishAndAck event ports dead

/-- The end of a success. -/
def finishMessage (status : IndexJobStatus) : HandlerThread γ Unit := do
  workAs event.jobId .finish (Prog.write (finish event.jobId status))
  work event.jobId (ackMessage (ports.ack event) event)

/-- The `except` branches of `consume`. -/
def exceptBranch (job : IndexJobRecord) (e : HandlerError) : HandlerThread γ Unit :=
  match e with
  | .cancelled => .raise .cancelled
  | .stale => do
      workAs event.jobId .finish (Prog.write (finish event.jobId .stale))
      work event.jobId (ackMessage (ports.lastAck event) event)
  | e => failMessage event ports job.row.attemptCount job.row.maxAttempts e

/-- The `try` statement of `consume`. -/
def tryStatement (job : IndexJobRecord) : HandlerThread γ Unit :=
  Thread.handle
    (do
      let result ← handle ports.handlers event
      finishMessage event ports result.status)
    (exceptBranch event ports job)

/-- `consume` -/
def consume : WorkerThread γ Unit := do
  let job ← workAs event.jobId .start (startJob event.jobId)
  match job with
  | none => ofHandler (publishAndAck event ports true)
  | some job =>
      if job.row.status.finished then
        ofHandler (work event.jobId (ackMessage (ports.lastAck event) event))
      else ofHandler (tryStatement event ports job)

/-! ### The batch drainer -/

/-- The loop of `drain` that starts the jobs. -/
def startAll : List IndexJobMessage → WorkerThread γ (List PendingMessage)
  | [] => pure []
  | event :: events => do
      let job ← workAs event.jobId .start (startJob event.jobId)
      match job with
      | none => do
          work event.jobId (Prog.write (settle event))
          startAll events
      | some job =>
          if job.row.status.finished then do
            ofHandler (work event.jobId (ackMessage (ports.lastAck event) event))
            startAll events
          else do
            let pending ← startAll events
            pure (⟨event, job.row.attemptCount, job.row.maxAttempts⟩ :: pending)

/-- `handle` on one message after the other. -/
def handleEach : List IndexJobMessage → HandlerThread γ BatchResults
  | [] => pure []
  | event :: events => do
      let result ← handle ports.handlers event
      let results ← handleEach events
      pure ((event.jobId, result) :: results)

/-- The last loop of `_case_batch`. -/
def indexCases : List CaseTask → HandlerThread γ BatchResults
  | [] => pure []
  | task :: tasks => do
      let degraded ← work task.event.jobId (projectCase ports.handlers task.event task.case)
      activate task.event.jobId task.event.entityId degraded task.text
      let results ← indexCases tasks
      pure ((task.event.jobId, caseResult degraded) :: results)

/-- `_case_batch` -/
def caseBatch (events : List IndexJobMessage) : HandlerThread γ BatchResults := do
  let ordered ← Thread.atomic {} (Prog.read fun w => orderCases w events)
  let tasks ← .lift ordered
  let vectors ← .lift (tasks.mapM fun task => ports.handlers.embedText task.text)
  Thread.atomic {} (vectorUpsert ports.handlers .case (caseVectors tasks vectors))
  indexCases ports tasks

/-- `handle_batch` -/
def handleBatch (events : List IndexJobMessage) : HandlerThread γ BatchResults :=
  match batchType events with
  | some .maintenanceTicket => Thread.atomic {} (ticketBatch ports.handlers events)
  | some .diagnosisCase => caseBatch ports events
  | _ => handleEach ports events

/-- The loop of `_process` over the results of a batch. -/
def finishAll (results : BatchResults) : List PendingMessage → HandlerThread γ Unit
  | [] => pure ()
  | item :: items =>
      match resultOf results item.event.jobId with
      | none => .raise (.uncoded "KeyError")
      | some result => do
          finishMessage item.event ports result.status
          finishAll results items

/-- The outcome of a `try` whose exception is looked at outside. -/
def outcome {α : Type} (x : HandlerThread γ α) : HandlerThread γ (Except HandlerError α) :=
  Thread.handle (x >>= fun a => pure (.ok a)) fun e => pure (.error e)

/-- `_process` -/
def process (pending : List PendingMessage) : HandlerThread γ Unit := do
  match ← outcome (handleBatch ports (pending.map (·.event))) with
  | .ok results => finishAll ports results pending
  | .error e =>
      if e = .cancelled then .raise e
      else
        match pending with
        | [] => pure ()
        | [item] => failMessage item.event ports item.attemptCount item.maxAttempts e
        | item :: item' :: items => do
            process ((item :: item' :: items).take ((items.length + 2) / 2))
            process ((item :: item' :: items).drop ((items.length + 2) / 2))
termination_by pending.length
decreasing_by
  · simp only [List.length_take, List.length_cons]
    omega
  · simp only [List.length_drop, List.length_cons]
    omega

/-- One round of `drain`, on the messages it got from the queue. -/
def drain (messages : List IndexJobMessage) : WorkerThread γ Unit := do
  let pending ← startAll ports messages
  (groups pending).forM fun group => ofHandler (process ports group)

end workers

/-! ## The other writers -/

/-- The broker takes back what the worker has not settled. -/
def handBack (events : List IndexJobMessage) (w : World γ) : World γ :=
  { w with
    queue := w.queue ++ w.unacked.bagInter events
    unacked := w.unacked.diff events }

/-- A worker is given messages of the queue; when it raises, the broker takes them back. -/
def worker (events : List IndexJobMessage) (x : WorkerThread γ Unit) : WorkerThread γ Unit := do
  let given ← Thread.atomic {} fun w =>
    if events.Subperm w.queue then (.ok true, receiveAll events w) else (.ok false, w)
  if given then
    Thread.handle x fun e => do
      Thread.atomic {} (Prog.write (handBack events))
      .raise e
  else pure ()

/-- `publish_once` on one row. -/
def publish (outboxId : Nat) (outcome : PublishOutcome) : WorkerThread γ Unit := do
  let found ← Thread.atomic {} (Prog.read (·.getOutbox outboxId))
  match found with
  | none => pure ()
  | some row =>
      if row.publishStatus = .pending then
        match outcome with
        | .published => do
            Thread.atomic {} (Prog.write (requeue row.payload))
            Thread.atomic {} (Prog.write (markPublished row.id row.jobId))
        | .failed =>
            Thread.atomic {} (Prog.write (markPublishFailed row.id "INDEX_OUTBOX_PUBLISH_FAILED"))
        | .unmarked => do
            Thread.atomic {} (Prog.write (requeue row.payload))
            Thread.atomic {} (Prog.write (markPublishFailed row.id "INDEX_OUTBOX_PUBLISH_FAILED"))
      else pure ()

/-- A thread whose result nobody waits for. -/
def detached {ε α : Type} (x : Thread Access (World γ) ε α) : Thread Access (World γ) Empty Unit :=
  Thread.handle (x >>= fun _ => pure ()) fun _ => pure ()

/-- An index job for a ticket or a manual. -/
def requestIndex (request : IndexJobCreate) (jobId : NewId) : WorkerThread γ Unit :=
  if request.entityType = .diagnosisCase then pure ()
  else Thread.atomic {} (Prog.transaction fun w =>
    match addJob request jobId.val w with
    | .ok (_, w') => .ok ((), w')
    | .error e => .error (.start e))

/-- What is going on in the system, in steps. -/
def activity (settings : CaseSettings) : Label γ → Thread Access (World γ) Empty Unit
  | .api call r => detached (request settings call r)
  | .requestIndex r jobId => detached (requestIndex r jobId)
  | .ingest tickets documents chunks => Thread.atomic {} (Prog.write fun w =>
      { w with tickets := tickets, documents := documents, chunks := chunks })
  | .retry jobId traceId => Thread.atomic {} (Prog.write (Indexing.retry jobId traceId))
  | .publish outboxId outcome => detached (publish outboxId outcome)
  | .consume ports event => detached (worker [event] (consume event ports))
  | .drain ports events => detached (worker events (drain ports events))

/-! ## Nobody interrupts -/

@[simp] theorem run_access {α : Type} (x : Service γ α) : (access x).run = x :=
  Thread.run_atomic _ x

@[simp] theorem run_work {ε α : Type} (jobId : String) (x : Prog (World γ) ε α) :
    (work jobId x).run = x := Thread.run_atomic _ x

@[simp] theorem run_workAs {ε α : Type} (jobId : String) (kind : AccessKind)
    (x : Prog (World γ) ε α) : (workAs jobId kind x).run = x := Thread.run_atomic _ x

@[simp] theorem run_appendEvent (event : CaseReviewEventModel) :
    (appendEvent event : ServiceThread γ Unit).run = Cases.appendEvent event := Thread.run_atomic _ _

section service

variable (settings : CaseSettings) (call : CaseCall)

theorem run_updateDraft (caseId : String) (patch : CasePatchRequest) (actorId : String)
    (privileged : Bool) {w : World γ} (hids : (w.cases.map (·.caseId)).Nodup) :
    (updateDraft caseId patch actorId privileged).run w =
      Cases.updateDraft caseId patch actorId privileged w := by
  simp only [updateDraft, Thread.run_bind, run_access, Cases.updateDraft, Prog.bind_apply,
    Prog.transaction, writeDraft, reads, readDraft]
  cases hrow : w.getCase caseId with
  | none => rfl
  | some model =>
      by_cases hdraft : model.reviewStatus = .draft
      · by_cases howner : model.createdBy ≠ actorId ∧ privileged = false
        · simp [hdraft, howner]
        · cases hcause : patch.newRootCause model with
          | none => simp [hdraft, howner, hcause]
          | some rootCause =>
              have hupdate := updateCase_congr hids hrow (update_changes hcause)
              simp [hdraft, howner, hcause, Prog.bind_apply, hupdate]
      · simp [hdraft]

@[simp] theorem run_index (case : DiagnosisCase) :
    (index call case : ServiceThread γ _).run = Cases.index call case := by
  simp [index, Cases.index]

@[simp] theorem run_tombstone (case : DiagnosisCase) :
    (tombstone call case : ServiceThread γ _).run = Cases.tombstone call case := by
  simp [tombstone, Cases.tombstone]

@[simp] theorem run_supersede (caseId : String) :
    (supersede settings call caseId : ServiceThread γ _).run =
      Cases.supersede settings call caseId := by
  unfold supersede Cases.supersede
  cases settings.indexExecutionMode <;> simp

@[simp] theorem run_submit (caseId : String) :
    (submit settings call caseId : ServiceThread γ _).run = Cases.submit settings call caseId := by
  simp [submit, Cases.submit]

theorem run_afterApproval (approved : DiagnosisCase) :
    (afterApproval settings call approved : ServiceThread γ _).run =
      Cases.afterApproval settings call approved := by
  have hindex : (indexApproved settings call approved : ServiceThread γ _).run =
      Cases.indexApproved settings call approved := by
    unfold indexApproved Cases.indexApproved
    cases settings.indexExecutionMode <;> simp
  have hreplaced : ∀ updated : DiagnosisCase,
      (supersedeReplaced settings call updated : ServiceThread γ _).run =
        Cases.supersedeReplaced settings call updated := by
    intro updated
    unfold supersedeReplaced Cases.supersedeReplaced
    cases updated.row.indexStatus <;> cases updated.row.supersededId <;> simp
  simp only [afterApproval, Cases.afterApproval, Thread.run_bind, hindex, hreplaced]

@[simp] theorem run_reviewCase (caseId : String) (payload : CaseReviewRequest) :
    (reviewCase settings call caseId payload : ServiceThread γ _).run =
      Cases.reviewCase settings call caseId payload := by
  simp only [reviewCase, Cases.reviewCase, Thread.run_bind, run_access, Thread.run_raiseIf]
  refine congrArg _ (funext fun case => congrArg _ (funext fun _ => congrArg _
    (funext fun result => ?_)))
  split
  · rfl
  · exact run_afterApproval settings call result.case

@[simp] theorem run_disable (caseId : String) (payload : CaseDisableRequest) :
    (disable settings call caseId payload : ServiceThread γ _).run =
      Cases.disable settings call caseId payload := by
  unfold disable Cases.disable
  cases settings.indexExecutionMode <;> simp

@[simp] theorem run_revisionReplay (caseId : String) (fingerprint : RequestFingerprint) :
    (revisionReplay call caseId fingerprint : ServiceThread γ _).run =
      Cases.revisionReplay call caseId fingerprint := by
  simp only [revisionReplay, Cases.revisionReplay, Thread.run_bind, run_access]
  refine congrArg _ (funext fun event => ?_)
  cases event with
  | none => rfl
  | some event =>
      simp only [Thread.run_bind, Thread.run_raiseIf]
      refine congrArg _ (funext fun _ => ?_)
      cases Text.truthy event.comment <;> simp

@[simp] theorem run_revision (caseId : String) (payload : CaseRevisionRequest) :
    (revision settings call caseId payload : ServiceThread γ _).run =
      Cases.revision settings call caseId payload := by
  simp only [revision, Cases.revision, Thread.run_bind, run_access, run_revisionReplay]
  refine congrArg _ (funext fun original => congrArg _ (funext fun replay => ?_))
  cases replay with
  | some existing => rfl
  | none =>
      simp only [Thread.run_bind, Thread.run_raiseIf, run_access, run_appendEvent, revisionEvent]
      refine congrArg _ (funext fun _ => congrArg _ (funext fun version => congrArg _
        (funext fun created => congrArg _ (funext fun _ => ?_))))
      split <;> simp

theorem run_runReindex (caseId : String) (case : DiagnosisCase) :
    (runReindex settings call caseId case : ServiceThread γ _).run =
      Cases.runReindex settings call caseId case := by
  unfold runReindex Cases.runReindex
  cases reindexOperation case.row with
  | none => rfl
  | some operation =>
      cases settings.indexExecutionMode with
      | rabbitmq => simp
      | sync =>
          simp only [Thread.run_bind, run_appendEvent]
          refine congrArg _ (funext fun _ => ?_)
          split <;> simp

@[simp] theorem run_reindex (caseId : String) :
    (reindex settings call caseId : ServiceThread γ _).run =
      Cases.reindex settings call caseId := by
  simp only [reindex, Cases.reindex, Thread.run_bind, run_access]
  refine congrArg _ (funext fun case => congrArg _ (funext fun event => ?_))
  cases event with
  | none => exact run_runReindex settings call caseId case
  | some event => simp

/-- **A request that nobody interrupts** is the one that runs to its end. -/
theorem run_request (r : CaseRequest) {w : World γ} (hids : (w.cases.map (·.caseId)).Nodup) :
    (request settings call r).run w = r.run settings call w := by
  cases r with
  | createDraft draft =>
      simp only [request, CaseRequest.run, createDraft, Cases.createDraft, Thread.run_bind, run_access,
        draftValues]
  | patch caseId payload => exact run_updateDraft _ _ _ _ hids
  | submit caseId => simp [request, CaseRequest.run]
  | review caseId payload => simp [request, CaseRequest.run]
  | disable caseId payload => simp [request, CaseRequest.run]
  | revision caseId payload => simp [request, CaseRequest.run]
  | reindex caseId => simp [request, CaseRequest.run]

end service

section workers

variable (ports : IndexPorts γ) (event : IndexJobMessage)

@[simp] theorem run_handle : (handle ports event).run = Indexing.handle ports event := by
  unfold handle
  split
  · next htype =>
      have hsupersede : ∀ case, (supersedeOriginal ports event case).run =
          Indexing.supersedeOriginal ports event case := by
        intro case
        unfold supersedeOriginal Indexing.supersedeOriginal
        cases case.supersededId <;> simp
      rw [handle_of_case htype]
      simp only [handleCase, Indexing.handleCase, Thread.run_bind, run_work, Thread.run_lift]
      refine congrArg _ (funext fun found => congrArg _ (funext fun case => ?_))
      split
      · simp [tombstoneCase, Indexing.tombstoneCase]
      · simp [upsertCase, Indexing.upsertCase, activate, hsupersede]
  · simp

@[simp] theorem run_ofHandler {α : Type} (x : HandlerThread γ α) :
    (ofHandler x).run = Indexing.ofHandler x.run := by
  induction x with
  | ret a => rfl
  | raise e => rfl
  | step mark write next ih =>
      funext w
      show (ofHandler (next w)).run (write w) = _
      rw [ih w]
      rfl

variable (ports : ConsumerPorts γ)

@[simp] theorem run_publishAndAck (dead : Bool) :
    (publishAndAck event ports dead).run = (do
      publishFailed (ports.publish event) dead event
      ackMessage (ports.lastAck event) event) := by
  simp [publishAndAck]

@[simp] theorem run_failMessage (attemptCount : Nat) (maxAttempts : MaxAttempts)
    (e : HandlerError) : (failMessage event ports attemptCount maxAttempts e).run =
      Indexing.failMessage ports event attemptCount maxAttempts e := by
  simp [failMessage, Indexing.failMessage]

/-- **A delivery that nobody interrupts** is the one that runs to its end. -/
theorem run_consume : (consume event ports).run = Indexing.consume ports event := by
  have hexcept : ∀ job e, (exceptBranch event ports job e).run =
      Indexing.exceptBranch ports event job e := by
    intro job e
    cases e <;> simp [exceptBranch, Indexing.exceptBranch]
  have htry : ∀ job, (tryStatement event ports job).run = Indexing.work ports event job := by
    intro job
    simp [tryStatement, Indexing.work, tryHandle, finishMessage, hexcept]
  simp only [consume, Indexing.consume, Thread.run_bind, run_workAs]
  refine congrArg _ (funext fun job => ?_)
  cases job with
  | none => simp
  | some job =>
      simp only
      split
      · simp
      · simp [htry]

@[simp] theorem run_startAll (events : List IndexJobMessage) :
    (startAll ports events).run = Indexing.startAll ports events := by
  induction events with
  | nil => rfl
  | cons event events ih =>
      simp only [startAll, Indexing.startAll, Thread.run_bind, run_workAs]
      refine congrArg _ (funext fun job => ?_)
      cases job with
      | none => simp [ih]
      | some job =>
          simp only
          split
          · simp [ih]
          · simp [ih]

theorem run_handleEach (events : List IndexJobMessage) :
    (handleEach ports events).run = Indexing.handleEach ports.handlers events := by
  induction events with
  | nil => rfl
  | cons event events ih => simp [handleEach, Indexing.handleEach, ih]

theorem run_indexCases (tasks : List CaseTask) :
    (indexCases ports tasks).run = Indexing.indexCases ports.handlers tasks := by
  induction tasks with
  | nil => rfl
  | cons task tasks ih => simp [indexCases, Indexing.indexCases, activate, ih]

theorem run_handleBatch (events : List IndexJobMessage) :
    (handleBatch ports events).run = Indexing.handleBatch ports.handlers events := by
  unfold handleBatch Indexing.handleBatch
  cases batchType events with
  | none => exact run_handleEach ports events
  | some type =>
      cases type with
      | maintenanceTicket => simp
      | diagnosisCase => simp [caseBatch, Indexing.caseBatch, run_indexCases]
      | manualDocument => exact run_handleEach ports events
      | templateGraph => exact run_handleEach ports events

theorem run_finishAll (results : BatchResults) (items : List PendingMessage) :
    (finishAll ports results items).run = Indexing.finishAll ports results items := by
  induction items with
  | nil => rfl
  | cons item items ih =>
      unfold finishAll Indexing.finishAll
      cases resultOf results item.event.jobId with
      | none => rfl
      | some result => simp [finishMessage, ih, Prog.bind_assoc]

/-- The outcome of a program, which raises no more. -/
theorem run_outcome {α : Type} (x : HandlerThread γ α) (w : World γ) :
    (outcome x).run w = (.ok (x.run w).1, (x.run w).2) := by
  unfold outcome
  rw [Thread.run_handle, Thread.run_bind]
  simp only [Prog.handle, Prog.bind_apply]
  cases hx : x.run w with
  | mk result w' => cases result <;> rfl

theorem run_process (n : Nat) : ∀ pending : List PendingMessage, pending.length = n →
    (process ports pending).run = Indexing.process ports pending := by
  induction n using Nat.strong_induction_on with
  | _ n ih =>
      rintro pending rfl
      funext w
      rw [process, Indexing.process, Thread.run_bind, Prog.bind_apply, run_outcome, run_handleBatch]
      cases hbatch : Indexing.handleBatch ports.handlers (pending.map (·.event)) w with
      | mk result w' =>
          cases result with
          | ok results => simp only [run_finishAll]
          | error e =>
              simp only
              by_cases hcancelled : e = .cancelled
              · simp [hcancelled]
              · rw [if_neg hcancelled, if_neg hcancelled]
                match pending with
                | [] => rfl
                | [item] => simp only [run_failMessage]
                | item :: item' :: items =>
                    have htake := ih ((item :: item' :: items).take ((items.length + 2) / 2)).length
                      (by simp only [List.length_take, List.length_cons]; omega) _ rfl
                    have hdrop := ih ((item :: item' :: items).drop ((items.length + 2) / 2)).length
                      (by simp only [List.length_drop, List.length_cons]; omega) _ rfl
                    simp only [Thread.run_bind, htake, hdrop]

/-- The same for a batch. -/
theorem run_drain (messages : List IndexJobMessage) :
    (drain ports messages).run = Indexing.drain ports messages := by
  have hgroups : ∀ groups : List (List PendingMessage),
      (groups.forM fun group => ofHandler (process ports group) :
        WorkerThread γ PUnit).run =
      groups.forM fun group => Indexing.ofHandler (Indexing.process ports group) := by
    intro groups
    induction groups with
    | nil => rfl
    | cons group groups ih =>
        show (ofHandler (process ports group) >>= fun _ =>
          groups.forM fun group => ofHandler (process ports group)).run = _
        rw [Thread.run_bind, run_ofHandler, run_process ports _ group rfl]
        simp only [ih]
        rfl
  simp only [drain, Indexing.drain, Thread.run_bind, run_startAll]
  exact congrArg _ (funext fun pending => hgroups (groups pending))

end workers

end Interleaved

/-- The system in which everything may be interrupted, from empty case, job and message tables. -/
def interleaved (settings : CaseSettings) :
    TransitionSystem (Threads Access (World γ) Empty Unit) (Threads.Move (Label γ)) :=
  Threads.system (lifecycle settings).init (Interleaved.activity settings)

end EnergyAgent.Cases
