import EnergyAgent.Cases.Repository
import EnergyAgent.Core.Context
import EnergyAgent.Indexing.HandlerRuntime

/-!
# `CaseApplicationService`

The case operations behind the API, in both index execution modes. A request carries everything the
service reads from outside (`CaseCall`): the actor, the ids that `new_id` would draw, the evidence
of the session's latest result, and how the embedding and vector providers answer.

Audit, tracing and the timeline are left out, and with them the only calls that no modelled state
depends on.
-/

namespace EnergyAgent.Cases

open EnergyAgent.Core EnergyAgent.Lib EnergyAgent.Persistence EnergyAgent.Indexing

variable {γ : Type}

/-! ## Requests -/

inductive IndexExecutionMode
  | sync | rabbitmq
  deriving DecidableEq, Repr

/-- The settings the service is constructed with. -/
structure CaseSettings where
  indexExecutionMode : IndexExecutionMode
  indexMaxAttempts : MaxAttempts
  indexRepository : Bool

/-- `CaseVectorPort`. -/
structure CaseVectorPort where
  upsert : VectorRow → CallOutcome
  delete : String → CallOutcome

/-- One request and what the service sees while it handles it. -/
structure CaseCall where
  actor : ActorContext
  traceId : String
  idempotencyKey : Option String
  newCaseId : NewId
  newJobId : NewId
  latestEvidence : String → List String
  embedding : Option (String → Except HandlerError Embedding)
  milvus : Option CaseVectorPort

inductive ReviewDecision
  | approve | reject
  deriving DecidableEq, Repr

def ReviewDecision.value : ReviewDecision → String
  | .approve => "approve"
  | .reject => "reject"

/-- `CaseReviewRequest`: a rejection needs a comment. -/
structure CaseReviewRequest where
  decision : ReviewDecision
  comment : Option String
  valid : decision = .reject → (Text.truthy comment).isSome

/-- `CaseDisableRequest`. -/
structure CaseDisableRequest where
  reason : String
  valid : reason ≠ ""

/-- `CaseRevisionRequest`. -/
structure CaseRevisionRequest where
  patch : CasePatchRequest
  submitForReview : Bool
  deriving DecidableEq

/-- `model_dump` of a patch: fields that were not set dump as `None`. -/
def CasePatchRequest.dump (patch : CasePatchRequest) : CasePatchValues where
  deviceType := patch.deviceType.join
  deviceModel := patch.deviceModel.join
  manufacturer := patch.manufacturer.join
  alarmName := patch.alarmName.join
  symptomSummary := patch.symptomSummary.join
  timeseriesFeatures := patch.timeseriesFeatures.join
  rootCause := patch.rootCause.join
  resolutionSteps := patch.resolutionSteps.join
  safetyNotes := patch.safetyNotes.join
  evidenceRefs := patch.evidenceRefs.join

/-! ## Helpers -/

/-- The list in a JSON column of a readable row. -/
def DiagnosisCase.resolutionSteps (case : DiagnosisCase) : List String :=
  case.row.resolutionSteps.getD []

def DiagnosisCase.evidenceRefs (case : DiagnosisCase) : List String :=
  case.row.evidenceRefs.getD []

/-- `build_embedding_text`. -/
def buildEmbeddingText (case : DiagnosisCase) : String :=
  let parts := [case.row.deviceType.getD "", case.row.deviceModel.getD "",
    case.row.alarmName.getD "", case.row.symptomSummary.getD "",
    case.row.timeseriesFeatures.getD "", case.row.rootCause, Text.join "；" case.resolutionSteps]
  Text.join "\n" ((parts.filter (fun part => ¬ Text.isBlank part)).map Text.strip)

/-- `missing_case_fields`. -/
def missingCaseFields (case : DiagnosisCase) (validEvidence : List String) : List String :=
  let required :=
    [("device_type", (Text.truthy case.row.deviceType).isSome),
      ("device_model", (Text.truthy case.row.deviceModel).isSome),
      ("alarm_name", (Text.truthy case.row.alarmName).isSome),
      ("symptom_summary", (Text.truthy case.row.symptomSummary).isSome),
      ("root_cause", case.row.rootCause ≠ ""),
      ("resolution_steps", case.resolutionSteps ≠ []),
      ("evidence_refs", case.evidenceRefs ≠ []),
      ("created_by", case.row.createdBy ≠ "")]
  let missing := (required.filter (fun field => field.2 = false)).map (·.1)
  if case.evidenceRefs.any (fun ref => ref ∉ validEvidence) then missing ++ ["valid_evidence_refs"]
  else missing

/-- `_index_request`. -/
def indexRequest (settings : CaseSettings) (call : CaseCall) (row : DiagnosisCaseModel)
    (operation : IndexOperation) : IndexJobCreate where
  entityType := .diagnosisCase
  entityId := row.caseId
  entityVersion := toString row.caseVersion
  operation := operation
  traceId := call.traceId
  correlationId := row.sourceSessionId
  causationId := row.sourceReviewId
  maxAttempts := settings.indexMaxAttempts

/-- `self.get`. -/
def fetch (caseId : String) : Service γ DiagnosisCase := do
  let found ← get caseId
  match found with
  | none => Prog.raise .caseNotFound
  | some case => pure case

/-- A call to the vector store from the service; what it raises is never looked at. -/
def vectorCall (outcome : CallOutcome) (f : World γ → World γ) : Service γ Unit :=
  match outcome with
  | .applied => Prog.write f
  | .raised _ => Prog.raise .providerFailed
  | .appliedThenRaised _ => do
      Prog.write f
      Prog.raise .providerFailed

/-- The embedding of `_index`, or an error when a provider is missing or raises. -/
def embedCase (call : CaseCall) (text : String) :
    Except CaseError (CaseVectorPort × Embedding) :=
  match call.embedding, call.milvus with
  | some embed, some milvus =>
      match embed text with
      | .ok vector => .ok (milvus, vector)
      | .error _ => .error .providerFailed
  | _, _ => .error .providerFailed

/-- The providers of the call embed the case and take its vector. -/
def CaseCall.answers (call : CaseCall) (case : DiagnosisCase) : Bool :=
  match embedCase call (buildEmbeddingText case) with
  | .ok (milvus, vector) => milvus.upsert (caseVector case.row vector) = .applied
  | .error _ => false

/-- `_index`. -/
def index (call : CaseCall) (case : DiagnosisCase) : Service γ DiagnosisCase :=
  let text := buildEmbeddingText case
  Prog.handle
    (do
      let embedded ← Prog.lift (embedCase call text)
      let row := caseVector case.row embedded.2
      vectorCall (embedded.1.upsert row) (upsertCollection .case [row])
      setIndex case.row.caseId .indexed none (some text) true)
    (fun _ => setIndex case.row.caseId .failed (some "CASE_INDEX_PROVIDER_FAILED") (some text) false)

/-- The vector delete of `_tombstone`; without a vector store there is nothing to delete. -/
def deleteCaseVector (call : CaseCall) (caseId : String) : Service γ Unit :=
  match call.milvus with
  | none => pure ()
  | some milvus => vectorCall (milvus.delete caseId) (dropCaseVector caseId)

/-- `_tombstone`. -/
def tombstone (call : CaseCall) (case : DiagnosisCase) : Service γ DiagnosisCase :=
  Prog.handle
    (do
      deleteCaseVector call case.row.caseId
      setIndex case.row.caseId .tombstoned none none false)
    (fun _ => setIndex case.row.caseId .failed (some "CASE_TOMBSTONE_PROVIDER_FAILED") none false)

/-- The updates of a withdrawal: inactive, and queued or pending by mode. -/
def withdrawnRow (mode : IndexExecutionMode) (row : DiagnosisCaseModel) : DiagnosisCaseModel :=
  { row with
    isActive := false
    indexStatus := match mode with
      | .rabbitmq => .queued
      | .sync => .pending }

/-- The transition that `disable` and `_supersede` share. -/
def withdrawal (settings : CaseSettings) (call : CaseCall) (current : DiagnosisCase)
    (caseId : String) (target : CaseStatus) (action : String) (requestHash : RequestFingerprint)
    (key comment : Option String) : CaseTransition where
  caseId := caseId
  expected := .approved
  target := target
  actorId := call.actor.actorId
  actorRole := call.actor.actorRole.value
  action := action
  traceId := call.traceId
  requestHash := requestHash
  idempotencyKey := key
  comment := comment
  updates := withdrawnRow settings.indexExecutionMode
  indexRequest := match settings.indexExecutionMode with
    | .rabbitmq => some (indexRequest settings call current.row .tombstone)
    | .sync => none

/-- The idempotency key of a supersession. -/
def supersedeKey (caseId : String) : String := "supersede:" ++ caseId

/-- `_supersede`. -/
def supersede (settings : CaseSettings) (call : CaseCall) (caseId : String) : Service γ Unit := do
  let current ← fetch caseId
  let result ← transition settings.indexRepository
    (withdrawal settings call current caseId .superseded "case.superseded" (.supersede caseId)
      (some (supersedeKey caseId)) none) call.newJobId.val
  match settings.indexExecutionMode with
  | .sync => do
      let _ ← tombstone call result.case
      pure ()
  | .rabbitmq => pure ()

/-! ## Operations -/

/-- `patch`. -/
def patch (call : CaseCall) (caseId : String) (payload : CasePatchRequest) :
    Service γ DiagnosisCase :=
  updateDraft caseId payload call.actor.actorId call.actor.actorRole.privileged

/-- The transition of `submit`. -/
def submitTransition (call : CaseCall) (caseId : String) : CaseTransition where
  caseId := caseId
  expected := .draft
  target := .pendingReview
  actorId := call.actor.actorId
  actorRole := call.actor.actorRole.value
  action := "case.submitted"
  traceId := call.traceId
  requestHash := .submit caseId
  idempotencyKey := call.idempotencyKey
  comment := none
  updates := id
  indexRequest := none

/-- `submit`. -/
def submit (settings : CaseSettings) (call : CaseCall) (caseId : String) :
    Service γ DiagnosisCase := do
  let case ← fetch caseId
  Prog.raiseIf (case.row.createdBy ≠ call.actor.actorId ∧ call.actor.actorRole.privileged = false)
    .caseNotEditable
  let missing := missingCaseFields case (call.latestEvidence case.row.sourceSessionId)
  Prog.raiseIf (missing ≠ []) (.caseNotReady missing)
  let result ← transition settings.indexRepository (submitTransition call caseId) call.newJobId.val
  pure result.case

/-- The updates of a review. -/
def reviewedRow (settings : CaseSettings) (call : CaseCall) (payload : CaseReviewRequest)
    (row : DiagnosisCaseModel) : DiagnosisCaseModel :=
  let reviewed :=
    { row with reviewer := some call.actor.actorId, reviewComment := payload.comment }
  match payload.decision, settings.indexExecutionMode with
  | .approve, .rabbitmq => { reviewed with indexStatus := .queued, isActive := false }
  | _, _ => reviewed

/-- The transition of `review_case`. -/
def reviewTransition (settings : CaseSettings) (call : CaseCall) (case : DiagnosisCase)
    (caseId : String) (payload : CaseReviewRequest) : CaseTransition where
  caseId := caseId
  expected := .pendingReview
  target := match payload.decision with
    | .approve => .approved
    | .reject => .rejected
  actorId := call.actor.actorId
  actorRole := call.actor.actorRole.value
  action := match payload.decision with
    | .approve => "case.approved"
    | .reject => "case.rejected"
  traceId := call.traceId
  requestHash := .review caseId payload.decision.value payload.comment
  idempotencyKey := call.idempotencyKey
  comment := payload.comment
  updates := reviewedRow settings call payload
  indexRequest := match payload.decision, settings.indexExecutionMode with
    | .approve, .rabbitmq => some (indexRequest settings call case.row .upsert)
    | _, _ => none

/-- The index run of a fresh approval; in rabbitmq mode a worker does it later. -/
def indexApproved (settings : CaseSettings) (call : CaseCall) (approved : DiagnosisCase) :
    Service γ DiagnosisCase :=
  match settings.indexExecutionMode with
  | .sync => index call approved
  | .rabbitmq => pure approved

/-- The end of an approval: a revision that is indexed supersedes its original. -/
def supersedeReplaced (settings : CaseSettings) (call : CaseCall) (updated : DiagnosisCase) :
    Service γ DiagnosisCase :=
  match updated.row.indexStatus, updated.row.supersededId with
  | .indexed, some original => do
      supersede settings call original
      pure updated
  | _, _ => pure updated

/-- What `review_case` does after a fresh approval. -/
def afterApproval (settings : CaseSettings) (call : CaseCall) (approved : DiagnosisCase) :
    Service γ DiagnosisCase := do
  let updated ← indexApproved settings call approved
  supersedeReplaced settings call updated

/-- `review_case`. -/
def reviewCase (settings : CaseSettings) (call : CaseCall) (caseId : String)
    (payload : CaseReviewRequest) : Service γ DiagnosisCase := do
  let case ← fetch caseId
  Prog.raiseIf (case.row.createdBy = call.actor.actorId) .selfReviewForbidden
  let result ← transition settings.indexRepository
    (reviewTransition settings call case caseId payload) call.newJobId.val
  if result.replayed = true ∨ payload.decision = .reject then pure result.case
  else afterApproval settings call result.case

/-- `disable`. In sync mode the tombstone runs on a replay too. -/
def disable (settings : CaseSettings) (call : CaseCall) (caseId : String)
    (payload : CaseDisableRequest) : Service γ DiagnosisCase := do
  let current ← fetch caseId
  let result ← transition settings.indexRepository
    (withdrawal settings call current caseId .disabled "case.disabled"
      (.disable caseId payload.reason) call.idempotencyKey (some payload.reason))
    call.newJobId.val
  match settings.indexExecutionMode with
  | .sync => tombstone call result.case
  | .rabbitmq => pure result.case

/-- The values of a revision before the payload is set on them. -/
def revisionBase (call : CaseCall) (original : DiagnosisCase) (version : Nat) :
    DiagnosisCaseModel :=
  { original.row with
    caseId := call.newCaseId.val
    caseVersion := version
    reviewStatus := .draft
    reviewer := none
    reviewComment := none
    embeddingText := none
    indexStatus := .pending
    indexErrorCode := none
    isActive := false
    supersedesCaseId := some original.row.caseId
    createdBy := call.actor.actorId }

/-- The values `revision` creates a case from. -/
def revisionValues (call : CaseCall) (original : DiagnosisCase) (version : Nat)
    (patch : CasePatchRequest) : Option DiagnosisCaseModel :=
  (patch.newRootCause original.row).map (fun rootCause =>
    patch.rewrite rootCause (revisionBase call original version))

/-- The idempotency check of `revision`: the case an equal request has created, if it did. -/
def revisionReplay (call : CaseCall) (caseId : String) (fingerprint : RequestFingerprint) :
    Service γ (Option DiagnosisCase) := do
  let event ← Prog.read (fun w => replayOf w caseId call.idempotencyKey)
  match event with
  | none => pure none
  | some event => do
      Prog.raiseIf (event.requestHash ≠ fingerprint) .caseStateConflict
      match Text.truthy event.comment with
      | none => pure none
      | some revisionId => get revisionId

/-- `revision`. -/
def revision (settings : CaseSettings) (call : CaseCall) (caseId : String)
    (payload : CaseRevisionRequest) : Service γ DiagnosisCase := do
  let original ← fetch caseId
  let fingerprint := .revision caseId payload.patch.dump payload.submitForReview
  let replay ← revisionReplay call caseId fingerprint
  match replay with
  | some existing => pure existing
  | none => do
      Prog.raiseIf (original.row.reviewStatus ≠ .approved ∧ original.row.reviewStatus ≠ .rejected)
        .caseStateConflict
      let version ← Prog.read (fun w => nextVersion w original.row.sourceSessionId)
      let created ← create (revisionValues call original version payload.patch)
      appendEvent
        { caseId := caseId
          actorId := call.actor.actorId
          actorRole := call.actor.actorRole.value
          action := "case.revision_created"
          fromStatus := original.row.reviewStatus
          toStatus := original.row.reviewStatus
          comment := some created.row.caseId
          idempotencyKey := call.idempotencyKey
          requestHash := fingerprint
          traceId := call.traceId }
      if payload.submitForReview then submit settings call created.row.caseId else pure created

/-- The operation a reindex asks for, when the case is eligible: an approved case is indexed again,
a withdrawn one tombstoned again, if its last index run did not succeed. -/
def reindexOperation (row : DiagnosisCaseModel) : Option IndexOperation :=
  if row.indexStatus = .failed ∨ row.indexStatus = .pending ∨ row.indexStatus = .degraded then
    if row.reviewStatus = .approved then some .reindex
    else if row.reviewStatus.withdrawn then some .tombstone
    else none
  else none

/-- The event of a reindex; it keeps the review status. -/
def reindexEvent (call : CaseCall) (caseId action : String) (status : CaseStatus) :
    CaseReviewEventModel where
  caseId := caseId
  actorId := call.actor.actorId
  actorRole := call.actor.actorRole.value
  action := action
  fromStatus := status
  toStatus := status
  comment := none
  idempotencyKey := call.idempotencyKey
  requestHash := .reindex caseId
  traceId := call.traceId

/-- The part of `reindex` after its idempotency check. -/
def runReindex (settings : CaseSettings) (call : CaseCall) (caseId : String)
    (case : DiagnosisCase) : Service γ DiagnosisCase :=
  match reindexOperation case.row with
  | none => Prog.raise .caseNotIndexed
  | some operation =>
      match settings.indexExecutionMode with
      | .rabbitmq =>
          queueIndex settings.indexRepository caseId (indexRequest settings call case.row operation)
            (reindexEvent call caseId "case.reindex_queued") call.newJobId.val
      | .sync => do
          appendEvent (reindexEvent call caseId "case.reindex_started" case.row.reviewStatus)
          if operation = .tombstone then tombstone call case else index call case

/-- `reindex`. The second `self.get` of a replay reads the row again. -/
def reindex (settings : CaseSettings) (call : CaseCall) (caseId : String) :
    Service γ DiagnosisCase := do
  let case ← fetch caseId
  let event ← Prog.read (fun w => replayOf w caseId call.idempotencyKey)
  match event with
  | some event => do
      Prog.raiseIf (event.requestHash ≠ .reindex caseId) .caseStateConflict
      fetch caseId
  | none => runReindex settings call caseId case

/-- What `_create_draft` takes from the session, the reviewed result and the review. -/
structure DraftValues where
  sessionId : String
  runId : String
  reviewId : String
  sourceTicketId : Option String
  deviceType : Option String
  deviceModel : Option String
  manufacturer : Option String
  alarmName : Option String
  summary : Option String
  timeseries : Option String
  rootCause : String
  resolutionSteps : List String
  safetyNotes : List String
  evidenceRefs : List String

/-- `_create_draft`. -/
def createDraft (call : CaseCall) (draft : DraftValues) : Service γ DiagnosisCase := do
  let version ← Prog.read (fun w => nextVersion w draft.sessionId)
  create (some
    { caseId := call.newCaseId.val
      sourceSessionId := draft.sessionId
      sourceRunId := draft.runId
      sourceReviewId := draft.reviewId
      sourceTicketId := draft.sourceTicketId
      deviceType := draft.deviceType
      deviceModel := draft.deviceModel
      manufacturer := draft.manufacturer
      alarmName := draft.alarmName
      symptomSummary := draft.summary
      timeseriesFeatures := draft.timeseries
      rootCause := draft.rootCause
      resolutionSteps := some draft.resolutionSteps
      safetyNotes := some draft.safetyNotes
      evidenceRefs := some draft.evidenceRefs
      reviewStatus := .draft
      reviewer := none
      reviewComment := none
      caseVersion := version
      embeddingText := none
      indexStatus := .pending
      indexErrorCode := none
      isActive := false
      supersedesCaseId := none
      createdBy := call.actor.actorId })

/-! ## Requests as data -/

/-- The requests of the case API that write. -/
inductive CaseRequest
  | createDraft (draft : DraftValues)
  | patch (caseId : String) (payload : CasePatchRequest)
  | submit (caseId : String)
  | review (caseId : String) (payload : CaseReviewRequest)
  | disable (caseId : String) (payload : CaseDisableRequest)
  | revision (caseId : String) (payload : CaseRevisionRequest)
  | reindex (caseId : String)

/-- Handle a request. -/
def CaseRequest.run (settings : CaseSettings) (call : CaseCall) :
    CaseRequest → Service γ DiagnosisCase
  | .createDraft draft => Cases.createDraft call draft
  | .patch caseId payload => Cases.patch call caseId payload
  | .submit caseId => Cases.submit settings call caseId
  | .review caseId payload => reviewCase settings call caseId payload
  | .disable caseId payload => Cases.disable settings call caseId payload
  | .revision caseId payload => Cases.revision settings call caseId payload
  | .reindex caseId => Cases.reindex settings call caseId

end EnergyAgent.Cases
