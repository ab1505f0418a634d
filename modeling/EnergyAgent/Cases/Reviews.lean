import EnergyAgent.Agent.State
import EnergyAgent.Cases.Interleaved

/-!
# Reviews of diagnoses

`review_diagnosis` of the case service, with the repository of the reviews. A confirmed diagnosis gets
a draft; a request with the key of an earlier one is its replay, and finds its case by the review that
the case comes from. Of a session and of a diagnosis result the models keep what the review reads.
-/

namespace EnergyAgent.Cases

open EnergyAgent.Core EnergyAgent.Lib EnergyAgent.Persistence EnergyAgent.Indexing
open EnergyAgent.Agent (DiagnosisPhase)

variable {γ : Type}

/-! ## Requests and rows -/

inductive DiagnosisReviewResult
  | confirmed | rejected | needsMoreInfo
  deriving DecidableEq, Repr

/-- `DiagnosisReviewRequest`, with what its validators ask for. -/
structure DiagnosisReviewRequest where
  reviewResult : DiagnosisReviewResult
  rootCause : Option String
  resolutionSteps : List String
  comments : Option String
  evidenceRefs : List String
  sourceTicketId : Option String
  overrideReason : Option String
  requestedQuestions : List String
  questions : requestedQuestions.length ≤ 3
  confirmed : reviewResult = .confirmed →
    (Text.truthy rootCause).isSome ∧ resolutionSteps ≠ [] ∧ evidenceRefs ≠ []
  rejected : reviewResult = .rejected → (Text.truthy comments).isSome
  needsMoreInfo : reviewResult = .needsMoreInfo →
    (Text.truthy comments).isSome ∨ requestedQuestions ≠ []
  deriving DecidableEq

/-- What `request_fingerprint` hashes: the operation, which names the session, and the payload. -/
structure ReviewFingerprint where
  operation : String
  payload : DiagnosisReviewRequest
  deriving DecidableEq

def reviewFingerprint (sessionId : String) (payload : DiagnosisReviewRequest) : ReviewFingerprint :=
  ⟨"diagnosis_review:" ++ sessionId, payload⟩

/-- A row of `diagnosis_review`. -/
structure DiagnosisReviewModel where
  reviewId : String
  sessionId : String
  runId : String
  actorId : String
  actorRole : String
  reviewResult : DiagnosisReviewResult
  rootCause : Option String
  resolutionSteps : List String
  comments : Option String
  evidenceRefs : List String
  sourceTicketId : Option String
  overrideReason : Option String
  requestedQuestions : List String
  idempotencyKey : Option String
  requestHash : ReviewFingerprint
  traceId : String
  deriving DecidableEq

/-- A row of `diagnosis_session`. -/
structure DiagnosisSessionModel where
  id : String
  phase : DiagnosisPhase
  alarmName : Option String
  latestReviewStatus : Option DiagnosisReviewResult
  deriving DecidableEq

/-- `session.phase in {COMPLETED, NEED_USER_INPUT}` -/
def DiagnosisSessionModel.reviewable (session : DiagnosisSessionModel) : Bool :=
  session.phase = .completed ∨ session.phase = .needUserInput

/-- An item of evidence, with the metadata that a draft takes from a device. -/
structure ResultEvidence where
  evidenceId : String
  sourceType : String
  summary : String
  deviceType : Option String
  deviceModel : Option String
  manufacturer : Option String
  deriving DecidableEq

/-- A row of `diagnosis_result`. -/
structure DiagnosisResultModel where
  runId : String
  sessionId : String
  summary : String
  candidateCauses : List String
  evidence : List ResultEvidence
  safetyNotes : List String
  deriving DecidableEq

/-- The tables of the case service and those of the reviews; the results are kept in order of
creation. -/
structure ReviewDesk (γ : Type) where
  world : World γ
  reviews : List DiagnosisReviewModel
  sessions : List DiagnosisSessionModel
  results : List DiagnosisResultModel

inductive ReviewError
  | sessionNotReviewable
  | invalidEvidenceReference
  | rootCauseOverrideReasonRequired
  /-- `AppendCaseReviewInput` refuses the actor. -/
  | inputInvalid
  | idempotencyConflict
  | integrity
  /-- `MultipleResultsFound`, of `scalar_one_or_none`. -/
  | multipleResults
  | assertionFailed
  | case (e : CaseError)
  deriving DecidableEq

abbrev Reviewing (γ α : Type) := Prog (ReviewDesk γ) ReviewError α

/-- A function of the case service. -/
def onCases {α : Type} (x : Service γ α) : Reviewing γ α := fun d =>
  match x d.world with
  | (.ok a, w) => (.ok a, { d with world := w })
  | (.error e, w) => (.error (.case e), { d with world := w })

/-! ## Repositories -/

def ReviewDesk.getSession (d : ReviewDesk γ) (sessionId : String) : Option DiagnosisSessionModel :=
  Table.get DiagnosisSessionModel.id d.sessions sessionId

/-- `results.latest` -/
def ReviewDesk.latestResult (d : ReviewDesk γ) (sessionId : String) : Option DiagnosisResultModel :=
  (d.results.filter (·.sessionId = sessionId)).getLast?

/-- The review of a session that has the key. -/
def ReviewDesk.reviewWithKey (d : ReviewDesk γ) (sessionId key : String) :
    Option DiagnosisReviewModel :=
  d.reviews.find? fun review => review.sessionId = sessionId ∧ review.idempotencyKey = some key

/-- The transaction of `DiagnosisReviewRepository.append`. `review_id` and
`(session_id, idempotency_key)` are unique, and `NULL` keys do not clash. -/
def appendReview (values : DiagnosisReviewModel) (d : ReviewDesk γ) :
    Except ReviewError (DiagnosisReviewModel × ReviewDesk γ) :=
  match (Text.truthy values.idempotencyKey).bind (d.reviewWithKey values.sessionId) with
  | some existing =>
      if existing.requestHash ≠ values.requestHash then .error .idempotencyConflict
      else .ok (existing, d)
  | none =>
      if (values.idempotencyKey.bind (d.reviewWithKey values.sessionId)).isSome ∨
          d.reviews.any (·.reviewId = values.reviewId) then .error .integrity
      else .ok (values, { d with reviews := d.reviews ++ [values] })

/-- The cases that come from a review. -/
def ReviewDesk.casesOf (d : ReviewDesk γ) (reviewId : String) : List DiagnosisCaseModel :=
  d.world.cases.filter (·.sourceReviewId = reviewId)

/-- `get_by_review` -/
def getByReview (reviewId : String) : Reviewing γ (Option DiagnosisCase) := do
  let found ← Prog.read (·.casesOf reviewId)
  match found with
  | [] => pure none
  | [row] => do
      let case ← onCases (Prog.lift (caseRecord row))
      pure (some case)
  | _ => .raise .multipleResults

/-- `sessions.update` -/
def updateSession (sessionId : String) (f : DiagnosisSessionModel → DiagnosisSessionModel)
    (d : ReviewDesk γ) : ReviewDesk γ :=
  { d with sessions := Table.update DiagnosisSessionModel.id d.sessions sessionId f }

/-! ## `review_diagnosis` -/

/-- The values of the draft that a confirmed diagnosis gets. -/
def reviewDraft (session : DiagnosisSessionModel) (result : DiagnosisResultModel) (reviewId rootCause : String)
    (payload : DiagnosisReviewRequest) : DraftValues :=
  let device := result.evidence.find? (·.sourceType = "device")
  { sessionId := session.id
    runId := result.runId
    reviewId := reviewId
    sourceTicketId := payload.sourceTicketId
    deviceType := device.bind (·.deviceType)
    deviceModel := device.bind (·.deviceModel)
    manufacturer := device.bind (·.manufacturer)
    alarmName := session.alarmName
    summary := some result.summary
    timeseries := (result.evidence.find? (·.sourceType = "timeseries")).map (·.summary)
    rootCause := rootCause
    resolutionSteps := payload.resolutionSteps
    safetyNotes := result.safetyNotes
    evidenceRefs := payload.evidenceRefs }

/-- `_create_draft` -/
def createReviewDraft (call : CaseCall) (sessionId : String) (result : DiagnosisResultModel)
    (reviewId : String) (payload : DiagnosisReviewRequest) : Reviewing γ DiagnosisCase := do
  let session ← Prog.read (·.getSession sessionId)
  match session, payload.rootCause with
  | some session, some rootCause =>
      onCases (createDraft call (reviewDraft session result reviewId rootCause payload))
  | _, _ => .raise .assertionFailed

/-- The row that `review_diagnosis` appends. -/
def reviewValues (call : CaseCall) (reviewId sessionId : String) (result : DiagnosisResultModel)
    (payload : DiagnosisReviewRequest) : DiagnosisReviewModel where
  reviewId := reviewId
  sessionId := sessionId
  runId := result.runId
  actorId := call.actor.actorId
  actorRole := call.actor.actorRole.value
  reviewResult := payload.reviewResult
  rootCause := payload.rootCause
  resolutionSteps := payload.resolutionSteps
  comments := Text.truthy payload.comments
  evidenceRefs := payload.evidenceRefs
  sourceTicketId := payload.sourceTicketId
  overrideReason := payload.overrideReason
  requestedQuestions := payload.requestedQuestions
  idempotencyKey := call.idempotencyKey
  requestHash := reviewFingerprint sessionId payload
  traceId := call.traceId

/-- `DiagnosisReviewResponse` -/
structure DiagnosisReviewResponse where
  reviewId : String
  sessionId : String
  runId : String
  reviewResult : DiagnosisReviewResult
  caseId : Option String
  caseStatus : Option CaseStatus
  traceId : String
  deriving DecidableEq

/-- The evidence that the payload cites is that of the result. -/
def DiagnosisResultModel.knows (result : DiagnosisResultModel) (payload : DiagnosisReviewRequest) : Bool :=
  payload.evidenceRefs.all fun ref => result.evidence.any (·.evidenceId = ref)

/-- The root cause is a candidate of the result, or there is a reason to override it. -/
def DiagnosisResultModel.allows (result : DiagnosisResultModel) (payload : DiagnosisReviewRequest) :
    Bool :=
  payload.rootCause.any (· ∈ result.candidateCauses) ∨ (Text.truthy payload.overrideReason).isSome

/-- `require_human_action` -/
def CaseCall.mayReview (call : CaseCall) : Bool :=
  call.actor.actorId ≠ "" ∧ call.actor.actorRole ≠ .viewer

/-- What a review leads to. -/
def followReview (call : CaseCall) (sessionId : String) (result : DiagnosisResultModel)
    (reviewId : String) (payload : DiagnosisReviewRequest) : Reviewing γ (Option DiagnosisCase) :=
  match payload.reviewResult with
  | .confirmed => do
      let found ← getByReview reviewId
      match found with
      | some case => pure (some case)
      | none => do
          let case ← createReviewDraft call sessionId result reviewId payload
          pure (some case)
  | .needsMoreInfo => do
      Prog.write (updateSession sessionId fun session =>
        { session with phase := .needUserInput, latestReviewStatus := some payload.reviewResult })
      pure none
  | .rejected => do
      Prog.write (updateSession sessionId fun session =>
        { session with latestReviewStatus := some payload.reviewResult })
      pure none

/-- `review_diagnosis` -/
def reviewDiagnosis (call : CaseCall) (newReviewId : NewId) (sessionId : String)
    (payload : DiagnosisReviewRequest) : Reviewing γ DiagnosisReviewResponse := do
  let session ← Prog.read (·.getSession sessionId)
  let result ← Prog.read (·.latestResult sessionId)
  match session, result with
  | some session, some result => do
      Prog.raiseIf (session.reviewable = false) .sessionNotReviewable
      Prog.raiseIf (result.knows payload = false) .invalidEvidenceReference
      Prog.raiseIf (payload.reviewResult = .confirmed ∧ result.allows payload = false)
        .rootCauseOverrideReasonRequired
      Prog.raiseIf (call.mayReview = false) .inputInvalid
      let review ← Prog.transaction
        (appendReview (reviewValues call newReviewId.val sessionId result payload))
      let case ← followReview call sessionId result review.reviewId payload
      pure
        { reviewId := review.reviewId
          sessionId := sessionId
          runId := result.runId
          reviewResult := payload.reviewResult
          caseId := case.map (·.row.caseId)
          caseStatus := case.map (·.row.reviewStatus)
          traceId := call.traceId }
  | _, _ => .raise .sessionNotReviewable

/-! ## The system -/

/-- The tables, with the requests and workers that are running on those of the cases. -/
structure ReviewThreads (γ : Type) where
  desk : ReviewDesk γ
  threads : List (Thread Access (World γ) Empty Unit)

/-- The part that the case service and the workers run on. -/
def ReviewThreads.cases (s : ReviewThreads γ) : Threads Access (World γ) Empty Unit :=
  ⟨s.desk.world, s.threads⟩

/-- The steps: a move of the case service or of a worker, a whole `review_diagnosis`, or whatever the
diagnosis does to its own tables. -/
inductive ReviewLabel (γ : Type)
  | cases (move : Threads.Move (Label γ))
  | review (call : CaseCall) (newReviewId : NewId) (sessionId : String)
      (payload : DiagnosisReviewRequest)
  | diagnosis (sessions : List DiagnosisSessionModel) (results : List DiagnosisResultModel)

/-- Drafts are created by reviews and revisions only. -/
def createsDraft : Threads.Move (Label γ) → Bool
  | .start (.api _ (.createDraft _)) => true
  | _ => false

/-- The case service with its reviews. -/
def reviewing (settings : CaseSettings) : TransitionSystem (ReviewThreads γ) (ReviewLabel γ) where
  init s := (interleaved settings).init s.cases ∧ s.desk.reviews = []
  step s
    | .cases move =>
        if createsDraft move then none
        else ((interleaved settings).step s.cases move).map fun q =>
          ⟨{ s.desk with world := q.store }, q.threads⟩
    | .review call newReviewId sessionId payload =>
        some { s with desk := (reviewDiagnosis call newReviewId sessionId payload s.desk).2 }
    | .diagnosis sessions results =>
        some { s with desk := { s.desk with sessions := sessions, results := results } }

end EnergyAgent.Cases
