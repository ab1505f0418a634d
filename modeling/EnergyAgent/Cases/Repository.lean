import EnergyAgent.Indexing.Repository
import EnergyAgent.Lib.Effect

/-!
# `CaseRepository`

Every write is one transaction. The functions that return a case validate the row *after* the
transaction has committed (`case_record`), so a call can raise and leave its write behind: that is
why they are programs (`Prog`) and their transactions are not.

`model.review_status` and the other enumerations are typed columns here, so `case_record` can only
fail on the three JSON columns and on `case_version`.
-/

namespace EnergyAgent.Cases

open EnergyAgent.Lib EnergyAgent.Persistence EnergyAgent.Indexing

variable {γ : Type}

/-- What the case service raises. -/
inductive CaseError
  | caseNotFound
  | caseNotEditable
  | caseStateConflict
  | caseNotReady (missingFields : List String)
  | caseNotIndexed
  | selfReviewForbidden
  /-- The `ValidationError` of `case_record`. -/
  | unreadable
  /-- The `ValidationError` of the index repository's `_record`. -/
  | jobInvalid
  /-- The database refused a write: a duplicate key, or `NULL` in a `NOT NULL` text column. -/
  | integrity
  /-- `RuntimeError("index repository is unavailable")`. -/
  | indexRepositoryUnavailable
  /-- An embedding or vector provider is missing or raised. -/
  | providerFailed
  deriving DecidableEq, Repr

def toCaseError : RepositoryError → CaseError
  | .attemptsExceeded => .jobInvalid
  | .duplicateKey => .integrity

/-- A function of the case service. -/
abbrev Service (γ α : Type) := Prog (World γ) CaseError α

/-! ## Reading a row -/

/-- What `DiagnosisCase.model_validate` asks of a row: lists in the JSON columns, and
`case_version` at least 1. -/
def Readable (row : DiagnosisCaseModel) : Prop :=
  row.resolutionSteps.isSome ∧ row.safetyNotes.isSome ∧ row.evidenceRefs.isSome ∧
    1 ≤ row.caseVersion

instance (row : DiagnosisCaseModel) : Decidable (Readable row) :=
  inferInstanceAs (Decidable (_ ∧ _))

/-- A case as the repository hands it out. -/
structure DiagnosisCase where
  row : DiagnosisCaseModel
  readable : Readable row

/-- `case_record`. -/
def caseRecord (row : DiagnosisCaseModel) : Except CaseError DiagnosisCase :=
  if h : Readable row then .ok ⟨row, h⟩ else .error .unreadable

/-- `get`. -/
def get (caseId : String) : Service γ (Option DiagnosisCase) := do
  let found ← Prog.read (·.getCase caseId)
  match found with
  | none => pure none
  | some row => do
      let case ← Prog.lift (caseRecord row)
      pure (some case)

/-- `next_version`. -/
def nextVersion (w : World γ) (sessionId : String) : Nat :=
  ((w.cases.filter (fun row => row.sourceSessionId = sessionId)).map (·.caseVersion)).foldr max 0 + 1

/-! ## Review events -/

/-- The event of a case with an idempotency key. -/
def idempotentEvent (w : World γ) (caseId key : String) : Option CaseReviewEventModel :=
  w.caseEvents.find? (fun event => event.caseId = caseId ∧ event.idempotencyKey = some key)

/-- The event that `if idempotency_key:` looks for. -/
def replayOf (w : World γ) (caseId : String) (key : Option String) : Option CaseReviewEventModel :=
  (Text.truthy key).bind (idempotentEvent w caseId)

/-- Insert a review event. `(case_id, idempotency_key)` is unique, and `NULL` keys do not clash. -/
def addEvent (event : CaseReviewEventModel) (w : World γ) : Except CaseError (World γ) :=
  if (event.idempotencyKey.bind (idempotentEvent w event.caseId)).isSome then .error .integrity
  else .ok { w with caseEvents := w.caseEvents ++ [event] }

/-- `append_event`. -/
def appendEvent (event : CaseReviewEventModel) : Service γ Unit :=
  Prog.transaction (fun w => (addEvent event w).map ((), ·))

/-! ## Writing rows -/

/-- The transaction of `create`. `values = none` stands for values with `root_cause = None`, which
the column refuses; `case_id` and `(source_session_id, case_version)` are unique. -/
def insertCase (values : Option DiagnosisCaseModel) (w : World γ) :
    Except CaseError (DiagnosisCaseModel × World γ) :=
  match values with
  | none => .error .integrity
  | some row =>
      if w.cases.any (fun r => r.sourceSessionId = row.sourceSessionId ∧
          r.caseVersion = row.caseVersion) then .error .integrity
      else
        match Table.insert? DiagnosisCaseModel.caseId w.cases row with
        | none => .error .integrity
        | some cases => .ok (row, { w with cases := cases })

/-- `create`. -/
def create (values : Option DiagnosisCaseModel) : Service γ DiagnosisCase := do
  let row ← Prog.transaction (insertCase values)
  Prog.lift (caseRecord row)

/-- The fields of a `CasePatchRequest`: `none` is a field that was not set, `some none` one set to
`null`. -/
structure CasePatchRequest where
  deviceType : Option (Option String)
  deviceModel : Option (Option String)
  manufacturer : Option (Option String)
  alarmName : Option (Option String)
  symptomSummary : Option (Option String)
  timeseriesFeatures : Option (Option String)
  rootCause : Option (Option String)
  resolutionSteps : Option (Option (List String))
  safetyNotes : Option (Option (List String))
  evidenceRefs : Option (Option (List String))
  deriving DecidableEq, Repr

/-- Set the fields of a patch on a row. -/
def CasePatchRequest.rewrite (patch : CasePatchRequest) (rootCause : String)
    (row : DiagnosisCaseModel) : DiagnosisCaseModel :=
  { row with
    deviceType := patch.deviceType.getD row.deviceType
    deviceModel := patch.deviceModel.getD row.deviceModel
    manufacturer := patch.manufacturer.getD row.manufacturer
    alarmName := patch.alarmName.getD row.alarmName
    symptomSummary := patch.symptomSummary.getD row.symptomSummary
    timeseriesFeatures := patch.timeseriesFeatures.getD row.timeseriesFeatures
    rootCause := rootCause
    resolutionSteps := patch.resolutionSteps.getD row.resolutionSteps
    safetyNotes := patch.safetyNotes.getD row.safetyNotes
    evidenceRefs := patch.evidenceRefs.getD row.evidenceRefs }

/-- The root cause after a patch; `none` when it would become `NULL`. -/
def CasePatchRequest.newRootCause (patch : CasePatchRequest) (row : DiagnosisCaseModel) :
    Option String :=
  patch.rootCause.getD (some row.rootCause)

/-- The transaction of `update_draft`. -/
def writeDraft (caseId : String) (patch : CasePatchRequest) (actorId : String) (privileged : Bool)
    (w : World γ) : Except CaseError (DiagnosisCaseModel × World γ) :=
  match w.getCase caseId with
  | none => .error .caseNotFound
  | some model =>
      if model.reviewStatus ≠ .draft then .error .caseNotEditable
      else if model.createdBy ≠ actorId ∧ privileged = false then .error .caseNotEditable
      else
        match patch.newRootCause model with
        | none => .error .integrity
        | some rootCause =>
            .ok (patch.rewrite rootCause model, w.updateCase caseId (patch.rewrite rootCause))

/-- `update_draft`. -/
def updateDraft (caseId : String) (patch : CasePatchRequest) (actorId : String)
    (privileged : Bool) : Service γ DiagnosisCase := do
  let row ← Prog.transaction (writeDraft caseId patch actorId privileged)
  Prog.lift (caseRecord row)

/-- The arguments of `transition`; `updates` is the dictionary as the change it makes. -/
structure CaseTransition where
  caseId : String
  expected : CaseStatus
  target : CaseStatus
  actorId : String
  actorRole : String
  action : String
  traceId : String
  requestHash : RequestFingerprint
  idempotencyKey : Option String
  comment : Option String
  updates : DiagnosisCaseModel → DiagnosisCaseModel
  indexRequest : Option IndexJobCreate

/-- The row after a transition. -/
def CaseTransition.rewrite (t : CaseTransition) (row : DiagnosisCaseModel) : DiagnosisCaseModel :=
  t.updates { row with reviewStatus := t.target }

/-- The event a transition appends. -/
def CaseTransition.event (t : CaseTransition) (previous : CaseStatus) : CaseReviewEventModel where
  caseId := t.caseId
  actorId := t.actorId
  actorRole := t.actorRole
  action := t.action
  fromStatus := previous
  toStatus := t.target
  comment := t.comment
  idempotencyKey := t.idempotencyKey
  requestHash := t.requestHash
  traceId := t.traceId

/-- The index job of a request, if there is one; `jobId` is what `new_id` draws. -/
def addIndexJob (indexRepository : Bool) (request : Option IndexJobCreate) (jobId : String)
    (w : World γ) : Except CaseError (World γ) :=
  match request with
  | none => .ok w
  | some request =>
      if indexRepository = false then .error .indexRepositoryUnavailable
      else
        match addJob request jobId w with
        | .ok (_, w') => .ok w'
        | .error e => .error (toCaseError e)

/-- The transaction of `transition`; the result is the row and whether it is a replay. -/
def applyTransition (indexRepository : Bool) (t : CaseTransition) (jobId : String) (w : World γ) :
    Except CaseError ((DiagnosisCaseModel × Bool) × World γ) :=
  match w.getCase t.caseId with
  | none => .error .caseNotFound
  | some model =>
      match replayOf w t.caseId t.idempotencyKey with
      | some existing =>
          if existing.requestHash ≠ t.requestHash then .error .caseStateConflict
          else .ok ((model, true), w)
      | none =>
          if model.reviewStatus ≠ t.expected then .error .caseStateConflict
          else do
            let w₁ ← addEvent (t.event model.reviewStatus) (w.updateCase t.caseId t.rewrite)
            let w₂ ← addIndexJob indexRepository t.indexRequest jobId w₁
            pure ((t.rewrite model, false), w₂)

structure CaseTransitionResult where
  case : DiagnosisCase
  replayed : Bool

/-- `transition`. -/
def transition (indexRepository : Bool) (t : CaseTransition) (jobId : String) :
    Service γ CaseTransitionResult := do
  let result ← Prog.transaction (applyTransition indexRepository t jobId)
  let case ← Prog.lift (caseRecord result.1)
  pure ⟨case, result.2⟩

/-- The row `queue_index` leaves. -/
def queuedRow (row : DiagnosisCaseModel) : DiagnosisCaseModel :=
  { row with indexStatus := .queued, isActive := false }

/-- The transaction of `queue_index`; the event keeps the review status. -/
def applyQueueIndex (caseId : String) (request : IndexJobCreate)
    (event : CaseStatus → CaseReviewEventModel) (jobId : String) (w : World γ) :
    Except CaseError (DiagnosisCaseModel × World γ) :=
  match w.getCase caseId with
  | none => .error .caseNotFound
  | some model => do
      let w₁ ← addEvent (event model.reviewStatus) (w.updateCase caseId queuedRow)
      let w₂ ← addIndexJob true (some request) jobId w₁
      pure (queuedRow model, w₂)

/-- `queue_index`. -/
def queueIndex (indexRepository : Bool) (caseId : String) (request : IndexJobCreate)
    (event : CaseStatus → CaseReviewEventModel) (jobId : String) : Service γ DiagnosisCase := do
  Prog.raiseIf (indexRepository = false) .indexRepositoryUnavailable
  let row ← Prog.transaction (applyQueueIndex caseId request event jobId)
  Prog.lift (caseRecord row)

/-- The row `set_index` leaves; `active` is given by every caller. -/
def setIndexRow (status : CaseIndexStatus) (errorCode embeddingText : Option String)
    (active : Bool) (row : DiagnosisCaseModel) : DiagnosisCaseModel :=
  { row with
    indexStatus := status
    indexErrorCode := errorCode
    embeddingText := embeddingText.orElse (fun _ => row.embeddingText)
    isActive := active }

/-- The transaction of `set_index`. -/
def applySetIndex (caseId : String) (status : CaseIndexStatus)
    (errorCode embeddingText : Option String) (active : Bool) (w : World γ) :
    Except CaseError (DiagnosisCaseModel × World γ) :=
  match w.getCase caseId with
  | none => .error .caseNotFound
  | some model =>
      .ok (setIndexRow status errorCode embeddingText active model,
        w.updateCase caseId (setIndexRow status errorCode embeddingText active))

/-- `set_index`. -/
def setIndex (caseId : String) (status : CaseIndexStatus) (errorCode embeddingText : Option String)
    (active : Bool) : Service γ DiagnosisCase := do
  let row ← Prog.transaction (applySetIndex caseId status errorCode embeddingText active)
  Prog.lift (caseRecord row)

/-! ## What a committed transaction has done -/

theorem caseRecord_eq_ok {row : DiagnosisCaseModel} {case : DiagnosisCase}
    (h : caseRecord row = .ok case) : case.row = row ∧ Readable row := by
  unfold caseRecord at h
  split at h
  · next hreadable =>
      cases h
      exact ⟨rfl, hreadable⟩
  · cases h

theorem caseRecord_of_readable {row : DiagnosisCaseModel} (h : Readable row) :
    caseRecord row = .ok ⟨row, h⟩ := dif_pos h

theorem addEvent_eq_ok {event : CaseReviewEventModel} {w w' : World γ}
    (h : addEvent event w = .ok w') :
    w' = { w with caseEvents := w.caseEvents ++ [event] } := by
  unfold addEvent at h
  split at h
  · cases h
  · cases h
    rfl

theorem addIndexJob_eq_ok {indexRepository : Bool} {request : Option IndexJobCreate}
    {jobId : String} {w w' : World γ} (h : addIndexJob indexRepository request jobId w = .ok w') :
    (request = none ∧ w' = w) ∨
    (∃ r rec, request = some r ∧ addJob r jobId w = .ok (rec, w')) := by
  unfold addIndexJob at h
  cases request with
  | none =>
      cases h
      exact Or.inl ⟨rfl, rfl⟩
  | some r =>
      simp only at h
      split at h
      · cases h
      · split at h
        · next rec w₁ hadd =>
            cases h
            exact Or.inr ⟨r, rec, rfl, hadd⟩
        · cases h

theorem insertCase_eq_ok {values : Option DiagnosisCaseModel} {row : DiagnosisCaseModel}
    {w w' : World γ} (h : insertCase values w = .ok (row, w')) :
    values = some row ∧ w.getCase row.caseId = none ∧
      w' = { w with cases := w.cases ++ [row] } := by
  unfold insertCase at h
  cases values with
  | none => cases h
  | some r =>
      simp only at h
      split at h
      · cases h
      · split at h
        · cases h
        · next cases' hinsert =>
            cases h
            obtain ⟨hfree, rfl⟩ := Table.insert?_eq_some hinsert
            exact ⟨rfl, hfree, rfl⟩

theorem writeDraft_eq_ok {caseId actorId : String} {patch : CasePatchRequest} {privileged : Bool}
    {row : DiagnosisCaseModel} {w w' : World γ}
    (h : writeDraft caseId patch actorId privileged w = .ok (row, w')) :
    ∃ model rootCause, w.getCase caseId = some model ∧ model.reviewStatus = .draft ∧
      row = patch.rewrite rootCause model ∧ w' = w.updateCase caseId (patch.rewrite rootCause) := by
  unfold writeDraft at h
  cases hmodel : w.getCase caseId with
  | none =>
      rw [hmodel] at h
      cases h
  | some model =>
      simp only [hmodel] at h
      split at h
      · cases h
      · next hdraft =>
          split at h
          · cases h
          · split at h
            · cases h
            · next rootCause _ =>
                cases h
                exact ⟨model, rootCause, rfl, not_not.mp hdraft, rfl, rfl⟩

/-- A transition is a replay that changes nothing, or it rewrites the row, appends its event and
adds its index job. -/
theorem applyTransition_eq_ok {indexRepository : Bool} {t : CaseTransition} {jobId : String}
    {row : DiagnosisCaseModel} {replayed : Bool} {w w' : World γ}
    (h : applyTransition indexRepository t jobId w = .ok ((row, replayed), w')) :
    (replayed = true ∧ w' = w ∧ w.getCase t.caseId = some row ∧
      ∃ event, replayOf w t.caseId t.idempotencyKey = some event ∧
        event.requestHash = t.requestHash) ∨
    (replayed = false ∧ ∃ model, w.getCase t.caseId = some model ∧
      model.reviewStatus = t.expected ∧ row = t.rewrite model ∧
      replayOf w t.caseId t.idempotencyKey = none ∧
      addIndexJob indexRepository t.indexRequest jobId
        { w.updateCase t.caseId t.rewrite with
          caseEvents := w.caseEvents ++ [t.event model.reviewStatus] } = .ok w') := by
  unfold applyTransition at h
  cases hmodel : w.getCase t.caseId with
  | none =>
      rw [hmodel] at h
      cases h
  | some model =>
      simp only [hmodel] at h
      split at h
      · next existing hreplay =>
          split at h
          · cases h
          · next hhash =>
              cases h
              exact Or.inl ⟨rfl, rfl, rfl, existing, hreplay, not_not.mp hhash⟩
      · next hreplay =>
          split at h
          · cases h
          · next hexpected =>
              obtain ⟨w₁, hevent, h₁⟩ := Prog.except_bind_eq_ok h
              obtain ⟨w₂, hjob, h₂⟩ := Prog.except_bind_eq_ok h₁
              cases h₂
              rw [addEvent_eq_ok hevent] at hjob
              exact Or.inr ⟨rfl, model, rfl, not_not.mp hexpected, rfl, hreplay, hjob⟩

theorem applyQueueIndex_eq_ok {caseId jobId : String} {request : IndexJobCreate}
    {event : CaseStatus → CaseReviewEventModel} {row : DiagnosisCaseModel} {w w' : World γ}
    (h : applyQueueIndex caseId request event jobId w = .ok (row, w')) :
    ∃ model rec, w.getCase caseId = some model ∧ row = queuedRow model ∧
      addJob request jobId
        { w.updateCase caseId queuedRow with
          caseEvents := w.caseEvents ++ [event model.reviewStatus] } = .ok (rec, w') := by
  unfold applyQueueIndex at h
  cases hmodel : w.getCase caseId with
  | none =>
      rw [hmodel] at h
      cases h
  | some model =>
      simp only [hmodel] at h
      obtain ⟨w₁, hevent, h₁⟩ := Prog.except_bind_eq_ok h
      obtain ⟨w₂, hjob, h₂⟩ := Prog.except_bind_eq_ok h₁
      cases h₂
      rw [addEvent_eq_ok hevent] at hjob
      rcases addIndexJob_eq_ok hjob with ⟨hnone, _⟩ | ⟨r, rec, hr, hadd⟩
      · cases hnone
      · cases hr
        exact ⟨model, rec, rfl, rfl, hadd⟩

theorem applySetIndex_eq_ok {caseId : String} {status : CaseIndexStatus}
    {errorCode embeddingText : Option String} {active : Bool} {row : DiagnosisCaseModel}
    {w w' : World γ} (h : applySetIndex caseId status errorCode embeddingText active w = .ok (row, w')) :
    ∃ model, w.getCase caseId = some model ∧
      row = setIndexRow status errorCode embeddingText active model ∧
      w' = w.updateCase caseId (setIndexRow status errorCode embeddingText active) := by
  unfold applySetIndex at h
  cases hmodel : w.getCase caseId with
  | none =>
      rw [hmodel] at h
      cases h
  | some model =>
      rw [hmodel] at h
      cases h
      exact ⟨model, rfl, rfl, rfl⟩

end EnergyAgent.Cases
