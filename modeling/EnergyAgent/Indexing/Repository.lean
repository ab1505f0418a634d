import EnergyAgent.Persistence.Models

/-!
# `IndexRepository`

Each function is one transaction on the stored state: `.ok` commits, `.error` rolls back. The
read-modify-write functions that never raise (`finish`, `fail`, `markPublished`) are plain
functions on `World`.

The lemmas say, for each function, what it does to the job table and what it leaves alone; every
later proof uses them and none unfolds the functions again.
-/

namespace EnergyAgent.Indexing

open EnergyAgent.Lib EnergyAgent.Persistence

variable {γ : Type}

/-- The unique key of `index_job`, `IndexJobCreate.idempotency_key`. -/
def IndexJobModel.requestedBy (row : IndexJobModel) (request : IndexJobCreate) : Bool :=
  row.entityType == request.entityType && row.entityId == request.entityId &&
    row.entityVersion == request.entityVersion && row.operation == request.operation

/-- The row `_add_job` inserts for a request. -/
def newJob (request : IndexJobCreate) (jobId : String) : IndexJobModel where
  jobId := jobId
  entityType := request.entityType
  entityId := request.entityId
  entityVersion := request.entityVersion
  operation := request.operation
  status := .pending
  attemptCount := 0
  maxAttempts := request.maxAttempts
  traceId := request.traceId
  correlationId := request.correlationId
  causationId := request.causationId
  lastErrorCode := none
  lastErrorMessage := none

/-- The outbox row that asks for a message to be sent. -/
def newOutbox (id : Nat) (eventType : String) (message : IndexJobMessage) : IndexOutboxModel where
  id := id
  jobId := message.jobId
  eventType := eventType
  payload := message
  publishStatus := .pending
  publishAttempts := 0
  lastErrorCode := none

/-- The job a request finds already in the table. -/
def existingJob (w : World γ) (request : IndexJobCreate) : Option IndexJobModel :=
  w.jobs.find? (·.requestedBy request)

/-- `_add_job`: return the job of an equal request, or insert a new one with its outbox row.
`jobId` is what `new_id` draws. -/
def addJob (request : IndexJobCreate) (jobId : String) (w : World γ) :
    Except RepositoryError (IndexJobRecord × World γ) :=
  match existingJob w request with
  | some existing => (record existing).map (·, w)
  | none =>
      match Table.insert? IndexJobModel.jobId w.jobs (newJob request jobId) with
      | none => .error .duplicateKey
      | some jobs =>
          .ok (⟨newJob request jobId, Nat.zero_le _⟩,
            { w with
              jobs := jobs
              outbox := w.outbox ++
                [newOutbox w.nextOutboxId "index.job.requested.v1" (request.message jobId)] })

/-- The outbox row of a message that was sent. -/
def publishedRow (row : IndexOutboxModel) : IndexOutboxModel :=
  if row.publishStatus = .pending then
    { row with publishStatus := .published, publishAttempts := row.publishAttempts + 1 }
  else row

/-- The job of a message that was sent. -/
def queuedJob (job : IndexJobModel) : IndexJobModel :=
  if job.status = .pending then { job with status := .queued } else job

/-- `mark_published`. -/
def markPublished (outboxId : Nat) (jobId : String) (w : World γ) : World γ :=
  (w.updateOutbox outboxId publishedRow).updateJob jobId queuedJob

/-- `mark_publish_failed`. -/
def markPublishFailed (outboxId : Nat) (errorCode : String) (w : World γ) : World γ :=
  w.updateOutbox outboxId (fun row =>
    { row with publishAttempts := row.publishAttempts + 1, lastErrorCode := some errorCode })

/-- A job that an attempt begins on. -/
def startedJob (job : IndexJobModel) : IndexJobModel :=
  { job with status := .running, attemptCount := job.attemptCount + 1 }

/-- `start`: a finished job is returned as it is; any other becomes `RUNNING` with one more attempt.
The record is validated inside the transaction, after the increment. -/
def start (jobId : String) (w : World γ) :
    Except RepositoryError (Option IndexJobRecord × World γ) :=
  match w.getJob jobId with
  | none => .ok (none, w)
  | some job =>
      if job.status.finished then (record job).map (fun rec => (some rec, w))
      else (record (startedJob job)).map (fun rec => (some rec, w.updateJob jobId startedJob))

/-- The job after `finish`. -/
def finishedJob (status : IndexJobStatus) (job : IndexJobModel) : IndexJobModel :=
  { job with status := status, lastErrorCode := none, lastErrorMessage := none }

/-- `finish`: whatever the status was. -/
def finish (jobId : String) (status : IndexJobStatus) (w : World γ) : World γ :=
  w.updateJob jobId (finishedJob status)

/-- The case of a job that failed for good. -/
def failedCase (errorCode : String) (row : DiagnosisCaseModel) : DiagnosisCaseModel :=
  { row with indexStatus := .failed, indexErrorCode := some errorCode, isActive := false }

theorem failedCase_caseId (errorCode : String) (row : DiagnosisCaseModel) :
    (failedCase errorCode row).caseId = row.caseId := rfl

/-- The part of `fail` that marks the indexed entity, when the job is not retried. Every ingestion
draws its own `index_generation`, so at most one document has the generation of the job. -/
def failEntity (job : IndexJobModel) (errorCode : String) (w : World γ) : World γ :=
  match job.entityType with
  | .diagnosisCase => w.updateCase job.entityId (failedCase errorCode)
  | .maintenanceTicket =>
      w.updateTicket job.entityId (fun row =>
        { row with indexStatus := .failed, indexErrorCode := some errorCode })
  | .manualDocument =>
      { w with
        documents := w.documents.map (fun row =>
          if row.docId = job.entityId ∧ row.indexGeneration = some job.entityVersion then
            { row with indexStatus := .failed, indexErrorCode := some errorCode }
          else row) }
  | .templateGraph => w

/-- The job after `fail`. -/
def failedJob (errorCode errorMessage : String) (retry : Bool) (job : IndexJobModel) :
    IndexJobModel :=
  { job with
    status := if retry then .queued else .failed
    lastErrorCode := some errorCode
    lastErrorMessage := some (String.ofList (errorMessage.toList.take 512)) }

/-- `fail`: `QUEUED` when a retry follows, else `FAILED` together with the entity. -/
def fail (jobId errorCode errorMessage : String) (retry : Bool) (w : World γ) : World γ :=
  match w.getJob jobId with
  | none => w
  | some job =>
      let w' := w.updateJob jobId (failedJob errorCode errorMessage retry)
      if retry then w' else failEntity job errorCode w'

/-- The message of a retried job. -/
def retryMessage (job : IndexJobModel) (traceId : String) : IndexJobMessage where
  jobId := job.jobId
  entityType := job.entityType
  entityId := job.entityId
  entityVersion := job.entityVersion
  operation := job.operation
  traceId := traceId
  correlationId := job.correlationId
  causationId := job.jobId

/-- A failed job that the operator puts back. -/
def retriedJob (job : IndexJobModel) : IndexJobModel :=
  { job with status := .pending, attemptCount := 0, lastErrorCode := none, lastErrorMessage := none }

/-- `retry`, the operator's command: only a `FAILED` job, back to `PENDING` with a new outbox row. -/
def retry (jobId traceId : String) (w : World γ) : World γ :=
  match w.getJob jobId with
  | none => w
  | some job =>
      if job.status = .failed then
        { w.updateJob jobId retriedJob with
          outbox := w.outbox ++
            [newOutbox w.nextOutboxId "index.job.retried.v1" (retryMessage job traceId)] }
      else w

/-! ## Finding the job of a request -/

theorem requestedBy_iff {row : IndexJobModel} {request : IndexJobCreate} :
    row.requestedBy request = true ↔
      row.entityType = request.entityType ∧ row.entityId = request.entityId ∧
        row.entityVersion = request.entityVersion ∧ row.operation = request.operation := by
  simp [IndexJobModel.requestedBy, and_assoc]

theorem existingJob_eq_some {w : World γ} {request : IndexJobCreate} {job : IndexJobModel}
    (h : existingJob w request = some job) : job ∈ w.jobs ∧ job.requestedBy request = true := by
  unfold existingJob at h
  refine ⟨List.mem_of_find?_eq_some h, ?_⟩
  simpa using List.find?_some h

theorem existingJob_eq_none {w : World γ} {request : IndexJobCreate} :
    existingJob w request = none ↔ ∀ job ∈ w.jobs, job.requestedBy request = false := by
  simp [existingJob]

/-- What a successful `addJob` did: nothing but a lookup, or one new job with one new outbox row. -/
theorem addJob_cases {request : IndexJobCreate} {jobId : String} {w w' : World γ}
    {rec : IndexJobRecord} (h : addJob request jobId w = .ok (rec, w')) :
    (existingJob w request = some rec.row ∧ w' = w) ∨
    (existingJob w request = none ∧ w.getJob jobId = none ∧ rec.row = newJob request jobId ∧
      w' = { w with
        jobs := w.jobs ++ [newJob request jobId]
        outbox := w.outbox ++
          [newOutbox w.nextOutboxId "index.job.requested.v1" (request.message jobId)] }) := by
  unfold addJob at h
  split at h
  · next existing hex =>
      cases hr : record existing with
      | error e =>
          rw [hr] at h
          cases h
      | ok r =>
          rw [hr] at h
          cases h
          rw [(record_eq_ok hr).1]
          exact Or.inl ⟨hex, rfl⟩
  · next hnone =>
      split at h
      · cases h
      · next jobs hins =>
          cases h
          obtain ⟨hfree, rfl⟩ := Table.insert?_eq_some hins
          exact Or.inr ⟨hnone, hfree, rfl, rfl⟩

theorem addJob_caseTable {request : IndexJobCreate} {jobId : String} {w w' : World γ}
    {rec : IndexJobRecord} (h : addJob request jobId w = .ok (rec, w')) : w'.cases = w.cases := by
  rcases addJob_cases h with ⟨_, rfl⟩ | ⟨_, _, _, rfl⟩ <;> rfl

/-- What a `start` that does not raise did. -/
theorem start_cases {jobId : String} {w w' : World γ} {rec : Option IndexJobRecord}
    (h : start jobId w = .ok (rec, w')) :
    (w.getJob jobId = none ∧ rec = none ∧ w' = w) ∨
    (∃ job r, w.getJob jobId = some job ∧ rec = some r ∧
      ((job.status.finished = true ∧ r.row = job ∧ w' = w) ∨
        (job.status.finished = false ∧ r.row = startedJob job ∧
          w' = w.updateJob jobId startedJob))) := by
  unfold start at h
  cases hjob : w.getJob jobId with
  | none =>
      rw [hjob] at h
      cases h
      exact Or.inl ⟨rfl, rfl, rfl⟩
  | some job =>
      simp only [hjob] at h
      refine Or.inr ⟨job, ?_⟩
      split at h
      · next hfinished =>
          cases hrec : record job with
          | error e => rw [hrec] at h; cases h
          | ok r =>
              rw [hrec] at h
              cases h
              exact ⟨r, rfl, rfl, Or.inl ⟨hfinished, (record_eq_ok hrec).1, rfl⟩⟩
      · next hfinished =>
          cases hrec : record (startedJob job) with
          | error e => rw [hrec] at h; cases h
          | ok r =>
              rw [hrec] at h
              cases h
              exact ⟨r, rfl, rfl, Or.inr ⟨by simpa using hfinished, (record_eq_ok hrec).1, rfl⟩⟩

/-! ## Fresh outbox ids -/

theorem le_foldr_max {n : Nat} : ∀ {l : List Nat}, n ∈ l → n ≤ l.foldr max 0
  | m :: l, h => by
    rcases List.mem_cons.mp h with rfl | h'
    · exact Nat.le_max_left _ _
    · exact Nat.le_trans (le_foldr_max h') (Nat.le_max_right _ _)

theorem getOutbox_nextOutboxId (w : World γ) : w.getOutbox w.nextOutboxId = none := by
  apply Table.get_eq_none.mpr
  intro row hrow heq
  have hle : row.id ≤ (w.outbox.map (·.id)).foldr max 0 :=
    le_foldr_max (List.mem_map_of_mem hrow)
  rw [heq] at hle
  unfold World.nextOutboxId at hle
  omega

/-! ## Frames: what each function leaves alone -/

@[simp] theorem updateCase_jobs (w : World γ) (k : String) (f) :
    (w.updateCase k f).jobs = w.jobs := rfl
@[simp] theorem updateCase_outbox (w : World γ) (k : String) (f) :
    (w.updateCase k f).outbox = w.outbox := rfl
@[simp] theorem updateCase_queue (w : World γ) (k : String) (f) :
    (w.updateCase k f).queue = w.queue := rfl
@[simp] theorem updateJob_cases (w : World γ) (k : String) (f) :
    (w.updateJob k f).cases = w.cases := rfl
@[simp] theorem updateJob_outbox (w : World γ) (k : String) (f) :
    (w.updateJob k f).outbox = w.outbox := rfl
@[simp] theorem updateJob_queue (w : World γ) (k : String) (f) :
    (w.updateJob k f).queue = w.queue := rfl
@[simp] theorem updateOutbox_cases (w : World γ) (k : Nat) (f) :
    (w.updateOutbox k f).cases = w.cases := rfl
@[simp] theorem updateOutbox_jobs (w : World γ) (k : Nat) (f) :
    (w.updateOutbox k f).jobs = w.jobs := rfl
@[simp] theorem updateOutbox_queue (w : World γ) (k : Nat) (f) :
    (w.updateOutbox k f).queue = w.queue := rfl

end EnergyAgent.Indexing
