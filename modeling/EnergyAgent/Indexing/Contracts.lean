import Mathlib.Data.Nat.Notation

/-!
# Index jobs and their messages

The enumerations and records of `indexing/contracts.py`. Time stamps are left out: no function of
the indexing path compares them.
-/

namespace EnergyAgent.Indexing

/-- `IndexStatus`, which `CaseIndexStatus` repeats value by value. -/
inductive IndexStatus
  | pending | queued | running | indexed | degraded | failed | tombstoned
  deriving DecidableEq, Repr

inductive IndexJobStatus
  | pending | queued | running | indexed | degraded | failed | tombstoned | stale
  deriving DecidableEq, Repr

/-- The statuses on which `IndexRepository.start` and `IndexConsumer.consume` treat a delivery as a
replay. `FAILED` is not one of them: a failed job is started again. -/
def IndexJobStatus.finished : IndexJobStatus → Bool
  | .indexed | .degraded | .tombstoned | .stale => true
  | .pending | .queued | .running | .failed => false

/-- The statuses in which nothing more is to happen to a job: the finished ones and `FAILED`. -/
def IndexJobStatus.terminal (s : IndexJobStatus) : Bool := s.finished || s == .failed

inductive OutboxPublishStatus
  | pending | published | failed
  deriving DecidableEq, Repr

inductive EntityType
  | manualDocument | maintenanceTicket | diagnosisCase | templateGraph
  deriving DecidableEq, Repr

inductive IndexOperation
  | upsert | reindex | tombstone | graphProject
  deriving DecidableEq, Repr

structure IndexJobMessage where
  jobId : String
  entityType : EntityType
  entityId : String
  entityVersion : String
  operation : IndexOperation
  traceId : String
  correlationId : String
  causationId : String
  deriving DecidableEq, Repr

/-- `Field(ge=1, le=20)`. -/
abbrev MaxAttempts := { n : Nat // 1 ≤ n ∧ n ≤ 20 }

/-- The default of `max_attempts` and of `index_max_attempts`. -/
def defaultMaxAttempts : MaxAttempts := ⟨3, by decide⟩

structure IndexJobCreate where
  entityType : EntityType
  entityId : String
  entityVersion : String
  operation : IndexOperation
  traceId : String
  correlationId : String
  causationId : String
  maxAttempts : MaxAttempts
  deriving DecidableEq

/-- The message `_add_job` builds for a new job. -/
def IndexJobCreate.message (request : IndexJobCreate) (jobId : String) : IndexJobMessage where
  jobId := jobId
  entityType := request.entityType
  entityId := request.entityId
  entityVersion := request.entityVersion
  operation := request.operation
  traceId := request.traceId
  correlationId := request.correlationId
  causationId := request.causationId

/-- A row of `index_job`. -/
structure IndexJobModel where
  jobId : String
  entityType : EntityType
  entityId : String
  entityVersion : String
  operation : IndexOperation
  status : IndexJobStatus
  attemptCount : Nat
  maxAttempts : MaxAttempts
  traceId : String
  correlationId : String
  causationId : String
  lastErrorCode : Option String
  lastErrorMessage : Option String
  deriving DecidableEq

/-- A row of `index_outbox`. -/
structure IndexOutboxModel where
  id : Nat
  jobId : String
  eventType : String
  payload : IndexJobMessage
  publishStatus : OutboxPublishStatus
  publishAttempts : Nat
  lastErrorCode : Option String
  deriving DecidableEq

/-- What the index repository raises. -/
inductive RepositoryError
  /-- `validate_attempts`: "attempt_count cannot exceed max_attempts". -/
  | attemptsExceeded
  /-- The database refused an insert because of a primary or unique key. -/
  | duplicateKey
  deriving DecidableEq, Repr

/-- A job as the repository hands it out: a row that passed `validate_attempts`. -/
structure IndexJobRecord where
  row : IndexJobModel
  attempts : row.attemptCount ≤ row.maxAttempts.val

/-- `_record`. -/
def record (row : IndexJobModel) : Except RepositoryError IndexJobRecord :=
  if h : row.attemptCount ≤ row.maxAttempts.val then .ok ⟨row, h⟩ else .error .attemptsExceeded

def shouldDeadLetter (attemptCount : Nat) (maxAttempts : MaxAttempts) (retryable : Bool) : Bool :=
  !retryable || maxAttempts.val ≤ attemptCount

theorem record_eq_ok {row : IndexJobModel} {rec : IndexJobRecord} (h : record row = .ok rec) :
    rec.row = row ∧ row.attemptCount ≤ row.maxAttempts.val := by
  unfold record at h
  split at h
  · next hle =>
      cases h
      exact ⟨rfl, hle⟩
  · cases h

theorem record_of_le {row : IndexJobModel} (h : row.attemptCount ≤ row.maxAttempts.val) :
    record row = .ok ⟨row, h⟩ := dif_pos h

end EnergyAgent.Indexing
