import EnergyAgent.Indexing.Contracts
import EnergyAgent.Lib.Table
import EnergyAgent.Lib.Text
import Mathlib.Data.Rat.Defs

/-!
# The stored state

The tables of `persistence/models.py` that the case and indexing code reads or writes, the vector
collections, and the broker's queues, as one record `World`. The graph database stays a parameter
`γ` here: the handlers only ever call it.

Left out are the columns no modelled function reads: time stamps (of `indexed_at` and
`projected_at` only whether they are set is kept), embedding model names and dimensions, and the
surrogate keys of `graph_projection` and `case_review_event`.
-/

namespace EnergyAgent.Persistence

open EnergyAgent.Indexing EnergyAgent.Lib

/-! ## Cases -/

inductive CaseStatus
  | draft | pendingReview | approved | rejected | disabled | superseded
  deriving DecidableEq, Repr

/-- `DISABLED` or `SUPERSEDED`: the case was withdrawn after approval. -/
def CaseStatus.withdrawn : CaseStatus → Bool
  | .disabled | .superseded => true
  | _ => false

abbrev CaseIndexStatus := IndexStatus

/-- A row of `diagnosis_case`. The three JSON columns are `NOT NULL` in the schema, but a JSON
column given `None` stores the JSON value `null`, which the constraint accepts; `none` stands for
that value. -/
structure DiagnosisCaseModel where
  caseId : String
  sourceSessionId : String
  sourceRunId : String
  sourceReviewId : String
  sourceTicketId : Option String
  deviceType : Option String
  deviceModel : Option String
  manufacturer : Option String
  alarmName : Option String
  symptomSummary : Option String
  timeseriesFeatures : Option String
  rootCause : String
  resolutionSteps : Option (List String)
  safetyNotes : Option (List String)
  evidenceRefs : Option (List String)
  reviewStatus : CaseStatus
  reviewer : Option String
  reviewComment : Option String
  caseVersion : Nat
  embeddingText : Option String
  indexStatus : CaseIndexStatus
  indexErrorCode : Option String
  isActive : Bool
  supersedesCaseId : Option String
  createdBy : String
  deriving DecidableEq

/-- The case a revision replaces, when `if case.supersedes_case_id` lets it through. -/
def DiagnosisCaseModel.supersededId (case : DiagnosisCaseModel) : Option String :=
  Text.truthy case.supersedesCaseId

/-- The values of a `CasePatchRequest` after `model_dump`; an unset field dumps as `None`. -/
structure CasePatchValues where
  deviceType : Option String
  deviceModel : Option String
  manufacturer : Option String
  alarmName : Option String
  symptomSummary : Option String
  timeseriesFeatures : Option String
  rootCause : Option String
  resolutionSteps : Option (List String)
  safetyNotes : Option (List String)
  evidenceRefs : Option (List String)
  deriving DecidableEq, Repr

/-- `request_fingerprint` of each case request: the scope and the payload that are hashed. SHA-256
is taken to be free of collisions, so the digest is its preimage. -/
inductive RequestFingerprint
  | submit (caseId : String)
  | review (caseId decision : String) (comment : Option String)
  | disable (caseId reason : String)
  | revision (caseId : String) (payload : CasePatchValues) (submitForReview : Bool)
  | reindex (caseId : String)
  | supersede (caseId : String)
  deriving DecidableEq, Repr

/-- A row of `case_review_event`; the table is kept in order of insertion. -/
structure CaseReviewEventModel where
  caseId : String
  actorId : String
  actorRole : String
  action : String
  fromStatus : CaseStatus
  toStatus : CaseStatus
  comment : Option String
  idempotencyKey : Option String
  requestHash : RequestFingerprint
  traceId : String
  deriving DecidableEq, Repr

/-! ## Tickets, manuals and graph projections -/

structure MaintenanceTicketModel where
  ticketId : String
  deviceModel : String
  alarmName : String
  faultSymptom : String
  rootCause : String
  actionTaken : String
  isVerified : Bool
  closeTime : Option Int
  manufacturer : Option String
  embeddingText : Option String
  indexStatus : IndexStatus
  indexErrorCode : Option String
  indexGeneration : Option String
  indexed : Bool
  deriving DecidableEq, Repr

structure ManualDocumentModel where
  docId : String
  version : String
  deviceType : String
  deviceModel : Option String
  manufacturer : Option String
  reviewStatus : String
  effective : Bool
  indexStatus : IndexStatus
  indexErrorCode : Option String
  indexGeneration : Option String
  deriving DecidableEq, Repr

structure ManualChunkModel where
  chunkId : String
  docId : String
  version : String
  alarmName : Option String
  summaryOrContent : String
  embeddingText : Option String
  indexed : Bool
  deriving DecidableEq, Repr

inductive GraphProjectionStatus
  | pending | projected | degraded | failed | tombstoned
  deriving DecidableEq, Repr

structure GraphProjectionModel where
  entityType : EntityType
  entityId : String
  entityVersion : String
  status : GraphProjectionStatus
  lastErrorCode : Option String
  projected : Bool
  deriving DecidableEq, Repr

/-- The unique key of `graph_projection`. -/
def GraphProjectionModel.key (row : GraphProjectionModel) : EntityType × String × String :=
  (row.entityType, row.entityId, row.entityVersion)

/-! ## Vector collections -/

/-- A vector; its components are only stored, so the rationals stand in for floats. -/
abbrev Embedding := List ℚ

/-- A row of a vector collection; `caseVersion` is a column of the case collection and `closeTime`
one of the ticket collection. -/
structure VectorRow where
  id : String
  sourceId : String
  deviceType : String
  deviceModel : String
  manufacturer : String
  alarmName : String
  indexGeneration : String
  verified : Bool
  effective : Bool
  caseVersion : Option Nat
  closeTime : Option Int
  embedding : Embedding
  deriving DecidableEq

/-- The three collections of the vector store. -/
structure VectorStore where
  manual : List VectorRow
  ticket : List VectorRow
  case : List VectorRow
  deriving DecidableEq

/-- `upsert`: row by row, each replacing the row with its id. -/
def upsertRows (collection : List VectorRow) (rows : List VectorRow) : List VectorRow :=
  rows.foldl (Table.upsert VectorRow.id) collection

/-! ## The world -/

/-- All stored state. `queue` holds the messages that are not at a consumer (the main queue and the
retry queue, whose messages return to the main one); `unacked` those that are, until the consumer
settles them. -/
structure World (γ : Type) where
  cases : List DiagnosisCaseModel
  caseEvents : List CaseReviewEventModel
  jobs : List IndexJobModel
  outbox : List IndexOutboxModel
  tickets : List MaintenanceTicketModel
  documents : List ManualDocumentModel
  chunks : List ManualChunkModel
  projections : List GraphProjectionModel
  vectors : VectorStore
  graph : γ
  queue : List IndexJobMessage
  unacked : List IndexJobMessage
  deriving DecidableEq

/-- A world with empty tables, collections and queues. -/
def World.empty {γ : Type} (graph : γ) : World γ where
  cases := []
  caseEvents := []
  jobs := []
  outbox := []
  tickets := []
  documents := []
  chunks := []
  projections := []
  vectors := ⟨[], [], []⟩
  graph := graph
  queue := []
  unacked := []

namespace World

variable {γ : Type}

/-- `session.get(DiagnosisCaseModel, case_id)`. -/
def getCase (w : World γ) (caseId : String) : Option DiagnosisCaseModel :=
  Table.get DiagnosisCaseModel.caseId w.cases caseId

/-- `session.get(IndexJobModel, job_id)`. -/
def getJob (w : World γ) (jobId : String) : Option IndexJobModel :=
  Table.get IndexJobModel.jobId w.jobs jobId

/-- `session.get(IndexOutboxModel, outbox_id)`. -/
def getOutbox (w : World γ) (outboxId : Nat) : Option IndexOutboxModel :=
  Table.get IndexOutboxModel.id w.outbox outboxId

/-- `session.get(MaintenanceTicketModel, ticket_id)`. -/
def getTicket (w : World γ) (ticketId : String) : Option MaintenanceTicketModel :=
  Table.get MaintenanceTicketModel.ticketId w.tickets ticketId

/-- Write one case row. -/
def updateCase (w : World γ) (caseId : String)
    (f : DiagnosisCaseModel → DiagnosisCaseModel) : World γ :=
  { w with cases := Table.update DiagnosisCaseModel.caseId w.cases caseId f }

/-- Write one job row. -/
def updateJob (w : World γ) (jobId : String) (f : IndexJobModel → IndexJobModel) : World γ :=
  { w with jobs := Table.update IndexJobModel.jobId w.jobs jobId f }

/-- Write one outbox row. -/
def updateOutbox (w : World γ) (outboxId : Nat)
    (f : IndexOutboxModel → IndexOutboxModel) : World γ :=
  { w with outbox := Table.update IndexOutboxModel.id w.outbox outboxId f }

/-- Write one ticket row. -/
def updateTicket (w : World γ) (ticketId : String)
    (f : MaintenanceTicketModel → MaintenanceTicketModel) : World γ :=
  { w with tickets := Table.update MaintenanceTicketModel.ticketId w.tickets ticketId f }

/-- The autoincrement value the next outbox row gets. -/
def nextOutboxId (w : World γ) : Nat := (w.outbox.map (·.id)).foldr max 0 + 1

/-! ### Reading after writing -/

variable {w w' : World γ} {k k' : String}

theorem getCase_congr (h : w'.cases = w.cases) : w'.getCase k = w.getCase k := by
  unfold getCase
  rw [h]

theorem getJob_congr (h : w'.jobs = w.jobs) : w'.getJob k = w.getJob k := by
  unfold getJob
  rw [h]

theorem getCase_updateCase_self {f : DiagnosisCaseModel → DiagnosisCaseModel}
    (hf : ∀ r, (f r).caseId = r.caseId) :
    (w.updateCase k f).getCase k = (w.getCase k).map f :=
  Table.get_update_self (fun r h => (hf r).trans h)

theorem getCase_updateCase_ne {f : DiagnosisCaseModel → DiagnosisCaseModel}
    (hf : ∀ r, (f r).caseId = r.caseId) (hk : k' ≠ k) :
    (w.updateCase k f).getCase k' = w.getCase k' :=
  Table.get_update_ne (fun r h => (hf r).trans h) hk

theorem getTicket_updateTicket_self {f : MaintenanceTicketModel → MaintenanceTicketModel}
    (hf : ∀ r, (f r).ticketId = r.ticketId) :
    (w.updateTicket k f).getTicket k = (w.getTicket k).map f :=
  Table.get_update_self (fun r h => (hf r).trans h)

theorem getTicket_updateTicket_ne {f : MaintenanceTicketModel → MaintenanceTicketModel}
    (hf : ∀ r, (f r).ticketId = r.ticketId) (hk : k' ≠ k) :
    (w.updateTicket k f).getTicket k' = w.getTicket k' :=
  Table.get_update_ne (fun r h => (hf r).trans h) hk

theorem getJob_updateJob_self {f : IndexJobModel → IndexJobModel}
    (hf : ∀ r, (f r).jobId = r.jobId) :
    (w.updateJob k f).getJob k = (w.getJob k).map f :=
  Table.get_update_self (fun r h => (hf r).trans h)

theorem getJob_updateJob_ne {f : IndexJobModel → IndexJobModel}
    (hf : ∀ r, (f r).jobId = r.jobId) (hk : k' ≠ k) :
    (w.updateJob k f).getJob k' = w.getJob k' :=
  Table.get_update_ne (fun r h => (hf r).trans h) hk

end World

end EnergyAgent.Persistence
