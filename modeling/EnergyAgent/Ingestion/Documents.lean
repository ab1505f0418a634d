import EnergyAgent.Indexing.HandlerRuntime
import EnergyAgent.Ingestion.Sections
import EnergyAgent.Retrieval.Admission

/-!
# Manual documents

`persistence/repositories/manual_document.py`. A document and each of its chunks carry the flag that
they are in effect; `create_pending` takes it from the older versions and gives it to the new one. The
index worker and the search read the same two tables, each some of the columns: the rows here extend
the rows of both.
-/

namespace EnergyAgent.Ingestion

open EnergyAgent.Lib EnergyAgent.Indexing
open EnergyAgent.Persistence (World)

inductive ReviewStatus
  | draft | approved | rejected | disabled
  deriving DecidableEq, Repr

/-- What the column holds. -/
def ReviewStatus.value : ReviewStatus → String
  | .draft => "DRAFT"
  | .approved => "APPROVED"
  | .rejected => "REJECTED"
  | .disabled => "DISABLED"

structure DocumentManifest where
  docId : String
  documentName : String
  version : String
  contentType : String
  deviceType : String
  deviceModel : Option String := none
  manufacturer : Option String := none
  alarmName : Option String := none
  reviewStatus : ReviewStatus := .draft
  effective : Bool := false

/-- `manual_candidates` and the worker ask for this value of `review_status`. -/
def DocumentManifest.approved (manifest : DocumentManifest) : Bool :=
  manifest.reviewStatus = .approved

/-! ## The tables -/

/-- A row of `manual_document`. -/
structure DocumentRow extends Persistence.ManualDocumentModel where
  documentName : String
  objectKey : String
  contentType : String
  fileSha256 : String
  parserVersion : String
  chunkingVersion : String
  embeddingModel : Option String
  embeddingDimension : Option Nat
  chunkCount : Nat
  deriving DecidableEq

/-- The unique key of `manual_document`. -/
def DocumentRow.key (row : DocumentRow) : String × String := (row.docId, row.version)

/-- A row of `manual_chunk`. -/
structure ChunkRow extends Retrieval.ManualChunkModel where
  contentHash : String
  chunkOrder : Nat
  keywords : List String
  embeddingText : String
  indexGeneration : String
  embeddingModel : Option String
  embeddingDimension : Option Nat
  indexed : Bool
  deriving DecidableEq

/-- The document that the chunk is of. -/
def ChunkRow.key (row : ChunkRow) : String × String := (row.docId, row.version)

/-- The columns that the worker reads. -/
def ChunkRow.indexRow (row : ChunkRow) : Persistence.ManualChunkModel where
  chunkId := row.chunkId
  docId := row.docId
  version := row.version
  alarmName := row.alarmName
  summaryOrContent := row.summaryOrContent
  embeddingText := some row.embeddingText
  indexed := row.indexed

/-- The two tables, the uploaded files, and all else that is stored; the documents and chunks in `rest`
do not count. -/
structure Library (γ : Type) where
  documents : List DocumentRow
  chunks : List ChunkRow
  objects : List (String × List UInt8)
  rest : World γ

variable {γ : Type}

/-- What the worker sees. -/
def Library.world (lib : Library γ) : World γ :=
  { lib.rest with
    documents := lib.documents.map DocumentRow.toManualDocumentModel
    chunks := lib.chunks.map ChunkRow.indexRow }

/-- What `manual_candidates` sees. -/
def Library.database (lib : Library γ) : Retrieval.Database where
  chunks := lib.chunks.map ChunkRow.toManualChunkModel
  documents := lib.documents.map DocumentRow.toManualDocumentModel
  tickets := []
  cases := []

/-- The chunks of a version of a document. -/
def Library.chunksOf (lib : Library γ) (key : String × String) : List ChunkRow :=
  lib.chunks.filter fun row => row.key = key

/-! ## `create_pending` -/

/-- The chunks of one document, numbered from 0. -/
structure NumberedChunks where
  chunks : List DocumentChunk
  numbered : chunks.map DocumentChunk.chunkOrder = List.range chunks.length

/-- The arguments of `create_pending`. -/
structure PendingDocument where
  manifest : DocumentManifest
  objectKey : String
  checksum : String
  chunks : NumberedChunks
  parserVersion : String
  chunkingVersion : String
  indexGeneration : String
  embeddingModel : Option String
  embeddingDimension : Option Nat
  indexRequest : Option IndexJobCreate

def PendingDocument.key (pending : PendingDocument) : String × String :=
  (pending.manifest.docId, pending.manifest.version)

def PendingDocument.documentRow (pending : PendingDocument) : DocumentRow where
  docId := pending.manifest.docId
  version := pending.manifest.version
  deviceType := pending.manifest.deviceType
  deviceModel := pending.manifest.deviceModel
  manufacturer := pending.manifest.manufacturer
  reviewStatus := pending.manifest.reviewStatus.value
  effective := pending.manifest.effective
  indexStatus := if pending.indexRequest.isSome then .queued else .pending
  indexErrorCode := none
  indexGeneration := some pending.indexGeneration
  documentName := pending.manifest.documentName
  objectKey := pending.objectKey
  contentType := pending.manifest.contentType
  fileSha256 := pending.checksum
  parserVersion := pending.parserVersion
  chunkingVersion := pending.chunkingVersion
  embeddingModel := pending.embeddingModel
  embeddingDimension := pending.embeddingDimension
  chunkCount := pending.chunks.chunks.length

/-- `f"{chunk.chapter_title}\n{chunk.content}"` -/
def DocumentChunk.embeddingText (chunk : DocumentChunk) : String :=
  String.ofList (chunk.chapterTitle ++ '\n' :: chunk.content)

def PendingDocument.chunkRow (pending : PendingDocument) (chunk : DocumentChunk) : ChunkRow where
  chunkId := chunk.chunkId
  docId := pending.manifest.docId
  deviceType := pending.manifest.deviceType
  deviceModel := pending.manifest.deviceModel
  manufacturer := pending.manifest.manufacturer
  alarmName := pending.manifest.alarmName
  chapterTitle := String.ofList chunk.chapterTitle
  pageNo := chunk.pageNo.map Int.ofNat
  sectionType := chunk.sectionType
  summaryOrContent := String.ofList chunk.content
  version := pending.manifest.version
  verified := pending.manifest.approved
  effective := pending.manifest.effective
  contentHash := chunk.contentHash
  chunkOrder := chunk.chunkOrder
  keywords := chunk.keywords
  embeddingText := chunk.embeddingText
  indexGeneration := pending.indexGeneration
  embeddingModel := pending.embeddingModel
  embeddingDimension := pending.embeddingDimension
  indexed := false

def PendingDocument.chunkRows (pending : PendingDocument) : List ChunkRow :=
  pending.chunks.chunks.map pending.chunkRow

def DocumentRow.withdraw (docId : String) (row : DocumentRow) : DocumentRow :=
  if row.docId = docId ∧ row.effective = true then { row with effective := false } else row

def ChunkRow.withdraw (docId : String) (row : ChunkRow) : ChunkRow :=
  if row.docId = docId ∧ row.effective = true then { row with effective := false } else row

/-- The two `UPDATE`s of `create_pending`: no version of the document is in effect any more. -/
def Library.withdraw (lib : Library γ) (docId : String) : Library γ :=
  { lib with
    documents := lib.documents.map (DocumentRow.withdraw docId)
    chunks := lib.chunks.map (ChunkRow.withdraw docId) }

/-- The older versions make room for one that is to be in effect. -/
def Library.makeRoom (lib : Library γ) (manifest : DocumentManifest) : Library γ :=
  if manifest.effective then lib.withdraw manifest.docId else lib

/-- What a transaction on the documents raises. -/
inductive StoreError
  | repository (e : RepositoryError)
  /-- `RuntimeError("index repository is unavailable")` -/
  | noIndexRepository
  deriving DecidableEq, Repr

/-- The job of a document that is indexed later. `indexRepository` says that there is a repository for
jobs, `jobId` is the id it draws. -/
def addIndexJob (indexRepository : Bool) (jobId : String) (request : Option IndexJobCreate)
    (rest : World γ) : Except StoreError (Option String × World γ) :=
  match request with
  | none => .ok (none, rest)
  | some request =>
      if indexRepository = false then .error .noIndexRepository
      else match addJob request jobId rest with
        | .error e => .error (.repository e)
        | .ok (job, rest) => .ok (some job.row.jobId, rest)

/-- `create_pending` -/
def createPending (indexRepository : Bool) (jobId : String) (pending : PendingDocument)
    (lib : Library γ) : Except StoreError (Option String × Library γ) :=
  let lib := lib.makeRoom pending.manifest
  match Table.insert? DocumentRow.key lib.documents pending.documentRow,
      pending.chunkRows.foldlM (Table.insert? fun row => row.chunkId) lib.chunks with
  | some documents, some chunks => do
      let (job, rest) ← addIndexJob indexRepository jobId pending.indexRequest lib.rest
      return (job, { lib with documents := documents, chunks := chunks, rest := rest })
  | _, _ => .error (.repository .duplicateKey)

/-- What a `create_pending` that does not raise did to the two tables. -/
theorem createPending_eq_ok {indexRepository : Bool} {jobId : String} {pending : PendingDocument}
    {lib lib' : Library γ} {job : Option String}
    (h : createPending indexRepository jobId pending lib = .ok (job, lib')) :
    (∀ row ∈ (lib.makeRoom pending.manifest).documents, row.key ≠ pending.key) ∧
      lib'.documents = (lib.makeRoom pending.manifest).documents ++ [pending.documentRow] ∧
      lib'.chunks = (lib.makeRoom pending.manifest).chunks ++ pending.chunkRows := by
  unfold createPending at h
  simp only at h
  split at h
  · next documents chunks hdocuments hchunks =>
      obtain ⟨⟨job', rest⟩, -, hok⟩ := Prog.except_bind_eq_ok h
      cases hok
      obtain ⟨hfree, rfl⟩ := Table.insert?_eq_some hdocuments
      exact ⟨Table.get_eq_none.mp hfree, rfl, Table.foldlM_insert?_eq_some hchunks⟩
  · cases h

/-! ## `find` and `set_index_status` -/

def find (lib : Library γ) (docId version : String) : Option DocumentRow :=
  Table.get DocumentRow.key lib.documents (docId, version)

/-- The chunks of an indexed version. -/
def ChunkRow.index (docId version : String) (row : ChunkRow) : ChunkRow :=
  if row.docId = docId ∧ row.version = version then { row with indexed := true } else row

def DocumentRow.setStatus (docId version : String) (status : IndexStatus) (errorCode : Option String)
    (row : DocumentRow) : DocumentRow :=
  if row.docId = docId ∧ row.version = version then
    { row with indexStatus := status, indexErrorCode := errorCode }
  else row

/-- `set_index_status` -/
def setIndexStatus (docId version : String) (status : IndexStatus) (errorCode : Option String)
    (lib : Library γ) : Library γ :=
  { lib with
    documents := lib.documents.map (DocumentRow.setStatus docId version status errorCode)
    chunks := if status = .indexed then lib.chunks.map (ChunkRow.index docId version) else lib.chunks }

/-! ## What the worker writes -/

def DocumentRow.close (docId version : String) (row : DocumentRow) : DocumentRow :=
  if row.docId = docId ∧ row.version = version ∧ row.effective = true then
    { row with indexStatus := .indexed, indexErrorCode := none }
  else row

/-- The `UPDATE`s that close `_manual`. -/
def closeManual (docId version : String) (lib : Library γ) : Library γ :=
  { lib with
    documents := lib.documents.map (DocumentRow.close docId version)
    chunks := lib.chunks.map (ChunkRow.index docId version) }

def DocumentRow.failIndex (docId generation errorCode : String) (row : DocumentRow) : DocumentRow :=
  if row.docId = docId ∧ row.indexGeneration = some generation then
    { row with indexStatus := .failed, indexErrorCode := some errorCode }
  else row

/-- What `fail` does to the document of a job that is not retried. -/
def failManual (docId generation errorCode : String) (lib : Library γ) : Library γ :=
  { lib with documents := lib.documents.map (DocumentRow.failIndex docId generation errorCode) }

end EnergyAgent.Ingestion
