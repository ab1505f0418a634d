import EnergyAgent.Ingestion.Documents

/-!
# The ingestion service

`ingest` of `retrieval/ingestion/service.py`, as a program over the library. What the file store, the
parsers, the embedding service and Milvus answer is part of the service; a port that is not configured
is `none`. Spans are left out.
-/

namespace EnergyAgent.Ingestion

open EnergyAgent.Lib EnergyAgent.Indexing
open EnergyAgent.Persistence (World VectorRow Embedding)

/-! ## Errors and ports -/

/-- An exception: its `code` attribute, if it has one, the name of its type and its text. -/
structure PyException where
  code : Option String
  typeName : String
  message : String
  deriving DecidableEq, Repr

/-- `getattr(exc, "code", type(exc).__name__)` -/
def PyException.errorCode (e : PyException) : String := e.code.getD e.typeName

/-- `CancelledError` is no `Exception`. -/
inductive PortFailure
  | raised (e : PyException)
  | cancelled
  deriving DecidableEq, Repr

inductive IngestError
  | port (e : PortFailure)
  | store (e : StoreError)
  deriving DecidableEq, Repr

def IngestError.raised (code typeName message : String) : IngestError :=
  .port (.raised ⟨some code, typeName, message⟩)

def documentTooLarge : IngestError :=
  .raised "DOCUMENT_TOO_LARGE" "DocumentTooLargeError" "Document exceeds configured size limit"

def documentHashConflict : IngestError :=
  .raised "DOCUMENT_HASH_CONFLICT" "DocumentHashConflictError"
    "Document version already exists with a different hash"

def documentParse : IngestError :=
  .raised "DOCUMENT_PARSE_FAILED" "DocumentParseError" "Document contains no text"

/-- What came of a call that changes something elsewhere. -/
inductive PortAnswer
  | applied
  | raised (e : PortFailure)
  | appliedThenRaised (e : PortFailure)

structure EmbeddingPort where
  model : String
  dimension : Nat
  embed : List String → Except PortFailure (List Embedding)

/-- `DocumentIngestionService`, with what happens around one call of it. -/
structure IngestionService where
  minio : String → List UInt8 → PortAnswer
  milvus : Option (List VectorRow → PortAnswer)
  embedding : Option EmbeddingPort
  maxBytes : Nat
  /-- `index_execution_mode == "rabbitmq"` -/
  rabbitmq : Bool
  indexMaxAttempts : MaxAttempts
  /-- The document repository has one for jobs. -/
  indexRepository : Bool
  /-- The hexadecimal digest of a file. -/
  sha256 : List UInt8 → String
  parseDocument : String → List UInt8 → Except PortFailure (List ParsedBlock)
  runtime : ChunkRuntime
  /-- The two ids that `new_id` draws. -/
  generation : String
  jobId : String

structure IngestionResult where
  docId : String
  version : String
  objectKey : String
  fileSha256 : String
  chunkCount : Nat
  indexStatus : IndexStatus
  existing : Bool := false
  jobId : Option String := none
  deriving DecidableEq, Repr

def parserVersion : String := "parser.v1.0"

variable {γ : Type}

abbrev IngestProg (γ α : Type) := Prog (Library γ) IngestError α

/-! ## Calls -/

/-- A call that changes the library by `f`, with the given answer. -/
def PortAnswer.call (answer : PortAnswer) (f : Library γ → Library γ) :
    Prog (Library γ) PortFailure Unit :=
  match answer with
  | .applied => Prog.write f
  | .raised e => Prog.raise e
  | .appliedThenRaised e => do
      Prog.write f
      Prog.raise e

/-- An exception of a port goes on to the caller. -/
def passOn {α : Type} (x : Prog (Library γ) PortFailure α) : IngestProg γ α := fun lib =>
  match x lib with
  | (.ok a, lib) => (.ok a, lib)
  | (.error e, lib) => (.error (.port e), lib)

/-- A transaction; its exception goes on to the caller. -/
def inTransaction {α : Type} (t : Library γ → Except StoreError (α × Library γ)) : IngestProg γ α :=
  Prog.transaction fun lib =>
    match t lib with
    | .ok done => .ok done
    | .error e => .error (.store e)

/-- `put_verified` -/
def putObject (objectKey : String) (content : List UInt8) (lib : Library γ) : Library γ :=
  { lib with objects := Table.upsert Prod.fst lib.objects (objectKey, content) }

def upsertVectors (rows : List VectorRow) (lib : Library γ) : Library γ :=
  { lib with rest := upsertCollection .manual rows lib.rest }

section service

variable (service : IngestionService) (manifest : DocumentManifest)

def objectKeyOf (checksum : String) : String :=
  Text.join "/" [manifest.docId, manifest.version, checksum, manifest.documentName]

/-- `chunk_blocks` with its defaults. -/
def IngestionService.chunksOf (blocks : List ParsedBlock) : NumberedChunks where
  chunks := chunkBlocks service.runtime manifest.docId.toList manifest.version.toList 500 80 blocks
  numbered := chunkOrders_eq blocks

def IngestionService.indexRequest : IndexJobCreate where
  entityType := .manualDocument
  entityId := manifest.docId
  entityVersion := service.generation
  operation := .upsert
  traceId := "ingest-" ++ service.generation
  correlationId := manifest.docId
  causationId := service.generation
  maxAttempts := service.indexMaxAttempts

/-- What `ingest` asks `create_pending` for. -/
def IngestionService.pending (checksum : String) (blocks : List ParsedBlock) : PendingDocument where
  manifest := manifest
  objectKey := objectKeyOf manifest checksum
  checksum := checksum
  chunks := service.chunksOf manifest blocks
  parserVersion := parserVersion
  chunkingVersion := chunkingVersion
  indexGeneration := service.generation
  embeddingModel := service.embedding.map EmbeddingPort.model
  embeddingDimension := service.embedding.map EmbeddingPort.dimension
  indexRequest := if service.rabbitmq then some (service.indexRequest manifest) else none

/-- The row that is upserted for a chunk. -/
def IngestionService.vectorRow (chunk : DocumentChunk) (vector : Embedding) : VectorRow where
  id := chunk.chunkId
  sourceId := manifest.docId
  deviceType := manifest.deviceType
  deviceModel := manifest.deviceModel.getD ""
  manufacturer := manifest.manufacturer.getD ""
  alarmName := manifest.alarmName.getD ""
  indexGeneration := service.generation
  verified := manifest.approved
  effective := manifest.effective
  caseVersion := none
  closeTime := none
  embedding := vector

/-- The body of the `try`. -/
def IngestionService.indexVectors (embedding : EmbeddingPort) (milvus : List VectorRow → PortAnswer)
    (chunks : List DocumentChunk) : Prog (Library γ) PortFailure Unit := do
  let vectors ← Prog.lift (embedding.embed (chunks.map DocumentChunk.embeddingText))
  -- `zip(chunks, vectors, strict=True)`
  Prog.raiseIf (chunks.length ≠ vectors.length) (.raised ⟨none, "ValueError", "zip()"⟩)
  let rows := List.zipWith (service.vectorRow manifest) chunks vectors
  (milvus rows).call (upsertVectors rows)

/-- The `try` with its `except Exception`: the status and the error code that it ends with. -/
def settled (x : Prog (Library γ) PortFailure Unit) : IngestProg γ (IndexStatus × Option String) :=
  fun lib =>
    match x lib with
    | (.ok (), lib) => (.ok (.indexed, none), lib)
    | (.error (.raised e), lib) => (.ok (.failed, some e.errorCode), lib)
    | (.error .cancelled, lib) => (.error (.port .cancelled), lib)

/-- Indexing within the call. -/
def IngestionService.indexNow (chunks : List DocumentChunk) :
    IngestProg γ (IndexStatus × Option String) :=
  match service.embedding, service.milvus with
  | some embedding, some milvus => settled (service.indexVectors manifest embedding milvus chunks)
  | _, _ => pure (.degraded, some "EMBEDDING_UNAVAILABLE")

/-- The result for a version that was stored before. -/
def existingResult (row : DocumentRow) (checksum : String) : IngestionResult where
  docId := manifest.docId
  version := manifest.version
  objectKey := row.objectKey
  fileSha256 := checksum
  chunkCount := row.chunkCount
  indexStatus := row.indexStatus
  existing := true

/-- The result for a new version. -/
def PendingDocument.result (pending : PendingDocument) (status : IndexStatus)
    (jobId : Option String) : IngestionResult where
  docId := pending.manifest.docId
  version := pending.manifest.version
  objectKey := pending.objectKey
  fileSha256 := pending.checksum
  chunkCount := pending.chunks.chunks.length
  indexStatus := status
  jobId := jobId

/-- `ingest`, once the document is parsed. -/
def IngestionService.store (pending : PendingDocument) : IngestProg γ IngestionResult := do
  let jobId ← inTransaction (createPending service.indexRepository service.jobId pending)
  if service.rabbitmq then return pending.result .queued jobId
  else do
    let (status, errorCode) ← service.indexNow pending.manifest pending.chunks.chunks
    Prog.write (setIndexStatus pending.manifest.docId pending.manifest.version status errorCode)
    return pending.result status none

/-- `ingest` -/
def ingest (content : List UInt8) : IngestProg γ IngestionResult := do
  Prog.raiseIf (service.maxBytes < content.length) documentTooLarge
  let checksum := service.sha256 content
  match ← Prog.read (find · manifest.docId manifest.version) with
  | some row =>
      Prog.raiseIf (row.fileSha256 ≠ checksum) documentHashConflict
      return existingResult manifest row checksum
  | none =>
      let objectKey := objectKeyOf manifest checksum
      passOn ((service.minio objectKey content).call (putObject objectKey content))
      let blocks ← passOn (Prog.lift (service.parseDocument manifest.documentName content))
      Prog.raiseIf (blocks = []) documentParse
      service.store (service.pending manifest checksum blocks)

end service

/-! ## What a call does to the tables -/

/-- Neither table changes. -/
structure Library.SameTables (lib lib' : Library γ) : Prop where
  documents : lib'.documents = lib.documents
  chunks : lib'.chunks = lib.chunks

theorem Library.SameTables.rfl {lib : Library γ} : lib.SameTables lib := ⟨Eq.refl _, Eq.refl _⟩

theorem Library.SameTables.trans {lib lib' lib'' : Library γ} (h : lib.SameTables lib')
    (h' : lib'.SameTables lib'') : lib.SameTables lib'' :=
  ⟨h'.documents.trans h.documents, h'.chunks.trans h.chunks⟩

theorem Library.SameTables.call {answer : PortAnswer} {f : Library γ → Library γ}
    (hf : ∀ lib : Library γ, lib.SameTables (f lib)) {lib lib' : Library γ} {r : Except PortFailure Unit}
    (h : answer.call f lib = (r, lib')) : lib.SameTables lib' := by
  cases answer with
  | applied =>
      cases h
      exact hf lib
  | raised e =>
      cases h
      exact .rfl
  | appliedThenRaised e =>
      cases h
      exact hf lib

theorem sameTables_putObject (objectKey : String) (content : List UInt8) (lib : Library γ) :
    lib.SameTables (putObject objectKey content lib) := ⟨rfl, rfl⟩

theorem sameTables_upsertVectors (rows : List VectorRow) (lib : Library γ) :
    lib.SameTables (upsertVectors rows lib) := ⟨rfl, rfl⟩

/-- The library is the one that the port's program left. -/
theorem passOn_run {α : Type} {x : Prog (Library γ) PortFailure α} {lib lib' : Library γ}
    {r : Except IngestError α} (h : passOn x lib = (r, lib')) : ∃ r', x lib = (r', lib') := by
  unfold passOn at h
  split at h
  · next a lib₁ hx =>
      cases h
      exact ⟨_, hx⟩
  · next e lib₁ hx =>
      cases h
      exact ⟨_, hx⟩

theorem inTransaction_cases {α : Type} {t : Library γ → Except StoreError (α × Library γ)}
    {lib lib' : Library γ} {r : Except IngestError α} (h : inTransaction t lib = (r, lib')) :
    (∃ a, t lib = .ok (a, lib') ∧ r = .ok a) ∨ (∃ e, lib' = lib ∧ r = .error (.store e)) := by
  unfold inTransaction Prog.transaction at h
  cases ht : t lib with
  | ok done =>
      simp only [ht] at h
      cases h
      exact Or.inl ⟨done.1, rfl, rfl⟩
  | error e =>
      simp only [ht] at h
      cases h
      exact Or.inr ⟨e, rfl, rfl⟩

section outcome

variable {service : IngestionService} {manifest : DocumentManifest} {lib lib' : Library γ}

theorem indexVectors_sameTables {embedding : EmbeddingPort} {milvus : List VectorRow → PortAnswer}
    {chunks : List DocumentChunk} {r : Except PortFailure Unit}
    (h : service.indexVectors manifest embedding milvus chunks lib = (r, lib')) :
    lib.SameTables lib' := by
  unfold IngestionService.indexVectors at h
  rcases Prog.bind_cases h with ⟨e, hlift, -⟩ | ⟨vectors, lib₁, hlift, hrest⟩
  · obtain ⟨-, rfl⟩ := Prod.mk.inj hlift
    exact .rfl
  · obtain ⟨-, rfl⟩ := Prod.mk.inj hlift
    rcases Prog.bind_cases hrest with ⟨e, hraise, -⟩ | ⟨u, lib₂, hraise, hcall⟩
    · rw [(Prog.raiseIf_cases hraise).1]
      exact .rfl
    · rw [(Prog.raiseIf_cases hraise).1] at hcall
      exact .call (sameTables_upsertVectors _) hcall

theorem indexNow_cases {chunks : List DocumentChunk} {r : Except IngestError (IndexStatus × Option String)}
    (h : service.indexNow manifest chunks lib = (r, lib')) :
    lib.SameTables lib' ∧ (r = .error (.port .cancelled) ∨ ∃ status errorCode,
      r = .ok (status, errorCode) ∧ (status = .indexed ∨ status = .failed ∨ status = .degraded)) := by
  have degraded : ∀ {lib' : Library γ} {r : Except IngestError (IndexStatus × Option String)},
      (pure (.degraded, some "EMBEDDING_UNAVAILABLE") : IngestProg γ _) lib = (r, lib') →
        lib.SameTables lib' ∧ (r = .error (.port .cancelled) ∨ ∃ status errorCode,
          r = .ok (status, errorCode) ∧
            (status = .indexed ∨ status = .failed ∨ status = .degraded)) := by
    intro lib' r h
    cases h
    exact ⟨.rfl, Or.inr ⟨_, _, rfl, Or.inr (Or.inr rfl)⟩⟩
  unfold IngestionService.indexNow at h
  cases hembedding : service.embedding with
  | none =>
      rw [hembedding] at h
      exact degraded h
  | some embedding =>
      cases hmilvus : service.milvus with
      | none =>
          rw [hembedding, hmilvus] at h
          exact degraded h
      | some milvus =>
          simp only [hembedding, hmilvus, settled] at h
          split at h
          · next lib₁ hvectors =>
              cases h
              exact ⟨indexVectors_sameTables hvectors, Or.inr ⟨_, _, rfl, Or.inl rfl⟩⟩
          · next e lib₁ hvectors =>
              cases h
              exact ⟨indexVectors_sameTables hvectors, Or.inr ⟨_, _, rfl, Or.inr (Or.inl rfl)⟩⟩
          · next lib₁ hvectors =>
              cases h
              exact ⟨indexVectors_sameTables hvectors, Or.inl rfl⟩

variable (service manifest) in
/-- How a call of `ingest` ends. -/
inductive Ingested (content : List UInt8) (lib : Library γ) :
    Except IngestError IngestionResult → Library γ → Prop
  /-- It raised, before anything was stored in the tables. -/
  | refused {lib' : Library γ} (e : IngestError) (same : lib.SameTables lib') :
      Ingested content lib (.error e) lib'
  /-- The version is there, with this content. -/
  | existing {row : DocumentRow} (found : find lib manifest.docId manifest.version = some row)
      (same : row.fileSha256 = service.sha256 content) :
      Ingested content lib (.ok (existingResult manifest row (service.sha256 content))) lib
  /-- The version is stored, the worker is to index it. -/
  | queued {lib₀ lib' : Library γ} {blocks : List ParsedBlock} {jobId : Option String}
      (same : lib.SameTables lib₀) (rabbitmq : service.rabbitmq = true)
      (created : createPending service.indexRepository service.jobId
        (service.pending manifest (service.sha256 content) blocks) lib₀ = .ok (jobId, lib')) :
      Ingested content lib
        (.ok ((service.pending manifest (service.sha256 content) blocks).result .queued jobId)) lib'
  /-- The version is stored, and the call was cancelled. -/
  | cut {lib₀ lib₁ lib' : Library γ} {blocks : List ParsedBlock} {jobId : Option String}
      (same : lib.SameTables lib₀)
      (created : createPending service.indexRepository service.jobId
        (service.pending manifest (service.sha256 content) blocks) lib₀ = .ok (jobId, lib₁))
      (same' : lib₁.SameTables lib') :
      Ingested content lib (.error (.port .cancelled)) lib'
  /-- The version is stored, and its status is set. -/
  | finished {lib₀ lib₁ lib₂ : Library γ} {blocks : List ParsedBlock} {jobId : Option String}
      {status : IndexStatus} {errorCode : Option String} (same : lib.SameTables lib₀)
      (created : createPending service.indexRepository service.jobId
        (service.pending manifest (service.sha256 content) blocks) lib₀ = .ok (jobId, lib₁))
      (same' : lib₁.SameTables lib₂)
      (ended : status = .indexed ∨ status = .failed ∨ status = .degraded) :
      Ingested content lib
        (.ok ((service.pending manifest (service.sha256 content) blocks).result status none))
        (setIndexStatus manifest.docId manifest.version status errorCode lib₂)

theorem ingested_store {content : List UInt8} {lib₀ : Library γ} {blocks : List ParsedBlock}
    {r : Except IngestError IngestionResult} (same : lib.SameTables lib₀)
    (h : service.store (service.pending manifest (service.sha256 content) blocks) lib₀ = (r, lib')) :
    Ingested service manifest content lib r lib' := by
  unfold IngestionService.store at h
  rcases Prog.bind_cases h with ⟨e, hcreate, rfl⟩ | ⟨jobId, lib₁, hcreate, hrest⟩
  · rcases inTransaction_cases hcreate with ⟨a, -, hok⟩ | ⟨e', rfl, -⟩
    · cases hok
    · exact .refused _ same
  · rcases inTransaction_cases hcreate with ⟨a, hcreated, hok⟩ | ⟨e', -, herror⟩
    · cases hok
      split at hrest
      · next hrabbit =>
          cases hrest
          exact .queued same hrabbit hcreated
      · rcases Prog.bind_cases hrest with ⟨e, hindex, rfl⟩ | ⟨ending, lib₂, hindex, hset⟩
        · obtain ⟨same', hend⟩ := indexNow_cases hindex
          rcases hend with hcancelled | ⟨status, errorCode, hok, -⟩
          · cases hcancelled
            exact .cut same hcreated same'
          · cases hok
        · obtain ⟨same', hend⟩ := indexNow_cases hindex
          rcases hend with hcancelled | ⟨status, errorCode, hok, hended⟩
          · cases hcancelled
          · cases hok
            cases hset
            exact .finished same hcreated same' hended
    · cases herror

/-- **Every call ends in one of these ways.** -/
theorem ingest_cases {content : List UInt8} {r : Except IngestError IngestionResult}
    (h : ingest service manifest content lib = (r, lib')) :
    Ingested service manifest content lib r lib' := by
  unfold ingest at h
  rcases Prog.bind_cases h with ⟨e, hsize, rfl⟩ | ⟨u, lib₁, hsize, hrest⟩
  · rw [(Prog.raiseIf_cases hsize).1]
    exact .refused e .rfl
  · obtain rfl := (Prog.raiseIf_cases hsize).1
    rw [Prog.bind_read] at hrest
    cases hfound : find lib₁ manifest.docId manifest.version with
    | some row =>
        simp only [hfound] at hrest
        rcases Prog.bind_cases hrest with ⟨e, hhash, rfl⟩ | ⟨u, lib₂, hhash, hdone⟩
        · rw [(Prog.raiseIf_cases hhash).1]
          exact .refused e .rfl
        · obtain ⟨rfl, ⟨-, hok⟩ | ⟨hsame, -⟩⟩ := Prog.raiseIf_cases hhash
          · cases hok
          · cases hdone
            exact .existing hfound (not_not.mp hsame)
    | none =>
      simp only [hfound] at hrest
      rcases Prog.bind_cases hrest with ⟨e, hput, rfl⟩ | ⟨u, lib₂, hput, hparse⟩
      · obtain ⟨r', hcall⟩ := passOn_run hput
        exact .refused e (.call (sameTables_putObject _ _) hcall)
      · have same : lib₁.SameTables lib₂ := by
          obtain ⟨r', hcall⟩ := passOn_run hput
          exact .call (sameTables_putObject _ _) hcall
        rcases Prog.bind_cases hparse with ⟨e, hblocks, rfl⟩ | ⟨blocks, lib₃, hblocks, hempty⟩
        · obtain ⟨r', hlift⟩ := passOn_run hblocks
          obtain ⟨-, rfl⟩ := Prod.mk.inj hlift
          exact .refused e same
        · obtain ⟨r', hlift⟩ := passOn_run hblocks
          obtain ⟨-, rfl⟩ := Prod.mk.inj hlift
          rcases Prog.bind_cases hempty with ⟨e, hraise, rfl⟩ | ⟨u, lib₄, hraise, hstore⟩
          · rw [(Prog.raiseIf_cases hraise).1]
            exact .refused e same
          · rw [(Prog.raiseIf_cases hraise).1] at hstore
            exact ingested_store same hstore

end outcome

end EnergyAgent.Ingestion
