import EnergyAgent.Ingestion.Versions

/-!
# An ingestion that fails

`create_pending` puts the new version into effect before it is indexed, and a search returns the chunks
of versions that are both. When the indexing fails, the older versions are out of effect, the new one
is not indexed, and nothing of the document is found.
-/

namespace EnergyAgent.Ingestion

open EnergyAgent.Lib EnergyAgent.Indexing
open EnergyAgent.Retrieval (SearchFilters manualCandidates strongDocument)

/-! ## What is found -/

section candidates

variable {db db' : Retrieval.Database} {filters : SearchFilters} {chunk : Retrieval.ManualChunkModel}

theorem mem_strongCandidates : chunk ∈ manualCandidates db filters true ↔
    chunk ∈ manualCandidates db filters false ∧
      ∃ document ∈ db.documents, strongDocument chunk document = true := by
  have hstrong : manualCandidates db filters true = (manualCandidates db filters false).flatMap
      fun chunk => (db.documents.filter (strongDocument chunk)).map fun _ => chunk := rfl
  rw [hstrong, List.mem_flatMap]
  constructor
  · rintro ⟨chunk', hchunk, hjoined⟩
    obtain ⟨document, hdocument, rfl⟩ := List.mem_map.mp hjoined
    obtain ⟨hmem, hmatch⟩ := List.mem_filter.mp hdocument
    exact ⟨hchunk, document, hmem, hmatch⟩
  · rintro ⟨hchunk, document, hmem, hmatch⟩
    exact ⟨chunk, hchunk, List.mem_map.mpr ⟨document, List.mem_filter.mpr ⟨hmem, hmatch⟩, rfl⟩⟩

/-- The filters look at nothing but the chunk. -/
theorem mem_candidates_of_mem (h : chunk ∈ manualCandidates db filters false)
    (hmem : chunk ∈ db'.chunks) : chunk ∈ manualCandidates db' filters false :=
  List.mem_filter.mpr ⟨hmem, (List.mem_filter.mp h).2⟩

end candidates

variable {γ : Type}

/-- What was found of the document before is found afterwards. -/
def StillReturned (docId : String) (before after : Library γ) : Prop :=
  ∀ filters, ∀ chunk ∈ manualCandidates before.database filters true, chunk.docId = docId →
    chunk ∈ manualCandidates after.database filters true

/-- Nothing of the document is found. -/
def Offline (docId : String) (lib : Library γ) : Prop :=
  ∀ filters, ∀ chunk ∈ manualCandidates lib.database filters true, chunk.docId ≠ docId

/-- The chunk and its document are there, approved, in effect and indexed. -/
structure Available (chunk : Retrieval.ManualChunkModel) (lib : Library γ) : Prop where
  stored : chunk ∈ lib.chunks.map ChunkRow.toManualChunkModel
  strong : ∃ row ∈ lib.documents, strongDocument chunk row.toManualDocumentModel = true

theorem available_of_mem {chunk : Retrieval.ManualChunkModel} {filters : SearchFilters} {lib : Library γ}
    (h : chunk ∈ manualCandidates lib.database filters true) : Available chunk lib := by
  obtain ⟨hchunk, document, hdocument, hstrong⟩ := mem_strongCandidates.mp h
  obtain ⟨row, hrow, rfl⟩ := List.mem_map.mp hdocument
  exact ⟨(List.mem_filter.mp hchunk).1, row, hrow, hstrong⟩

theorem Available.mem {chunk : Retrieval.ManualChunkModel} {filters : SearchFilters}
    {lib lib' : Library γ} (h : Available chunk lib')
    (hbefore : chunk ∈ manualCandidates lib.database filters true) :
    chunk ∈ manualCandidates lib'.database filters true := by
  obtain ⟨row, hrow, hstrong⟩ := h.strong
  have hmatch : chunk ∈ manualCandidates lib'.database filters false :=
    mem_candidates_of_mem (mem_strongCandidates.mp hbefore).1 h.stored
  exact mem_strongCandidates.mpr ⟨hmatch, _, List.mem_map_of_mem hrow, hstrong⟩

/-! ## Moves that leave the other versions alone -/

/-- The move puts no version of the document into effect, and sets the status of no version of it but
the given one, unless to `INDEXED`. -/
def LeavesOthers (docId version : String) (lib : Library γ) : Move γ → Prop
  | .ingest _ manifest _ => manifest.docId = docId → manifest.effective = false
  | .create _ _ pending => pending.manifest.docId = docId → pending.manifest.effective = false
  | .setStatus docId' version' _ _ => docId' = docId → version' = version
  | .close _ _ => True
  | .fail docId' generation _ => docId' = docId →
      ∀ row ∈ lib.documents, row.docId = docId → row.indexGeneration = some generation →
        row.version = version
  | .elsewhere _ _ => True

section available

variable {chunk : Retrieval.ManualChunkModel} {lib lib' : Library γ}

theorem Available.of_sameTables (h : Available chunk lib) (same : lib.SameTables lib') :
    Available chunk lib' where
  stored := by rw [same.chunks]; exact h.stored
  strong := by rw [same.documents]; exact h.strong

/-- A write keeps the chunk available that keeps what is read of chunks and the documents that the chunk
is joined with. -/
theorem Available.map (h : Available chunk lib) {f : DocumentRow → DocumentRow} {g : ChunkRow → ChunkRow}
    (hdocuments : lib'.documents = lib.documents.map f) (hchunks : lib'.chunks = lib.chunks.map g)
    (hf : ∀ row ∈ lib.documents, strongDocument chunk row.toManualDocumentModel = true →
      strongDocument chunk (f row).toManualDocumentModel = true)
    (hg : ∀ row ∈ lib.chunks, row.toManualChunkModel = chunk → (g row).toManualChunkModel = chunk) :
    Available chunk lib' := by
  obtain ⟨⟩ := h
  next hstored hstrong =>
    obtain ⟨row, hrow, rfl⟩ := List.mem_map.mp hstored
    obtain ⟨document, hdocument, hmatch⟩ := hstrong
    constructor
    · rw [hchunks, List.map_map]
      exact List.mem_map.mpr ⟨row, hrow, hg row hrow rfl⟩
    · rw [hdocuments]
      exact ⟨f document, List.mem_map_of_mem hdocument, hf document hdocument hmatch⟩

theorem ChunkRow.index_toManualChunkModel (docId version : String) (row : ChunkRow) :
    (row.index docId version).toManualChunkModel = row.toManualChunkModel := by
  unfold ChunkRow.index
  split <;> rfl

theorem strongDocument_key {document : Persistence.ManualDocumentModel}
    (h : strongDocument chunk document = true) :
    document.docId = chunk.docId ∧ document.version = chunk.version :=
  ⟨(of_decide_eq_true h).1, (of_decide_eq_true h).2.1⟩

/-- A status is set that is not that of the chunk's version. -/
theorem Available.setIndexStatus (h : Available chunk lib) {docId version : String}
    (hother : docId = chunk.docId → version ≠ chunk.version) (status : IndexStatus)
    (errorCode : Option String) :
    Available chunk (setIndexStatus docId version status errorCode lib) := by
  have hf : ∀ row ∈ lib.documents, strongDocument chunk row.toManualDocumentModel = true →
      strongDocument chunk
        (row.setStatus docId version status errorCode).toManualDocumentModel = true := by
    intro row _ hstrong
    obtain ⟨hdoc, hversion⟩ := strongDocument_key hstrong
    have hkeep : row.setStatus docId version status errorCode = row := by
      apply if_neg
      rintro ⟨hd, hv⟩
      exact hother (hd.symm.trans hdoc) (hv.symm.trans hversion)
    rw [hkeep]
    exact hstrong
  by_cases hindexed : status = .indexed
  · exact h.map rfl (if_pos hindexed) hf
      fun row _ hrow => (row.index_toManualChunkModel docId version).trans hrow
  · refine h.map (g := id) rfl ?_ hf fun _ _ hrow => hrow
    rw [List.map_id]
    exact if_neg hindexed

/-- A version of another document is stored, or one that is not to be in effect. -/
theorem Available.create {indexRepository : Bool} {jobId : String} {job : Option String}
    {pending : PendingDocument} (h : Available chunk lib)
    (hroom : pending.manifest.docId = chunk.docId → pending.manifest.effective = false)
    (hcreate : createPending indexRepository jobId pending lib = .ok (job, lib')) :
    Available chunk lib' ∧ (pending.manifest.docId = chunk.docId → pending.manifest.version ≠ chunk.version) := by
  obtain ⟨hfree, hdocuments, hchunks⟩ := createPending_eq_ok hcreate
  rw [makeRoom_documents] at hdocuments hfree
  rw [makeRoom_chunks] at hchunks
  obtain ⟨document, hdocument, hstrong⟩ := h.strong
  obtain ⟨hdoc, hversion⟩ := strongDocument_key hstrong
  have hkeep : document.makeRoom pending.manifest = document := by
    rcases document.makeRoom_eq pending.manifest with hsame | ⟨heffective, hown, -⟩
    · exact hsame
    · rw [hroom (hown.symm.trans hdoc)] at heffective
      cases heffective
  refine ⟨⟨?_, ?_⟩, ?_⟩
  · obtain ⟨row, hrow, hmodel⟩ := List.mem_map.mp h.stored
    have hsame : row.makeRoom pending.manifest = row := by
      rcases row.makeRoom_eq pending.manifest with hsame | ⟨heffective, hown, -⟩
      · exact hsame
      · have hchunk : row.docId = chunk.docId := congrArg Retrieval.ManualChunkModel.docId hmodel
        rw [hroom (hown.symm.trans hchunk)] at heffective
        cases heffective
    rw [hchunks, List.map_append, List.map_map]
    refine List.mem_append_left _ (List.mem_map.mpr ⟨row, hrow, ?_⟩)
    rw [Function.comp_apply, hsame]
    exact hmodel
  · rw [hdocuments]
    refine ⟨document, List.mem_append_left _ (List.mem_map.mpr ⟨document, hdocument, hkeep⟩), hstrong⟩
  · intro hdocId hsame
    apply hfree document (List.mem_map.mpr ⟨document, hdocument, hkeep⟩)
    show (document.docId, document.version) = (pending.manifest.docId, pending.manifest.version)
    rw [hdoc, hversion, hdocId, hsame]

theorem Available.ingested {service : IngestionService} {manifest : DocumentManifest}
    {content : List UInt8} {r : Except IngestError IngestionResult} (h : Available chunk lib)
    (hroom : manifest.docId = chunk.docId → manifest.effective = false)
    (hrun : Ingested service manifest content lib r lib') : Available chunk lib' := by
  cases hrun with
  | refused e same => exact h.of_sameTables same
  | existing found same => exact h
  | queued same rabbitmq created => exact ((h.of_sameTables same).create hroom created).1
  | cut same created same' => exact ((h.of_sameTables same).create hroom created).1.of_sameTables same'
  | finished same created same' ended =>
      obtain ⟨hstored, hother⟩ := (h.of_sameTables same).create hroom created
      exact (hstored.of_sameTables same').setIndexStatus hother _ _

/-- **Such a move takes no chunk of another version away.** -/
theorem Available.step {docId version : String} (h : Available chunk lib) (hdoc : chunk.docId = docId)
    (hversion : chunk.version ≠ version) {move : Move γ} (hmove : LeavesOthers docId version lib move)
    (hstep : lib.step move = some lib') : Available chunk lib' := by
  subst hdoc
  cases move with
  | ingest service manifest content =>
      cases hstep
      exact h.ingested hmove (ingest_cases rfl)
  | create indexRepository jobId pending =>
      simp only [Library.step] at hstep
      split at hstep
      · next job lib₁ hcreate =>
          cases hstep
          exact (h.create hmove hcreate).1
      · cases hstep
  | setStatus docId' version' status errorCode =>
      cases hstep
      exact h.setIndexStatus (fun hdoc hsame => hversion (hsame.symm.trans (hmove hdoc))) _ _
  | close docId' version' =>
      cases hstep
      refine h.map (f := DocumentRow.close docId' version') (g := ChunkRow.index docId' version') rfl rfl ?_
        fun row _ hrow => (row.index_toManualChunkModel docId' version').trans hrow
      intro row _ hstrong
      unfold DocumentRow.close
      split
      · obtain ⟨hd, hv, happroved, heffective, -⟩ := of_decide_eq_true hstrong
        exact decide_eq_true ⟨hd, hv, happroved, heffective, rfl⟩
      · exact hstrong
  | fail docId' generation errorCode =>
      cases hstep
      refine h.map (f := DocumentRow.failIndex docId' generation errorCode) (g := id) rfl
        (List.map_id _).symm ?_ fun _ _ hrow => hrow
      intro row hrow hstrong
      obtain ⟨hd, hv⟩ := strongDocument_key hstrong
      have hkeep : row.failIndex docId' generation errorCode = row := by
        apply if_neg
        rintro ⟨hown, hgeneration⟩
        exact hversion (hv.symm.trans (hmove (hown.symm.trans hd) row hrow hd hgeneration))
      rw [hkeep]
      exact hstrong
  | elsewhere objects rest =>
      cases hstep
      exact h.of_sameTables ⟨rfl, rfl⟩

end available

/-! ## Out of effect -/

/-- No chunk of the document is in effect but those of one version. -/
def Lowered (docId version : String) (lib : Library γ) : Prop :=
  ∀ row ∈ lib.chunks, row.docId = docId → row.version ≠ version → row.effective = false

section lowered

variable {docId version : String} {lib lib' : Library γ}

theorem Lowered.of_sameTables (h : Lowered docId version lib) (same : lib.SameTables lib') :
    Lowered docId version lib' := by
  unfold Lowered
  rw [same.chunks]
  exact h

theorem Lowered.map (h : Lowered docId version lib) {g : ChunkRow → ChunkRow}
    (hlasting : ∀ row, (g row).lasting = row.lasting) (hchunks : lib'.chunks = lib.chunks.map g) :
    Lowered docId version lib' := by
  intro row hrow hdoc hversion
  rw [hchunks] at hrow
  obtain ⟨row, hold, rfl⟩ := List.mem_map.mp hrow
  have hkey : (g row).key = row.key := congrArg Prod.fst (hlasting row)
  have hflag : (g row).effective = row.effective := congrArg (fun x => x.2.1) (hlasting row)
  rw [hflag]
  exact h row hold ((congrArg Prod.fst hkey).symm.trans hdoc)
    fun hsame => hversion ((congrArg Prod.snd hkey).trans hsame)

theorem Lowered.setIndexStatus (h : Lowered docId version lib) (docId' version' : String)
    (status : IndexStatus) (errorCode : Option String) :
    Lowered docId version (setIndexStatus docId' version' status errorCode lib) := by
  by_cases hindexed : status = .indexed
  · exact h.map (ChunkRow.index_lasting docId' version') (if_pos hindexed)
  · refine h.map (g := id) (fun _ => rfl) ?_
    rw [List.map_id]
    exact if_neg hindexed

theorem Lowered.create {indexRepository : Bool} {jobId : String} {job : Option String}
    {pending : PendingDocument} (h : Lowered docId version lib)
    (hroom : pending.manifest.docId = docId → pending.manifest.effective = false)
    (hcreate : createPending indexRepository jobId pending lib = .ok (job, lib')) :
    Lowered docId version lib' := by
  obtain ⟨-, -, hchunks⟩ := createPending_eq_ok hcreate
  rw [makeRoom_chunks] at hchunks
  intro row hrow hdoc hversion
  rw [hchunks] at hrow
  rcases List.mem_append.mp hrow with hold | hnew
  · obtain ⟨row, hmem, rfl⟩ := List.mem_map.mp hold
    have hkey := row.makeRoom_key pending.manifest
    have hflag := h row hmem ((congrArg Prod.fst hkey).symm.trans hdoc)
      fun hsame => hversion ((congrArg Prod.snd hkey).trans hsame)
    rw [ChunkRow.makeRoom_effective, hflag, Bool.false_and]
  · obtain ⟨hkey, heffective⟩ := PendingDocument.mem_chunkRows hnew
    rw [heffective]
    exact hroom ((congrArg Prod.fst hkey).symm.trans hdoc)

theorem Lowered.ingested {service : IngestionService} {manifest : DocumentManifest}
    {content : List UInt8} {r : Except IngestError IngestionResult} (h : Lowered docId version lib)
    (hroom : manifest.docId = docId → manifest.effective = false)
    (hrun : Ingested service manifest content lib r lib') : Lowered docId version lib' := by
  cases hrun with
  | refused e same => exact h.of_sameTables same
  | existing found same => exact h
  | queued same rabbitmq created => exact (h.of_sameTables same).create hroom created
  | cut same created same' => exact ((h.of_sameTables same).create hroom created).of_sameTables same'
  | finished same created same' ended =>
      exact (((h.of_sameTables same).create hroom created).of_sameTables same').setIndexStatus _ _ _ _

theorem Lowered.step (h : Lowered docId version lib) {move : Move γ}
    (hmove : LeavesOthers docId version lib move) (hstep : lib.step move = some lib') :
    Lowered docId version lib' := by
  cases move with
  | ingest service manifest content =>
      cases hstep
      exact h.ingested hmove (ingest_cases rfl)
  | create indexRepository jobId pending =>
      simp only [Library.step] at hstep
      split at hstep
      · next job lib₁ hcreate =>
          cases hstep
          exact h.create hmove hcreate
      · cases hstep
  | setStatus docId' version' status errorCode =>
      cases hstep
      exact h.setIndexStatus _ _ _ _
  | close docId' version' =>
      cases hstep
      exact h.map (ChunkRow.index_lasting docId' version') rfl
  | fail docId' generation errorCode =>
      cases hstep
      exact h.map (g := id) (fun _ => rfl) (List.map_id _).symm
  | elsewhere objects rest =>
      cases hstep
      exact h.of_sameTables ⟨rfl, rfl⟩

/-- The version that is to be in effect takes the flag from all others. -/
theorem lowered_of_create {indexRepository : Bool} {jobId : String} {job : Option String}
    {pending : PendingDocument} (heffective : pending.manifest.effective = true)
    (hcreate : createPending indexRepository jobId pending lib = .ok (job, lib')) :
    Lowered pending.manifest.docId pending.manifest.version lib' := by
  obtain ⟨-, -, hchunks⟩ := createPending_eq_ok hcreate
  rw [makeRoom_chunks] at hchunks
  intro row hrow hdoc hversion
  rw [hchunks] at hrow
  rcases List.mem_append.mp hrow with hold | hnew
  · obtain ⟨row, -, rfl⟩ := List.mem_map.mp hold
    have hown : row.docId = pending.manifest.docId :=
      (congrArg Prod.fst (row.makeRoom_key pending.manifest)).symm.trans hdoc
    rw [ChunkRow.makeRoom_effective, heffective, hown]
    simp
  · exact absurd (congrArg Prod.snd (PendingDocument.mem_chunkRows hnew).1) hversion

end lowered

/-! ## The call -/

/-- A call stores a version, its indexing ends `FAILED` or `DEGRADED` (in the call or at the worker),
and whatever else has happened since leaves the other versions of the document alone. -/
structure FailedIngestion (service : IngestionService) (manifest : DocumentManifest)
    (content : List UInt8) (before after : Library γ) : Prop where
  stores : ∃ result, (ingest service manifest content before).1 = .ok result ∧ result.existing = false
  run : TransitionSystem.ReachableVia
    { init := fun lib => lib = (ingest service manifest content before).2, step := Library.step }
    (LeavesOthers manifest.docId manifest.version) after
  failed : ∃ row ∈ after.documents, row.key = (manifest.docId, manifest.version) ∧
    (row.indexStatus = .failed ∨ row.indexStatus = .degraded)

section call

variable {service : IngestionService} {manifest : DocumentManifest} {content : List UInt8}
  {before after : Library γ}

/-- The version was not there, and if it is to be in effect, the others are not any more. -/
theorem stored_cases {stored : Library γ} {result : IngestionResult}
    (hrun : Ingested service manifest content before (.ok result) stored) (hnew : result.existing = false) :
    (∀ row ∈ before.documents, row.key ≠ (manifest.docId, manifest.version)) ∧
      (manifest.effective = true → Lowered manifest.docId manifest.version stored) := by
  have free : ∀ {lib₀ lib₁ : Library γ} {blocks : List ParsedBlock} {job : Option String},
      before.SameTables lib₀ → createPending service.indexRepository service.jobId
        (service.pending manifest (service.sha256 content) blocks) lib₀ = .ok (job, lib₁) →
      ∀ row ∈ before.documents, row.key ≠ (manifest.docId, manifest.version) := by
    intro lib₀ lib₁ blocks job same hcreate row hrow hkey
    have hfree := (createPending_eq_ok hcreate).1
    rw [makeRoom_documents, same.documents] at hfree
    exact hfree _ (List.mem_map_of_mem hrow)
      ((congrArg Edition.key (row.makeRoom_edition _)).trans hkey)
  cases hrun with
  | existing found same => cases hnew
  | queued same rabbitmq created => exact ⟨free same created, fun h => lowered_of_create h created⟩
  | finished same created same' ended =>
      refine ⟨free same created, fun h => ?_⟩
      exact ((lowered_of_create h created).of_sameTables same').setIndexStatus _ _ _ _

theorem FailedIngestion.free (h : FailedIngestion service manifest content before after) :
    ∀ row ∈ before.documents, row.key ≠ (manifest.docId, manifest.version) := by
  obtain ⟨result, hresult, hnew⟩ := h.stores
  have hrun : Ingested service manifest content before (.ok result) (ingest service manifest content before).2 :=
    hresult ▸ ingest_cases rfl
  exact (stored_cases hrun hnew).1

/-- A chunk of another version stays available unless the version of the call takes effect. -/
theorem FailedIngestion.available (h : FailedIngestion service manifest content before after)
    (heffective : manifest.effective = false) {chunk : Retrieval.ManualChunkModel}
    (hchunk : Available chunk before) (hdoc : chunk.docId = manifest.docId) : Available chunk after := by
  have hversion : chunk.version ≠ manifest.version := by
    intro hsame
    obtain ⟨row, hrow, hstrong⟩ := hchunk.strong
    obtain ⟨hd, hv⟩ := strongDocument_key hstrong
    apply h.free row hrow
    show (row.docId, row.version) = _
    rw [hd, hv, hdoc, hsame]
  refine TransitionSystem.ReachableVia.invariant (I := Available chunk) ?_ ?_ h.run
  · rintro lib rfl
    exact hchunk.ingested (fun _ => heffective) (ingest_cases rfl)
  · intro lib move lib' havailable hmove hstep
    exact havailable.step hdoc hversion hmove hstep

theorem FailedIngestion.lowered (h : FailedIngestion service manifest content before after)
    (heffective : manifest.effective = true) : Lowered manifest.docId manifest.version after := by
  refine TransitionSystem.ReachableVia.invariant (I := Lowered manifest.docId manifest.version) ?_ ?_ h.run
  · rintro lib rfl
    obtain ⟨result, hresult, hnew⟩ := h.stores
    have hrun : Ingested service manifest content before (.ok result)
        (ingest service manifest content before).2 := hresult ▸ ingest_cases rfl
    exact (stored_cases hrun hnew).2 heffective
  · intro lib move lib' hlowered hmove hstep
    exact hlowered.step hmove hstep

/-- A chunk that was found is not found any more. -/
theorem FailedIngestion.lost (h : FailedIngestion service manifest content before after)
    (heffective : manifest.effective = true) {filters : SearchFilters}
    {chunk : Retrieval.ManualChunkModel}
    (hchunk : chunk ∈ manualCandidates before.database filters true) (hdoc : chunk.docId = manifest.docId) :
    chunk ∉ manualCandidates after.database filters true := by
  intro hafter
  obtain ⟨hmem, hflag, -⟩ := Retrieval.manualCandidates_admitted hafter
  obtain ⟨row, hrow, rfl⟩ := List.mem_map.mp hmem
  obtain ⟨document, hdocument, hstrong⟩ := (available_of_mem hchunk).strong
  obtain ⟨hd, hv⟩ := strongDocument_key hstrong
  have hlowered := h.lowered heffective row hrow hdoc
  by_cases hversion : row.version = manifest.version
  · apply h.free document hdocument
    show (document.docId, document.version) = _
    rw [hd, hv, hdoc, hversion]
  · rw [hlowered hversion] at hflag
    cases hflag

/-- **When the chunks of a document survive a failed ingestion**: the new version was not to be in
effect, or nothing of the document was found before. -/
theorem failed_ingestion_keeps_iff (h : FailedIngestion service manifest content before after) :
    StillReturned manifest.docId before after ↔
      (manifest.effective = false ∨ Offline manifest.docId before) := by
  constructor
  · intro hstill
    cases heffective : manifest.effective with
    | false => exact Or.inl rfl
    | true =>
        refine Or.inr fun filters chunk hchunk hdoc => ?_
        exact h.lost heffective hchunk hdoc (hstill filters chunk hchunk hdoc)
  · rintro (heffective | hoffline)
    · intro filters chunk hchunk hdoc
      exact (h.available heffective (available_of_mem hchunk) hdoc).mem hchunk
    · intro filters chunk hchunk hdoc
      exact absurd hdoc (hoffline filters chunk hchunk)

/-- The worker fails the job of the call: its generation is that of no other version. -/
theorem fail_leavesOthers {lib : Library γ} {generation errorCode : String}
    (hfresh : ∀ row ∈ lib.documents, row.docId = manifest.docId → row.version ≠ manifest.version →
      row.indexGeneration ≠ some generation) :
    LeavesOthers manifest.docId manifest.version lib (.fail manifest.docId generation errorCode) := by
  intro _ row hrow hdoc hgeneration
  by_contra hversion
  exact hfresh row hrow hdoc hversion hgeneration

end call

def milvusDown : PortAnswer :=
  .raised (.raised ⟨some "MILVUS_UNAVAILABLE", "MilvusUnavailableError", "Milvus upsert unavailable"⟩)

/-- The second version of the fan's manual, which cannot be indexed. -/
def failedUpdate (effective : Bool) : Library Unit :=
  (ingest (syncService "GEN-2" milvusDown) (fanManual "2" effective) checkText fanLibrary).2

theorem failedUpdate_draft : FailedIngestion (syncService "GEN-2" milvusDown) (fanManual "2" false)
    checkText fanLibrary (failedUpdate false) where
  stores := ⟨_, rfl, rfl⟩
  run := .init rfl
  failed := by decide +kernel

theorem failed_draft_keeps : StillReturned "FAN" fanLibrary (failedUpdate false) :=
  (failed_ingestion_keeps_iff failedUpdate_draft).mpr (Or.inl rfl)

/-- The second version is to be in effect: the first one was found before, and is not any more. -/
theorem failed_update_offline :
    FailedIngestion (syncService "GEN-2" milvusDown) (fanManual "2" true) checkText fanLibrary
      (failedUpdate true) ∧ ¬ StillReturned "FAN" fanLibrary (failedUpdate true) := by
  refine ⟨⟨⟨_, rfl, rfl⟩, .init rfl, by decide +kernel⟩, ?_⟩
  intro hstill
  have hbefore : ∃ chunk ∈ manualCandidates fanLibrary.database {} true, chunk.docId = "FAN" := by
    decide +kernel
  have hafter : manualCandidates (failedUpdate true).database {} true = [] := by decide +kernel
  obtain ⟨chunk, hchunk, hdoc⟩ := hbefore
  have hfound := hstill {} chunk hchunk hdoc
  rw [hafter] at hfound
  cases hfound

end EnergyAgent.Ingestion
