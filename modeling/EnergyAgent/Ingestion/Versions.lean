import EnergyAgent.Ingestion.Service
import EnergyAgent.Lib.Transition

/-!
# The versions of a document

The flags of documents and chunks are written by several transactions, in any order. They show one
thing all the time: a shelf, where editions are put and stay, and at most one edition of a document is
in effect.
-/

namespace EnergyAgent.Ingestion

open EnergyAgent.Lib EnergyAgent.Indexing
open EnergyAgent.Persistence (World)

/-! ## The shelf -/

/-- What is settled when a version of a document is stored. -/
structure Edition where
  docId : String
  version : String
  fileSha256 : String
  chunkCount : Nat

def Edition.key (edition : Edition) : String × String := (edition.docId, edition.version)

structure Shelf where
  editions : List Edition
  /-- The version of a document that is in effect. -/
  effective : String → Option String
  unique : (editions.map Edition.key).Nodup
  published : ∀ docId version, effective docId = some version →
    (docId, version) ∈ editions.map Edition.key

namespace Shelf

def empty : Shelf where
  editions := []
  effective := fun _ => none
  unique := List.nodup_nil
  published := by
    intro docId version h
    cases h

/-- Put a new edition on the shelf, which may take effect at once. -/
def publish (shelf : Shelf) (edition : Edition) (inEffect : Bool)
    (free : edition.key ∉ shelf.editions.map Edition.key) : Shelf where
  editions := shelf.editions ++ [edition]
  effective := fun docId =>
    if inEffect = true ∧ docId = edition.docId then some edition.version else shelf.effective docId
  unique := by
    rw [List.map_append, List.map_singleton]
    refine List.Nodup.append shelf.unique (List.nodup_singleton _) ?_
    intro key hold hnew
    rw [List.mem_singleton.mp hnew] at hold
    exact free hold
  published := by
    intro docId version h
    rw [List.map_append, List.mem_append]
    split at h
    · next hnew =>
        rw [hnew.2, ← Option.some.inj h]
        exact Or.inr (List.mem_singleton_self _)
    · exact Or.inl (shelf.published docId version h)

variable {shelf : Shelf} {edition : Edition} {inEffect : Bool}
  {free : edition.key ∉ shelf.editions.map Edition.key}

theorem publish_effective_self :
    (shelf.publish edition inEffect free).effective edition.docId = some edition.version ↔
      inEffect = true := by
  show (if inEffect = true ∧ edition.docId = edition.docId then some edition.version
    else shelf.effective edition.docId) = some edition.version ↔ inEffect = true
  constructor
  · intro h
    by_contra hnot
    rw [if_neg fun hnew => hnot hnew.1] at h
    exact free (shelf.published _ _ h)
  · intro h
    rw [if_pos ⟨h, rfl⟩]

/-- A flag that shows whether another version is in effect shows it after the publication, if it is
lowered when that version makes room. -/
theorem publish_effective_iff {docId version : String} (hne : (docId, version) ≠ edition.key)
    {flag : Bool} (h : flag = true ↔ shelf.effective docId = some version) :
    (flag && !(inEffect && decide (docId = edition.docId))) = true ↔
      (shelf.publish edition inEffect free).effective docId = some version := by
  show _ ↔ (if inEffect = true ∧ docId = edition.docId then some edition.version
    else shelf.effective docId) = some version
  by_cases hroom : inEffect = true ∧ docId = edition.docId
  · obtain ⟨rfl, rfl⟩ := hroom
    have hversion : edition.version ≠ version := by
      rintro rfl
      exact hne rfl
    simp [hversion]
  · rw [if_neg hroom, ← h]
    have hkeep : (inEffect && decide (docId = edition.docId)) = false := by
      simpa using hroom
    rw [hkeep, Bool.not_false, Bool.and_true]

/-- A key has one digest. -/
theorem fileSha256_eq {shelf : Shelf} {edition edition' : Edition} (h : edition ∈ shelf.editions)
    (h' : edition' ∈ shelf.editions) (hkey : edition'.key = edition.key) : edition' = edition :=
  List.inj_on_of_nodup_map shelf.unique h' h hkey

end Shelf

/-! ## What a library shows -/

def DocumentRow.edition (row : DocumentRow) : Edition :=
  ⟨row.docId, row.version, row.fileSha256, row.chunkCount⟩

@[simp] theorem DocumentRow.edition_key (row : DocumentRow) : row.edition.key = row.key := rfl

variable {γ : Type}

/-- The flags of both tables say which editions are in effect, and the chunks of each are numbered. -/
structure Library.Shows (lib : Library γ) (shelf : Shelf) : Prop where
  editions : lib.documents.map DocumentRow.edition = shelf.editions
  documents : ∀ row ∈ lib.documents, (row.effective = true ↔ shelf.effective row.docId = some row.version)
  owned : ∀ row ∈ lib.chunks, row.key ∈ shelf.editions.map Edition.key
  chunks : ∀ row ∈ lib.chunks, (row.effective = true ↔ shelf.effective row.docId = some row.version)
  orders : ∀ edition ∈ shelf.editions,
    (lib.chunksOf edition.key).map ChunkRow.chunkOrder = List.range edition.chunkCount

section shows

variable {lib lib' : Library γ} {shelf : Shelf}

theorem Library.Shows.of_sameTables (h : lib.Shows shelf) (same : lib.SameTables lib') :
    lib'.Shows shelf where
  editions := by rw [same.documents, h.editions]
  documents := by rw [same.documents]; exact h.documents
  owned := by rw [same.chunks]; exact h.owned
  chunks := by rw [same.chunks]; exact h.chunks
  orders := by
    unfold Library.chunksOf
    rw [same.chunks]
    exact h.orders

/-- What a chunk keeps when a status is written: its version, its flag and its number. -/
def ChunkRow.lasting (row : ChunkRow) : (String × String) × Bool × Nat :=
  (row.key, row.effective, row.chunkOrder)

theorem chunksOf_map {g : ChunkRow → ChunkRow} (hkey : ∀ row, (g row).key = row.key)
    (horder : ∀ row, (g row).chunkOrder = row.chunkOrder) (chunks : List ChunkRow)
    (key : String × String) :
    ((chunks.map g).filter fun row => row.key = key).map ChunkRow.chunkOrder =
      (chunks.filter fun row => row.key = key).map ChunkRow.chunkOrder := by
  rw [List.filter_map, List.map_map]
  have hpick : ((fun row : ChunkRow => decide (row.key = key)) ∘ g) = fun row => decide (row.key = key) := by
    funext row
    rw [Function.comp_apply, hkey]
  have hnumber : ChunkRow.chunkOrder ∘ g = ChunkRow.chunkOrder := funext horder
  rw [hpick, hnumber]

/-- **A write of statuses shows nothing new.** -/
theorem Library.Shows.map (h : lib.Shows shelf) {f : DocumentRow → DocumentRow}
    {g : ChunkRow → ChunkRow} (hedition : ∀ row, (f row).edition = row.edition)
    (heffective : ∀ row, (f row).effective = row.effective)
    (hlasting : ∀ row, (g row).lasting = row.lasting)
    (hdocuments : lib'.documents = lib.documents.map f) (hchunks : lib'.chunks = lib.chunks.map g) :
    lib'.Shows shelf := by
  have hkey : ∀ row, (g row).key = row.key := fun row => congrArg Prod.fst (hlasting row)
  have hflag : ∀ row, (g row).effective = row.effective := fun row => congrArg (fun x => x.2.1) (hlasting row)
  have horder : ∀ row, (g row).chunkOrder = row.chunkOrder :=
    fun row => congrArg (fun x => x.2.2) (hlasting row)
  refine ⟨?_, ?_, ?_, ?_, ?_⟩
  · have hsame : DocumentRow.edition ∘ f = DocumentRow.edition := funext hedition
    rw [hdocuments, List.map_map, hsame, h.editions]
  · intro row hrow
    rw [hdocuments] at hrow
    obtain ⟨row, hold, rfl⟩ := List.mem_map.mp hrow
    have hdoc : (f row).docId = row.docId := congrArg Edition.docId (hedition row)
    have hversion : (f row).version = row.version := congrArg Edition.version (hedition row)
    rw [heffective, hdoc, hversion]
    exact h.documents row hold
  · intro row hrow
    rw [hchunks] at hrow
    obtain ⟨row, hold, rfl⟩ := List.mem_map.mp hrow
    rw [hkey]
    exact h.owned row hold
  · intro row hrow
    rw [hchunks] at hrow
    obtain ⟨row, hold, rfl⟩ := List.mem_map.mp hrow
    have hdoc : (g row).docId = row.docId := congrArg Prod.fst (hkey row)
    have hversion : (g row).version = row.version := congrArg Prod.snd (hkey row)
    rw [hflag, hdoc, hversion]
    exact h.chunks row hold
  · intro edition hedition
    unfold Library.chunksOf
    rw [hchunks, chunksOf_map hkey horder]
    exact h.orders edition hedition

theorem Library.Shows.key_mem (h : lib.Shows shelf) {row : DocumentRow} (hrow : row ∈ lib.documents) :
    row.edition ∈ shelf.editions := by
  rw [← h.editions]
  exact List.mem_map_of_mem hrow

theorem Library.Shows.keys (h : lib.Shows shelf) :
    lib.documents.map DocumentRow.key = shelf.editions.map Edition.key := by
  rw [← h.editions, List.map_map]
  rfl

end shows

/-! ## `create_pending` publishes -/

/-- Its flag is lowered when a version of its document is to be in effect. -/
def DocumentRow.makeRoom (manifest : DocumentManifest) (row : DocumentRow) : DocumentRow :=
  if manifest.effective then row.withdraw manifest.docId else row

def ChunkRow.makeRoom (manifest : DocumentManifest) (row : ChunkRow) : ChunkRow :=
  if manifest.effective then row.withdraw manifest.docId else row

section room

variable (manifest : DocumentManifest)

theorem makeRoom_documents (lib : Library γ) :
    (lib.makeRoom manifest).documents = lib.documents.map (DocumentRow.makeRoom manifest) := by
  unfold Library.makeRoom DocumentRow.makeRoom
  cases manifest.effective with
  | true => rfl
  | false => exact (List.map_id _).symm

theorem makeRoom_chunks (lib : Library γ) :
    (lib.makeRoom manifest).chunks = lib.chunks.map (ChunkRow.makeRoom manifest) := by
  unfold Library.makeRoom ChunkRow.makeRoom
  cases manifest.effective with
  | true => rfl
  | false => exact (List.map_id _).symm

theorem DocumentRow.makeRoom_eq (row : DocumentRow) : row.makeRoom manifest = row ∨
    (manifest.effective = true ∧ row.docId = manifest.docId ∧
      row.makeRoom manifest = { row with effective := false }) := by
  unfold DocumentRow.makeRoom DocumentRow.withdraw
  split
  · next heffective =>
      split
      · next hrow => exact Or.inr ⟨heffective, hrow.1, rfl⟩
      · exact Or.inl rfl
  · exact Or.inl rfl

theorem ChunkRow.makeRoom_eq (row : ChunkRow) : row.makeRoom manifest = row ∨
    (manifest.effective = true ∧ row.docId = manifest.docId ∧
      row.makeRoom manifest = { row with effective := false }) := by
  unfold ChunkRow.makeRoom ChunkRow.withdraw
  split
  · next heffective =>
      split
      · next hrow => exact Or.inr ⟨heffective, hrow.1, rfl⟩
      · exact Or.inl rfl
  · exact Or.inl rfl

theorem DocumentRow.makeRoom_edition (row : DocumentRow) : (row.makeRoom manifest).edition = row.edition := by
  rcases row.makeRoom_eq manifest with h | ⟨-, -, h⟩
  · rw [h]
  · rw [h]
    rfl

theorem ChunkRow.makeRoom_key (row : ChunkRow) : (row.makeRoom manifest).key = row.key := by
  rcases row.makeRoom_eq manifest with h | ⟨-, -, h⟩
  · rw [h]
  · rw [h]
    rfl

theorem ChunkRow.makeRoom_chunkOrder (row : ChunkRow) :
    (row.makeRoom manifest).chunkOrder = row.chunkOrder := by
  rcases row.makeRoom_eq manifest with h | ⟨-, -, h⟩
  · rw [h]
  · rw [h]

theorem DocumentRow.makeRoom_effective (row : DocumentRow) : (row.makeRoom manifest).effective =
    (row.effective && !(manifest.effective && decide (row.docId = manifest.docId))) := by
  unfold DocumentRow.makeRoom DocumentRow.withdraw
  cases manifest.effective <;> cases hflag : row.effective <;>
    by_cases hdoc : row.docId = manifest.docId <;> simp [hflag, hdoc]

theorem ChunkRow.makeRoom_effective (row : ChunkRow) : (row.makeRoom manifest).effective =
    (row.effective && !(manifest.effective && decide (row.docId = manifest.docId))) := by
  unfold ChunkRow.makeRoom ChunkRow.withdraw
  cases manifest.effective <;> cases hflag : row.effective <;>
    by_cases hdoc : row.docId = manifest.docId <;> simp [hflag, hdoc]

end room

/-- The edition that `create_pending` publishes. -/
def PendingDocument.edition (pending : PendingDocument) : Edition :=
  pending.documentRow.edition

theorem PendingDocument.edition_key (pending : PendingDocument) : pending.edition.key = pending.key := rfl

theorem PendingDocument.mem_chunkRows {pending : PendingDocument} {row : ChunkRow}
    (h : row ∈ pending.chunkRows) : row.key = pending.key ∧ row.effective = pending.manifest.effective := by
  obtain ⟨chunk, -, rfl⟩ := List.mem_map.mp h
  exact ⟨rfl, rfl⟩

theorem PendingDocument.chunkOrders (pending : PendingDocument) :
    pending.chunkRows.map ChunkRow.chunkOrder = List.range pending.chunks.chunks.length := by
  unfold PendingDocument.chunkRows
  rw [List.map_map]
  exact pending.chunks.numbered

section publish

variable {lib lib' : Library γ} {shelf : Shelf} {pending : PendingDocument}

theorem Library.Shows.free (h : lib.Shows shelf)
    (hfree : ∀ row ∈ (lib.makeRoom pending.manifest).documents, row.key ≠ pending.key) :
    pending.edition.key ∉ shelf.editions.map Edition.key := by
  intro hmem
  rw [← h.keys] at hmem
  obtain ⟨row, hrow, hkey⟩ := List.mem_map.mp hmem
  apply hfree (row.makeRoom pending.manifest)
  · rw [makeRoom_documents]
    exact List.mem_map_of_mem hrow
  · rw [← pending.edition_key, ← hkey]
    exact congrArg Edition.key (row.makeRoom_edition pending.manifest)

/-- **The transaction puts its edition on the shelf.** -/
theorem Library.Shows.create {indexRepository : Bool} {jobId : String} {job : Option String}
    (h : lib.Shows shelf) (hcreate : createPending indexRepository jobId pending lib = .ok (job, lib')) :
    ∃ free, lib'.Shows (shelf.publish pending.edition pending.manifest.effective free) := by
  obtain ⟨hfree, hdocuments, hchunks⟩ := createPending_eq_ok hcreate
  have free := h.free hfree
  have hother : ∀ {key : String × String}, key ∈ shelf.editions.map Edition.key →
      key ≠ pending.edition.key := by
    rintro key hkey rfl
    exact free hkey
  rw [makeRoom_documents] at hdocuments
  rw [makeRoom_chunks] at hchunks
  refine ⟨free, ?_, ?_, ?_, ?_, ?_⟩
  · have hsame : DocumentRow.edition ∘ DocumentRow.makeRoom pending.manifest = DocumentRow.edition :=
      funext (DocumentRow.makeRoom_edition _)
    rw [hdocuments, List.map_append, List.map_map, hsame, h.editions]
    rfl
  · intro row hrow
    rw [hdocuments] at hrow
    rcases List.mem_append.mp hrow with hold | hnew
    · obtain ⟨row, hmem, rfl⟩ := List.mem_map.mp hold
      have hedition := row.makeRoom_edition pending.manifest
      have hdoc : (row.makeRoom pending.manifest).docId = row.docId := congrArg Edition.docId hedition
      have hversion : (row.makeRoom pending.manifest).version = row.version :=
        congrArg Edition.version hedition
      rw [DocumentRow.makeRoom_effective, hdoc, hversion]
      exact Shelf.publish_effective_iff (hother (List.mem_map_of_mem (h.key_mem hmem)))
        (h.documents row hmem)
    · rw [List.mem_singleton.mp hnew]
      exact Shelf.publish_effective_self.symm
  · intro row hrow
    rw [hchunks] at hrow
    show row.key ∈ (shelf.editions ++ [pending.edition]).map Edition.key
    rw [List.map_append, List.mem_append]
    rcases List.mem_append.mp hrow with hold | hnew
    · obtain ⟨row, hmem, rfl⟩ := List.mem_map.mp hold
      rw [ChunkRow.makeRoom_key]
      exact Or.inl (h.owned row hmem)
    · rw [(PendingDocument.mem_chunkRows hnew).1]
      exact Or.inr (List.mem_singleton_self _)
  · intro row hrow
    rw [hchunks] at hrow
    rcases List.mem_append.mp hrow with hold | hnew
    · obtain ⟨row, hmem, rfl⟩ := List.mem_map.mp hold
      have hkey := row.makeRoom_key pending.manifest
      have hdoc : (row.makeRoom pending.manifest).docId = row.docId := congrArg Prod.fst hkey
      have hversion : (row.makeRoom pending.manifest).version = row.version := congrArg Prod.snd hkey
      rw [ChunkRow.makeRoom_effective, hdoc, hversion]
      exact Shelf.publish_effective_iff (hother (h.owned row hmem)) (h.chunks row hmem)
    · obtain ⟨hkey, heffective⟩ := PendingDocument.mem_chunkRows hnew
      have hdoc : row.docId = pending.edition.docId := congrArg Prod.fst hkey
      have hversion : row.version = pending.edition.version := congrArg Prod.snd hkey
      rw [heffective, hdoc, hversion]
      exact Shelf.publish_effective_self.symm
  · intro edition hedition
    unfold Library.chunksOf
    rw [hchunks, List.filter_append, List.map_append,
      chunksOf_map (ChunkRow.makeRoom_key _) (ChunkRow.makeRoom_chunkOrder _)]
    rcases List.mem_append.mp hedition with hold | hnew
    · have hnone : pending.chunkRows.filter (fun row => row.key = edition.key) = [] := by
        rw [List.filter_eq_nil_iff]
        intro row hrow hkey
        apply hother (List.mem_map_of_mem hold)
        rw [← of_decide_eq_true hkey, (PendingDocument.mem_chunkRows hrow).1]
        rfl
      rw [hnone, List.map_nil, List.append_nil]
      exact h.orders edition hold
    · obtain rfl := List.mem_singleton.mp hnew
      have hnone : lib.chunks.filter (fun row => row.key = pending.edition.key) = [] := by
        rw [List.filter_eq_nil_iff]
        intro row hrow hkey
        exact hother (h.owned row hrow) (of_decide_eq_true hkey)
      have hall : pending.chunkRows.filter (fun row => row.key = pending.edition.key) =
          pending.chunkRows := by
        rw [List.filter_eq_self]
        intro row hrow
        exact decide_eq_true (PendingDocument.mem_chunkRows hrow).1
      rw [hnone, hall]
      exact pending.chunkOrders

end publish

/-! ## Every run -/

/-- What happens to a library: whole calls of `ingest`, the transactions of calls that run at the same
time, those of the index worker, and whatever is written elsewhere. -/
inductive Move (γ : Type)
  | ingest (service : IngestionService) (manifest : DocumentManifest) (content : List UInt8)
  | create (indexRepository : Bool) (jobId : String) (pending : PendingDocument)
  | setStatus (docId version : String) (status : IndexStatus) (errorCode : Option String)
  | close (docId version : String)
  | fail (docId generation errorCode : String)
  | elsewhere (objects : List (String × List UInt8)) (rest : World γ)

/-- One move. A transaction that raises is rolled back: it is no move. -/
def Library.step (lib : Library γ) : Move γ → Option (Library γ)
  | .ingest service manifest content => some (ingest service manifest content lib).2
  | .create indexRepository jobId pending =>
      match createPending indexRepository jobId pending lib with
      | .ok (_, lib) => some lib
      | .error _ => none
  | .setStatus docId version status errorCode => some (setIndexStatus docId version status errorCode lib)
  | .close docId version => some (closeManual docId version lib)
  | .fail docId generation errorCode => some (failManual docId generation errorCode lib)
  | .elsewhere objects rest => some { lib with objects := objects, rest := rest }

/-- The library, from empty tables on. -/
def librarySystem (γ : Type) : TransitionSystem (Library γ) (Move γ) where
  init lib := lib.documents = [] ∧ lib.chunks = []
  step := Library.step

section moves

variable {lib lib' : Library γ} {shelf : Shelf}

theorem ChunkRow.index_lasting (docId version : String) (row : ChunkRow) :
    (row.index docId version).lasting = row.lasting := by
  unfold ChunkRow.index
  split <;> rfl

theorem DocumentRow.setStatus_edition (docId version : String) (status : IndexStatus)
    (errorCode : Option String) (row : DocumentRow) :
    (row.setStatus docId version status errorCode).edition = row.edition := by
  unfold DocumentRow.setStatus
  split <;> rfl

theorem DocumentRow.setStatus_effective (docId version : String) (status : IndexStatus)
    (errorCode : Option String) (row : DocumentRow) :
    (row.setStatus docId version status errorCode).effective = row.effective := by
  unfold DocumentRow.setStatus
  split <;> rfl

theorem Library.Shows.setIndexStatus (h : lib.Shows shelf) (docId version : String)
    (status : IndexStatus) (errorCode : Option String) :
    (setIndexStatus docId version status errorCode lib).Shows shelf := by
  by_cases hindexed : status = .indexed
  · exact h.map (DocumentRow.setStatus_edition docId version status errorCode)
      (DocumentRow.setStatus_effective docId version status errorCode)
      (ChunkRow.index_lasting docId version) rfl (if_pos hindexed)
  · refine h.map (g := id) (DocumentRow.setStatus_edition docId version status errorCode)
      (DocumentRow.setStatus_effective docId version status errorCode) (fun _ => rfl) rfl ?_
    rw [List.map_id]
    exact if_neg hindexed

theorem Library.Shows.closeManual (h : lib.Shows shelf) (docId version : String) :
    (closeManual docId version lib).Shows shelf := by
  refine h.map (f := DocumentRow.close docId version) ?_ ?_ (ChunkRow.index_lasting docId version) rfl rfl
  · intro row
    unfold DocumentRow.close
    split <;> rfl
  · intro row
    unfold DocumentRow.close
    split <;> rfl

theorem Library.Shows.failManual (h : lib.Shows shelf) (docId generation errorCode : String) :
    (failManual docId generation errorCode lib).Shows shelf := by
  refine h.map (f := DocumentRow.failIndex docId generation errorCode) (g := id) ?_ ?_ (fun _ => rfl) rfl
    (List.map_id _).symm
  · intro row
    unfold DocumentRow.failIndex
    split <;> rfl
  · intro row
    unfold DocumentRow.failIndex
    split <;> rfl

/-- Editions stay on the shelf, in the order in which they were put there. -/
theorem Library.Shows.ingested {service : IngestionService} {manifest : DocumentManifest}
    {content : List UInt8} {r : Except IngestError IngestionResult} (h : lib.Shows shelf)
    (hrun : Ingested service manifest content lib r lib') :
    ∃ shelf', lib'.Shows shelf' ∧ shelf.editions <+: shelf'.editions := by
  cases hrun with
  | refused e same => exact ⟨shelf, h.of_sameTables same, List.prefix_rfl⟩
  | existing found same => exact ⟨shelf, h, List.prefix_rfl⟩
  | queued same rabbitmq created =>
      obtain ⟨free, hshows⟩ := (h.of_sameTables same).create created
      exact ⟨_, hshows, List.prefix_append _ _⟩
  | cut same created same' =>
      obtain ⟨free, hshows⟩ := (h.of_sameTables same).create created
      exact ⟨_, hshows.of_sameTables same', List.prefix_append _ _⟩
  | finished same created same' ended =>
      obtain ⟨free, hshows⟩ := (h.of_sameTables same).create created
      exact ⟨_, (hshows.of_sameTables same').setIndexStatus _ _ _ _, List.prefix_append _ _⟩

theorem Library.Shows.step {move : Move γ} (h : lib.Shows shelf) (hstep : lib.step move = some lib') :
    ∃ shelf', lib'.Shows shelf' ∧ shelf.editions <+: shelf'.editions := by
  cases move with
  | ingest service manifest content =>
      cases hstep
      exact h.ingested (ingest_cases rfl)
  | create indexRepository jobId pending =>
      simp only [Library.step] at hstep
      split at hstep
      · next job lib₁ hcreate =>
          cases hstep
          obtain ⟨free, hshows⟩ := h.create hcreate
          exact ⟨_, hshows, List.prefix_append _ _⟩
      · cases hstep
  | setStatus docId version status errorCode =>
      cases hstep
      exact ⟨shelf, h.setIndexStatus _ _ _ _, List.prefix_rfl⟩
  | close docId version =>
      cases hstep
      exact ⟨shelf, h.closeManual _ _, List.prefix_rfl⟩
  | fail docId generation errorCode =>
      cases hstep
      exact ⟨shelf, h.failManual _ _ _, List.prefix_rfl⟩
  | elsewhere objects rest =>
      cases hstep
      exact ⟨shelf, h.of_sameTables ⟨rfl, rfl⟩, List.prefix_rfl⟩

theorem Library.Shows.run {moves : List (Move γ)} (h : lib.Shows shelf)
    (hrun : (librarySystem γ).run lib moves = some lib') :
    ∃ shelf', lib'.Shows shelf' ∧ shelf.editions <+: shelf'.editions := by
  induction moves generalizing lib shelf with
  | nil =>
      cases hrun
      exact ⟨shelf, h, List.prefix_rfl⟩
  | cons move moves ih =>
      obtain ⟨lib₁, hstep, hrest⟩ := Option.bind_eq_some_iff.mp hrun
      obtain ⟨shelf₁, hshows, hprefix⟩ := h.step hstep
      obtain ⟨shelf₂, hlast, hprefix'⟩ := ih hshows hrest
      exact ⟨shelf₂, hlast, hprefix.trans hprefix'⟩

/-- **Every reachable library shows a shelf.** -/
theorem shows_of_reachable (h : (librarySystem γ).Reachable lib) : ∃ shelf, lib.Shows shelf := by
  refine TransitionSystem.ReachableVia.invariant (I := fun lib => ∃ shelf, lib.Shows shelf) ?_ ?_ h
  · rintro lib ⟨hdocuments, hchunks⟩
    refine ⟨Shelf.empty, ?_, ?_, ?_, ?_, ?_⟩
    · rw [hdocuments]
      rfl
    · rw [hdocuments]
      intro row hrow
      cases hrow
    · rw [hchunks]
      intro row hrow
      cases hrow
    · rw [hchunks]
      intro row hrow
      cases hrow
    · intro edition hedition
      cases hedition
  · rintro lib move lib' ⟨shelf, hshows⟩ - hstep
    obtain ⟨shelf', hshows', -⟩ := hshows.step hstep
    exact ⟨shelf', hshows'⟩

end moves

/-! ## What a shown shelf says -/

section consequences

variable {lib lib' : Library γ} {shelf : Shelf}

/-- Two versions of a document in effect are one. -/
theorem Library.Shows.effective_length_le (h : lib.Shows shelf) (docId : String) :
    (lib.documents.filter fun row => row.docId = docId ∧ row.effective = true).length ≤ 1 := by
  have hnodup : (lib.documents.map DocumentRow.key).Nodup := h.keys ▸ shelf.unique
  have hsub := (List.filter_sublist (l := lib.documents)
    (p := fun row => decide (row.docId = docId ∧ row.effective = true))).map DocumentRow.key
  have hnodup' := hnodup.sublist hsub
  obtain ⟨version, hversion⟩ : ∃ version, ∀ key ∈ (lib.documents.filter fun row =>
      row.docId = docId ∧ row.effective = true).map DocumentRow.key, key = (docId, version) := by
    refine ⟨(shelf.effective docId).getD "", ?_⟩
    intro key hkey
    obtain ⟨row, hrow, rfl⟩ := List.mem_map.mp hkey
    obtain ⟨hmem, hwhere⟩ := List.mem_filter.mp hrow
    obtain ⟨hdoc, heffective⟩ := of_decide_eq_true hwhere
    rw [← hdoc, (h.documents row hmem).mp heffective]
    rfl
  rw [List.eq_replicate_of_mem hversion, List.nodup_replicate, List.length_map] at hnodup'
  exact hnodup'

theorem Library.Shows.effective_chunk_iff (h : lib.Shows shelf) {chunk : ChunkRow}
    (hchunk : chunk ∈ lib.chunks) : chunk.effective = true ↔
      ∃ row ∈ lib.documents, row.key = chunk.key ∧ row.effective = true := by
  have hkey := h.owned chunk hchunk
  rw [← h.keys] at hkey
  obtain ⟨row, hrow, hkey⟩ := List.mem_map.mp hkey
  have hdoc : row.docId = chunk.docId := congrArg Prod.fst hkey
  have hversion : row.version = chunk.version := congrArg Prod.snd hkey
  constructor
  · intro heffective
    refine ⟨row, hrow, hkey, ?_⟩
    rw [h.documents row hrow, hdoc, hversion]
    exact (h.chunks chunk hchunk).mp heffective
  · rintro ⟨row', hrow', hkey', heffective⟩
    have hdoc' : row'.docId = chunk.docId := congrArg Prod.fst hkey'
    have hversion' : row'.version = chunk.version := congrArg Prod.snd hkey'
    rw [h.chunks chunk hchunk, ← hdoc', ← hversion']
    exact (h.documents row' hrow').mp heffective

/-- The digest of a version never changes. -/
theorem Library.Shows.fileSha256_eq (h : lib.Shows shelf) {moves : List (Move γ)}
    (hrun : (librarySystem γ).run lib moves = some lib') {row row' : DocumentRow}
    (hrow : row ∈ lib.documents) (hrow' : row' ∈ lib'.documents) (hkey : row'.key = row.key) :
    row'.fileSha256 = row.fileSha256 := by
  obtain ⟨shelf', hshows, hprefix⟩ := h.run hrun
  have hold : row.edition ∈ shelf'.editions := hprefix.subset (h.key_mem hrow)
  exact congrArg Edition.fileSha256 (Shelf.fileSha256_eq hold (hshows.key_mem hrow') hkey)

/-- The same content again: the stored version is reported, and nothing changes. -/
theorem ingest_again (h : lib.Shows shelf) {service : IngestionService} {manifest : DocumentManifest}
    {content : List UInt8} {row : DocumentRow} (hrow : row ∈ lib.documents)
    (hkey : row.key = (manifest.docId, manifest.version))
    (hsame : row.fileSha256 = service.sha256 content) : (ingest service manifest content lib).2 = lib := by
  have hnodup : (lib.documents.map DocumentRow.key).Nodup := h.keys ▸ shelf.unique
  have hfound : find lib manifest.docId manifest.version = some row := by
    unfold find
    rw [← hkey]
    exact Table.get_of_mem hnodup hrow
  by_cases hsize : service.maxBytes < content.length
  · have hraise : (Prog.raiseIf (service.maxBytes < content.length) documentTooLarge :
        IngestProg γ Unit) lib = (.error documentTooLarge, lib) := if_pos hsize
    unfold ingest
    rw [Prog.bind_of_error hraise]
  · unfold ingest
    rw [Prog.bind_of_ok (Prog.raiseIf_of_not hsize _ _), Prog.bind_read]
    simp only [hfound]
    rw [Prog.bind_of_ok (Prog.raiseIf_of_not (fun hne => hne hsame) _ _)]
    rfl

end consequences

/-- **At most one version of a document is in effect**, its chunks are the chunks in effect, the digest
of a version never changes, its chunks are numbered through, and the same content again changes
nothing. -/
theorem one_effective_version {lib : Library γ} (h : (librarySystem γ).Reachable lib) :
    (∀ docId : String,
      (lib.documents.filter fun row => row.docId = docId ∧ row.effective = true).length ≤ 1) ∧
    (∀ chunk ∈ lib.chunks, chunk.effective = true ↔
      ∃ row ∈ lib.documents, row.key = chunk.key ∧ row.effective = true) ∧
    (∀ moves lib', (librarySystem γ).run lib moves = some lib' →
      ∀ row ∈ lib.documents, ∀ row' ∈ lib'.documents, row'.key = row.key →
        row'.fileSha256 = row.fileSha256) ∧
    (∀ row ∈ lib.documents,
      (lib.chunksOf row.key).map ChunkRow.chunkOrder = List.range row.chunkCount) ∧
    (∀ service manifest content, ∀ row ∈ lib.documents,
      row.key = (manifest.docId, manifest.version) → row.fileSha256 = service.sha256 content →
        (ingest service manifest content lib).2 = lib) := by
  obtain ⟨shelf, hshows⟩ := shows_of_reachable h
  refine ⟨hshows.effective_length_le, fun chunk => hshows.effective_chunk_iff, ?_, ?_, ?_⟩
  · intro moves lib' hrun row hrow row' hrow' hkey
    exact hshows.fileSha256_eq hrun hrow hrow' hkey
  · intro row hrow
    exact hshows.orders row.edition (hshows.key_mem hrow)
  · intro service manifest content row hrow hkey hsame
    exact ingest_again hshows hrow hkey hsame

/-- A library without manuals. -/
def emptyLibrary : Library Unit := ⟨[], [], [], World.empty ()⟩

/-- The text of an ASCII file. -/
def asciiText (content : List UInt8) : List Char := content.map fun byte => Char.ofNat byte.toNat

/-- Files up to 64 bytes, indexed within the call; Milvus answers as given. -/
def syncService (generation : String) (milvus : PortAnswer) : IngestionService where
  minio := fun _ _ => .applied
  milvus := some fun _ => milvus
  embedding := some ⟨"text-embedding", 1, fun texts => .ok (texts.map fun _ => [1])⟩
  maxBytes := 64
  rabbitmq := false
  indexMaxAttempts := defaultMaxAttempts
  indexRepository := false
  sha256 := fun content => String.ofList (asciiText content)
  parseDocument := fun _ content => .ok [⟨asciiText content, none, "正文"⟩]
  runtime := sampleRuntime
  generation := generation
  jobId := "JOB-1"

/-- A version of the manual of a fan. -/
def fanManual (version : String) (effective : Bool) : DocumentManifest where
  docId := "FAN"
  documentName := "fan.txt"
  version := version
  contentType := "text/plain"
  deviceType := "fan"
  reviewStatus := .approved
  effective := effective

/-- `check` -/
def checkText : List UInt8 := [99, 104, 101, 99, 107]

/-- The first version is stored and indexed. -/
def fanLibrary : Library Unit :=
  (ingest (syncService "GEN-1" .applied) (fanManual "1" true) checkText emptyLibrary).2

theorem reachable_fanLibrary : (librarySystem Unit).Reachable fanLibrary :=
  .step (a := .ingest (syncService "GEN-1" .applied) (fanManual "1" true) checkText)
    (.init (s := emptyLibrary) ⟨rfl, rfl⟩) trivial rfl

theorem fan_version_effective :
    (fanLibrary.documents.filter fun row => row.docId = "FAN" ∧ row.effective = true).length ≤ 1 :=
  (one_effective_version reachable_fanLibrary).1 "FAN"

end EnergyAgent.Ingestion
