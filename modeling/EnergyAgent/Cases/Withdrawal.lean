import EnergyAgent.Cases.Deliveries

/-!
# Withdrawn cases stay out

A case is withdrawn when it is disabled or superseded, and the same transaction asks for a tombstone job.
The handlers check the status of a case once, when they read it. What an upsert writes later on, the
vector and `is_active = true`, it writes whatever has become of the case since.

`StillApproved` is the condition that these two writes meet the case as the check has met it. Under it a
withdrawn case is never active, and its vector is in the store only as long as no tombstone job of it is
finished: once no message is left, only a tombstone that `FAILED` leaves a vector behind.
-/

namespace EnergyAgent.Cases

open EnergyAgent.Lib EnergyAgent.Persistence EnergyAgent.Indexing

variable {γ : Type}

/-! ## Withdrawn cases, their jobs and their vectors -/

/-- The case collection has a vector of the case. -/
def hasVector (w : World γ) (k : String) : Bool := (Table.get VectorRow.id w.vectors.case k).isSome

def Withdrawn (w : World γ) (k : String) : Prop :=
  ∃ row, w.getCase k = some row ∧ row.reviewStatus.withdrawn = true

/-- The job takes case `k` out of the index. -/
def Withdraws (k : String) (job : IndexJobModel) : Prop :=
  job.entityType = .diagnosisCase ∧ job.entityId = k ∧ job.operation = .tombstone

/-- The case is withdrawn, and its vector is out of the store. -/
def Gone (w : World γ) (k : String) : Prop := Withdrawn w k ∧ hasVector w k = false

/-- Whoever withdraws a case asks for a tombstone job, and none is finished before the vector is out of
the store. -/
structure Sound (w : World γ) : Prop where
  tables : Tables w
  queue : ∀ m ∈ w.queue, Belongs w m
  asked : ∀ k, Withdrawn w k → ∃ job ∈ w.jobs, Withdraws k job
  removed : ∀ k, Withdrawn w k → hasVector w k = true → ∀ job ∈ w.jobs, Withdraws k job →
    job.status.finished = false

/-- What the other deliveries rely on: jobs stay, and what is gone stays gone. -/
structure Grows (w w' : World γ) : Prop where
  belongs : ∀ m, Belongs w m → Belongs w' m
  gone : ∀ k, Gone w k → Gone w' k

theorem Grows.refl (w : World γ) : Grows w w := ⟨fun _ h => h, fun _ h => h⟩

theorem Grows.trans {w w' w'' : World γ} (h : Grows w w') (h' : Grows w' w'') : Grows w w'' :=
  ⟨fun m hm => h'.belongs m (h.belongs m hm), fun k hk => h'.gone k (h.gone k hk)⟩

/-- The state is sound, and came from `s` without a withdrawn case coming back. -/
structure SoundFrom (s w : World γ) : Prop where
  sound : Sound w
  grows : Grows s w

theorem Sound.from (w : World γ) (h : Sound w) : SoundFrom w w := ⟨h, .refl w⟩

theorem SoundFrom.step {s w w' : World γ} (h : SoundFrom s w) (h' : SoundFrom w w') :
    SoundFrom s w' :=
  ⟨h'.sound, h.grows.trans h'.grows⟩

/-! ## The writes -/

section writes

variable {s w w' : World γ}

theorem Withdrawn.congr {k : String} (hcases : w'.cases = w.cases) :
    Withdrawn w' k ↔ Withdrawn w k := by
  unfold Withdrawn
  rw [World.getCase_congr hcases]

theorem hasVector_congr {k : String} (hvectors : w'.vectors.case = w.vectors.case) :
    hasVector w' k = hasVector w k := by
  unfold hasVector
  rw [hvectors]

/-- A write that leaves the cases, their jobs and vectors, and the messages alone. -/
theorem SoundFrom.congr (h : SoundFrom s w) (hcases : w'.cases = w.cases)
    (hevents : w'.caseEvents = w.caseEvents) (hjobs : w'.jobs = w.jobs)
    (houtbox : w'.outbox = w.outbox) (hqueue : ∀ m ∈ w'.queue, Belongs w m)
    (hvectors : w'.vectors.case = w.vectors.case) : SoundFrom s w' := by
  refine h.step ⟨⟨?_, ?_, ?_, ?_⟩, ?_, ?_⟩
  · exact h.sound.tables.congr hcases hevents hjobs houtbox
  · exact fun m hm => (hqueue m hm).congr hjobs
  · intro k hk
    rw [hjobs]
    exact h.sound.asked k ((Withdrawn.congr hcases).mp hk)
  · intro k hk hvector
    rw [hasVector_congr hvectors] at hvector
    rw [hjobs]
    exact h.sound.removed k ((Withdrawn.congr hcases).mp hk) hvector
  · exact fun m hm => hm.congr hjobs
  · rintro k ⟨hk, hvector⟩
    exact ⟨(Withdrawn.congr hcases).mpr hk, (hasVector_congr hvectors).trans hvector⟩

theorem SoundFrom.event (h : SoundFrom s w) {event : CaseReviewEventModel}
    (hplain : ∀ c, event.requestHash ≠ .supersede c) :
    SoundFrom s { w with caseEvents := w.caseEvents ++ [event] } :=
  ⟨⟨h.sound.tables.event hplain, h.sound.queue, h.sound.asked, h.sound.removed⟩,
    h.grows.belongs, h.grows.gone⟩

theorem SoundFrom.insert (h : SoundFrom s w) {row : DiagnosisCaseModel} (hnew : NewDraft w row) :
    SoundFrom s { w with cases := w.cases ++ [row] } := by
  have hback : ∀ k, Withdrawn { w with cases := w.cases ++ [row] } k → Withdrawn w k := by
    rintro k ⟨row', hrow', hwithdrawn⟩
    rcases Table.get_append_eq_some hrow' with hold | ⟨-, -, rfl⟩
    · exact ⟨row', hold, hwithdrawn⟩
    · rw [hnew.draft] at hwithdrawn
      cases hwithdrawn
  refine h.step ⟨⟨h.sound.tables.insert hnew, h.sound.queue, fun k hk => ?_, fun k hk => ?_⟩,
    fun _ hm => hm, ?_⟩
  · exact h.sound.asked k (hback k hk)
  · exact h.sound.removed k (hback k hk)
  · rintro k ⟨⟨row', hrow', hwithdrawn⟩, hvector⟩
    exact ⟨⟨row', Table.get_append_of_some hrow', hwithdrawn⟩, hvector⟩

section rewrite

variable {k : String} {f : DiagnosisCaseModel → DiagnosisCaseModel}
  {events : List CaseReviewEventModel} {row : DiagnosisCaseModel}

/-- What is withdrawn stays so when a row is rewritten. -/
theorem Withdrawn.rewrite (hkey : ∀ r, (f r).caseId = r.caseId) (hrow : w.getCase k = some row)
    (hevolves : Evolves row (f row)) {k' : String} (h : Withdrawn w k') :
    Withdrawn (rewriteCase k f events w) k' := by
  obtain ⟨row₀, hrow₀, hwithdrawn⟩ := h
  obtain ⟨row', hrow', -, hstep⟩ := getCase_rewriteCase_of hkey hrow hevolves hrow₀
  exact ⟨row', hrow', statusStep_withdrawn hstep hwithdrawn⟩

/-- What is withdrawn after a row has been rewritten was so before, unless the write withdrew it. -/
theorem Withdrawn.of_rewrite (hkey : ∀ r, (f r).caseId = r.caseId) (hrow : w.getCase k = some row)
    {k' : String} (h : Withdrawn (rewriteCase k f events w) k') :
    Withdrawn w k' ∨ (k' = k ∧ row.reviewStatus.withdrawn = false ∧
      (f row).reviewStatus.withdrawn = true) := by
  obtain ⟨row', hrow', hwithdrawn⟩ := h
  obtain ⟨row₀, hrow₀, ⟨rfl, rfl⟩ | ⟨-, rfl⟩⟩ := getCase_rewriteCase hkey hrow'
  · obtain rfl : row = row₀ := Option.some.inj (hrow.symm.trans hrow₀)
    cases hold : row.reviewStatus.withdrawn with
    | true => exact Or.inl ⟨row, hrow, hold⟩
    | false => exact Or.inr ⟨rfl, rfl, hwithdrawn⟩
  · exact Or.inl ⟨row', hrow₀, hwithdrawn⟩

/-- A row is rewritten, and the write does not withdraw the case. -/
theorem SoundFrom.rewrite (h : SoundFrom s w) (hkey : ∀ r, (f r).caseId = r.caseId)
    (hrow : w.getCase k = some row) (hevolves : Evolves row (f row)) (hfit : EventsFit events k (f row))
    (hquiet : (f row).reviewStatus.withdrawn = true → row.reviewStatus.withdrawn = true) :
    SoundFrom s (rewriteCase k f events w) := by
  have hback : ∀ k', Withdrawn (rewriteCase k f events w) k' → Withdrawn w k' := by
    intro k' hk'
    rcases hk'.of_rewrite hkey hrow with hold | ⟨-, hnot, hnew⟩
    · exact hold
    · rw [hquiet hnew] at hnot
      cases hnot
  refine h.step ⟨⟨?_, h.sound.queue, fun k' hk' => ?_, fun k' hk' => ?_⟩, fun _ hm => hm, ?_⟩
  · exact h.sound.tables.rewriteCase hkey hrow hevolves hfit
  · exact h.sound.asked k' (hback k' hk')
  · exact h.sound.removed k' (hback k' hk')
  · rintro k' ⟨hk', hvector⟩
    exact ⟨hk'.rewrite hkey hrow hevolves, hvector⟩

theorem Belongs.addJob {request : IndexJobCreate} {jobId : String} {rec : IndexJobRecord}
    {m : IndexJobMessage} (h : Belongs w m) (hadd : addJob request jobId w = .ok (rec, w')) :
    Belongs w' m := by
  rcases addJob_cases hadd with ⟨-, rfl⟩ | ⟨-, -, -, rfl⟩
  · exact h
  · exact h.append

theorem addJob_frame {request : IndexJobCreate} {jobId : String} {rec : IndexJobRecord}
    (hadd : addJob request jobId w = .ok (rec, w')) : w'.vectors = w.vectors ∧ w'.queue = w.queue := by
  rcases addJob_cases hadd with ⟨-, rfl⟩ | ⟨-, -, -, rfl⟩ <;> exact ⟨rfl, rfl⟩

/-- A job of the request is there, and whatever job is new has only been asked for. -/
theorem addJob_jobs {request : IndexJobCreate} {jobId : String} {rec : IndexJobRecord}
    (hadd : addJob request jobId w = .ok (rec, w')) :
    (∃ job ∈ w'.jobs, job.requestedBy request = true) ∧ (∀ job ∈ w.jobs, job ∈ w'.jobs) ∧
      ∀ job ∈ w'.jobs, job ∈ w.jobs ∨ job.status = .pending := by
  rcases addJob_cases hadd with ⟨hfound, rfl⟩ | ⟨-, -, -, rfl⟩
  · obtain ⟨hmem, hreq⟩ := existingJob_eq_some hfound
    exact ⟨⟨rec.row, hmem, hreq⟩, fun _ hjob => hjob, fun _ hjob => Or.inl hjob⟩
  · refine ⟨⟨newJob request jobId, List.mem_append_right _ (List.mem_singleton_self _), ?_⟩,
      fun _ hjob => List.mem_append_left _ hjob, fun job hjob => ?_⟩
    · exact requestedBy_iff.mpr ⟨rfl, rfl, rfl, rfl⟩
    · rcases List.mem_append.mp hjob with hold | hnew
      · exact Or.inl hold
      · rw [List.mem_singleton.mp hnew]
        exact Or.inr rfl

theorem calledFor_withdrawn {operation : IndexOperation} {status : CaseStatus}
    (h : calledFor operation status = true) (hwithdrawn : status.withdrawn = true) :
    operation = .tombstone := by
  revert h hwithdrawn
  cases operation <;> cases status <;> decide

/-- A row is queued for a job that its status calls for: a withdrawal comes with its tombstone. -/
theorem SoundFrom.queue (h : SoundFrom s w) (hkey : ∀ r, (f r).caseId = r.caseId)
    (hrow : w.getCase k = some row) (hevolves : Evolves row (f row)) {request : IndexJobCreate}
    (hqueues : Queues request (f row)) (hfit : EventsFit events k (f row)) {jobId : String}
    {rec : IndexJobRecord} (hadd : addJob request jobId (rewriteCase k f events w) = .ok (rec, w')) :
    SoundFrom s w' := by
  have hid : request.entityId = k := hqueues.fits.entityId.trans ((hkey row).trans (getCase_caseId hrow))
  have htables : Tables (rewriteCase k f events w) :=
    h.sound.tables.rewriteCase hkey hrow hevolves hfit
  have hcases := addJob_caseTable hadd
  obtain ⟨hvectors, hqueue⟩ := addJob_frame hadd
  obtain ⟨⟨asked, hasked, hreq⟩, hold, hnew⟩ := addJob_jobs hadd
  obtain ⟨htype, hentity, -, hop⟩ := requestedBy_iff.mp hreq
  have htombstone : (f row).reviewStatus.withdrawn = true → request.operation = .tombstone :=
    calledFor_withdrawn hqueues.called
  refine h.step ⟨⟨?_, fun m hm => ?_, fun k' hk' => ?_, fun k' hk' hvector job hjob hof => ?_⟩,
    fun m hm => ?_, ?_⟩
  · refine htables.addJob (fun _ => ⟨f row, ?_, hqueues.fits.entityVersion.symm, hqueues.fits.status⟩) hadd
    rw [hid]
    exact getCase_rewriteCase_self hkey hrow
  · rw [hqueue] at hm
    exact Belongs.addJob (w := rewriteCase k f events w) (h.sound.queue m hm) hadd
  · rcases ((Withdrawn.congr hcases).mp hk').of_rewrite hkey hrow with hbefore | ⟨rfl, -, hwithdrawn⟩
    · obtain ⟨job, hjob, hof⟩ := h.sound.asked k' hbefore
      exact ⟨job, hold job hjob, hof⟩
    · exact ⟨asked, hasked, htype.trans hqueues.fits.entityType, hentity.trans hid,
        hop.trans (htombstone hwithdrawn)⟩
  · rcases hnew job hjob with hbefore | hpending
    · rcases ((Withdrawn.congr hcases).mp hk').of_rewrite hkey hrow with hk | ⟨rfl, hnot, -⟩
      · rw [hasVector_congr (congrArg VectorStore.case hvectors)] at hvector
        exact h.sound.removed k' hk hvector job hbefore hof
      · -- before the withdrawal there was no tombstone job
        obtain ⟨row', hrow', -, hstatus⟩ := h.sound.tables.caseJob job hbefore hof.1
        rw [hof.2.1, hrow] at hrow'
        cases hrow'
        rw [hof.2.2] at hstatus
        exact absurd (hnot.symm.trans hstatus) Bool.false_ne_true
    · rw [hpending]
      rfl
  · exact Belongs.addJob (w := rewriteCase k f events w) hm hadd
  · rintro k' ⟨hk', hvector⟩
    exact ⟨(Withdrawn.congr hcases).mpr (hk'.rewrite hkey hrow hevolves),
      (hasVector_congr (congrArg VectorStore.case hvectors)).trans hvector⟩

end rewrite

/-- One job changes its status. -/
theorem SoundFrom.updateJob (h : SoundFrom s w) {jobId : String} {g : IndexJobModel → IndexJobModel}
    (hg : ∀ job, SameJob job (g job))
    (hopen : ∀ k job, job ∈ w.jobs → job.jobId = jobId → Withdrawn w k → hasVector w k = true →
      Withdraws k job → job.status.finished = false → (g job).status.finished = false) :
    SoundFrom s (w.updateJob jobId g) := by
  refine h.step ⟨⟨h.sound.tables.updateJob hg, fun m hm => (h.sound.queue m hm).updateJob hg,
    fun k hk => ?_, fun k hk hvector job' hjob' hof => ?_⟩, fun m hm => hm.updateJob hg, fun _ hk => hk⟩
  · obtain ⟨job, hjob, htype, hid, hop⟩ := h.sound.asked k hk
    obtain ⟨job', hjob', -, htype', hid', -, hop'⟩ := mem_updateJob_of_mem (k := jobId) hg hjob
    exact ⟨job', hjob', htype'.trans htype, hid'.trans hid, hop'.trans hop⟩
  · obtain ⟨job, hjob, ⟨hkey, rfl⟩ | ⟨-, rfl⟩⟩ := mem_updateJob hjob'
    · obtain ⟨-, htype, hid, -, hop⟩ := hg job
      have hof' : Withdraws k job := ⟨htype.symm.trans hof.1, hid.symm.trans hof.2.1, hop.symm.trans hof.2.2⟩
      exact hopen k job hjob hkey hk hvector hof' (h.sound.removed k hk hvector job hjob hof')
    · exact h.sound.removed k hk hvector job' hjob hof

/-- A job gets a status in which it is not finished. -/
theorem SoundFrom.reopen (h : SoundFrom s w) {jobId : String} {g : IndexJobModel → IndexJobModel}
    (hg : ∀ job, SameJob job (g job))
    (hopen : ∀ job, job.status.finished = false → (g job).status.finished = false) :
    SoundFrom s (w.updateJob jobId g) :=
  h.updateJob hg fun _ job _ _ _ _ _ hjob => hopen job hjob

/-- The vector of an approved case is stored. -/
theorem SoundFrom.upsertVector (h : SoundFrom s w) {row : VectorRow}
    (happroved : ∀ case, w.getCase row.id = some case → case.reviewStatus = .approved) :
    SoundFrom s (upsertCollection .case [row] w) := by
  have hother : ∀ k, Withdrawn w k → hasVector (upsertCollection .case [row] w) k = hasVector w k := by
    rintro k ⟨case, hcase, hwithdrawn⟩
    have hne : k ≠ row.id := by
      rintro rfl
      rw [happroved case hcase] at hwithdrawn
      cases hwithdrawn
    show (Table.get VectorRow.id (Table.upsert VectorRow.id w.vectors.case row) k).isSome = _
    rw [Table.get_upsert_ne _ hne]
    rfl
  refine h.step ⟨⟨h.sound.tables.congr rfl rfl rfl rfl, h.sound.queue, h.sound.asked,
    fun k hk hvector => ?_⟩, fun _ hm => hm, ?_⟩
  · rw [hother k hk] at hvector
    exact h.sound.removed k hk hvector
  · rintro k ⟨hk, hvector⟩
    exact ⟨hk, (hother k hk).trans hvector⟩

theorem hasVector_dropCaseVector (k k' : String) (w : World γ) :
    hasVector (dropCaseVector k w) k' = if k' = k then false else hasVector w k' := by
  unfold hasVector dropCaseVector
  simp only [Table.get_delete]
  split <;> rfl

theorem SoundFrom.dropVector (h : SoundFrom s w) (k : String) :
    SoundFrom s (dropCaseVector k w) := by
  refine h.step ⟨⟨h.sound.tables.congr rfl rfl rfl rfl, h.sound.queue, h.sound.asked,
    fun k' hk' hvector => ?_⟩, fun _ hm => hm, ?_⟩
  · rw [hasVector_dropCaseVector] at hvector
    split at hvector
    · cases hvector
    · exact h.sound.removed k' hk' hvector
  · rintro k' ⟨hk', hvector⟩
    refine ⟨hk', ?_⟩
    rw [hasVector_dropCaseVector, hvector]
    split <;> rfl

end writes

/-! ## Whoever is no worker -/

section elsewhere

variable {s w w' : World γ} {settings : CaseSettings}

theorem caseInvariant_soundFrom (s : World γ) : CaseInvariant False False False
    (fun w => SoundFrom s w ∧ w.vectors = s.vectors) where
  base h := h.1.sound.tables
  core h := h.elim
  event h hplain := ⟨h.1.event hplain, h.2⟩
  insert h hnew _ := ⟨h.1.insert hnew, h.2⟩
  rewrite h hkey hrow hevolves hquiet hfit _ :=
    ⟨h.1.rewrite hkey hrow hevolves hfit fun hnew => (hquiet.withdrawn hnew).elim id False.elim, h.2⟩
  queue h hkey hrow hevolves hqueues hfit _ _ hadd :=
    ⟨h.1.queue hkey hrow hevolves hqueues hfit hadd, (addJob_frame hadd).1.trans h.2⟩

/-- **A request of the API**, when the workers do the indexing. -/
theorem SoundFrom.request (hmode : settings.indexExecutionMode = .rabbitmq) (h : Sound w)
    (call : CaseCall) (request : CaseRequest) : SoundFrom w (request.run settings call w).2 := by
  have hI := caseInvariant_soundFrom w
  have hw : SoundFrom w w ∧ w.vectors = w.vectors := ⟨h.from w, rfl⟩
  have hsync : settings.indexExecutionMode ≠ .sync := by
    rw [hmode]
    decide
  refine (hI.run (fun hS => absurd hS hsync) hw (fun hR => hR.elim) (fun caseId payload _ => ?_)
    fun caseId _ => ?_).1
  · exact hI.reviewCase hw fun _ _ _ hS => absurd hS hsync
  · exact hI.reindex (fun hS => absurd hS hsync) hw (fun hN => hN.elim) fun hS => absurd hS hsync

/-- An outbox row changes that stays the row of its message. -/
theorem SoundFrom.updateOutbox (h : SoundFrom s w) {id : Nat} {u : IndexOutboxModel → IndexOutboxModel}
    (hu : ∀ row, (u row).id = row.id ∧ (u row).jobId = row.jobId ∧ (u row).payload = row.payload) :
    SoundFrom s (w.updateOutbox id u) :=
  ⟨⟨h.sound.tables.updateOutbox hu, h.sound.queue, h.sound.asked, h.sound.removed⟩,
    h.grows.belongs, h.grows.gone⟩

theorem SoundFrom.requeue (h : SoundFrom s w) {event : IndexJobMessage} (hevent : Belongs w event) :
    SoundFrom s (requeue event w) := by
  refine h.congr rfl rfl rfl rfl (fun m hm => ?_) rfl
  rcases List.mem_append.mp hm with hold | hnew
  · exact h.sound.queue m hold
  · rw [List.mem_singleton.mp hnew]
    exact hevent

theorem SoundFrom.publishRow (h : SoundFrom s w) {row : IndexOutboxModel} (hrow : row ∈ w.outbox)
    (outcome : PublishOutcome) : SoundFrom s (Indexing.publishRow row outcome w) := by
  have hsent := h.requeue (h.sound.tables.outboxPayload row hrow).2
  cases outcome with
  | published =>
      refine (hsent.updateOutbox publishedRow_same).reopen sameJob_queuedJob fun job hopen => ?_
      unfold queuedJob
      split
      · rfl
      · exact hopen
  | failed => exact h.updateOutbox fun _ => ⟨rfl, rfl, rfl⟩
  | unmarked => exact hsent.updateOutbox fun _ => ⟨rfl, rfl, rfl⟩

theorem SoundFrom.retry (h : SoundFrom s w) (jobId traceId : String) :
    SoundFrom s (Indexing.retry jobId traceId w) := by
  rcases retry_cases jobId traceId w with hsame | ⟨job, hjob, -, hretry⟩
  · rw [hsame]
    exact h
  · have hrow : SoundFrom s { w with outbox := w.outbox ++
        [newOutbox w.nextOutboxId "index.job.retried.v1" (retryMessage job traceId)] } :=
      ⟨⟨h.sound.tables.outbox (belongs_retryMessage hjob traceId), h.sound.queue, h.sound.asked,
        h.sound.removed⟩, h.grows.belongs, h.grows.gone⟩
    rw [hretry]
    exact hrow.reopen (g := retriedJob) (fun _ => ⟨rfl, rfl, rfl, rfl, rfl⟩) fun _ _ => rfl

/-- An index job that is not about a case. -/
theorem SoundFrom.addJob (h : SoundFrom s w) {request : IndexJobCreate} {jobId : String}
    {rec : IndexJobRecord} (htype : request.entityType ≠ .diagnosisCase)
    (hadd : Indexing.addJob request jobId w = .ok (rec, w')) : SoundFrom s w' := by
  have hcases := addJob_caseTable hadd
  obtain ⟨hvectors, hqueue⟩ := addJob_frame hadd
  obtain ⟨-, hold, hnew⟩ := addJob_jobs hadd
  refine h.step ⟨⟨h.sound.tables.addJob (fun heq => absurd heq htype) hadd, fun m hm => ?_,
    fun k hk => ?_, fun k hk hvector job hjob hof => ?_⟩, fun m hm => hm.addJob hadd, ?_⟩
  · rw [hqueue] at hm
    exact (h.sound.queue m hm).addJob hadd
  · obtain ⟨job, hjob, hof⟩ := h.sound.asked k ((Withdrawn.congr hcases).mp hk)
    exact ⟨job, hold job hjob, hof⟩
  · rcases hnew job hjob with hbefore | hpending
    · rw [hasVector_congr (congrArg VectorStore.case hvectors)] at hvector
      exact h.sound.removed k ((Withdrawn.congr hcases).mp hk) hvector job hbefore hof
    · rw [hpending]
      rfl
  · rintro k ⟨hk, hvector⟩
    exact ⟨(Withdrawn.congr hcases).mpr hk,
      (hasVector_congr (congrArg VectorStore.case hvectors)).trans hvector⟩

/-- **Every step that no worker takes.** -/
theorem SoundFrom.elsewhere (hmode : settings.indexExecutionMode = .rabbitmq) (h : Sound w)
    {label : Label γ} (hlabel : label.ofWorker = false)
    (hstep : Cases.step settings w label = some w') : SoundFrom w w' := by
  cases label with
  | consume ports event => cases hlabel
  | drain ports events => cases hlabel
  | api call request =>
      cases hstep
      exact .request hmode h call request
  | ingest tickets documents chunks =>
      cases hstep
      exact (h.from w).congr rfl rfl rfl rfl h.queue rfl
  | requestIndex request jobId =>
      simp only [Cases.step] at hstep
      split at hstep
      · cases hstep
      · next htype =>
          split at hstep
          · next hadd =>
              cases hstep
              exact (h.from w).addJob htype hadd
          · cases hstep
  | retry jobId traceId =>
      cases hstep
      exact (h.from w).retry jobId traceId
  | publish outboxId outcome =>
      simp only [Cases.step] at hstep
      split at hstep
      · cases hstep
      · next row hrow =>
          split at hstep
          · cases hstep
            exact (h.from w).publishRow (Table.get_eq_some hrow).1 outcome
          · cases hstep

end elsewhere

/-! ## Handlers, step by step -/

/-- The message takes its case out of the index. -/
def Removes (event : IndexJobMessage) : Prop :=
  event.entityType = .diagnosisCase ∧ event.operation = .tombstone

/-- The message brings its case into the index. -/
def Upserts (event : IndexJobMessage) : Prop :=
  event.entityType = .diagnosisCase ∧ event.operation ≠ .tombstone

theorem Upserts.not_removes {event : IndexJobMessage} (h : Upserts event) : ¬ Removes event :=
  fun hr => h.2 hr.2

/-- The next step writes the vector or `is_active = true`, and does not look at the case again. -/
def writesCase : HandlerPoint → Bool
  | .embedded _ _ _ | .projected _ _ _ => true
  | _ => false

/-- What is known at a point of a handler. -/
def PointFits (w : World γ) (event : IndexJobMessage) : HandlerPoint → Prop
  | .begin => True
  | .checked case => Upserts event ∧ case.caseId = event.entityId
  | .embedded case _ _ => Upserts event ∧ case.caseId = event.entityId
  | .stored _ _ => Upserts event
  | .projected _ _ _ => Upserts event
  | .activated _ _ => Upserts event
  | .removing case => Removes event ∧ case.caseId = event.entityId
  | .removed _ => Removes event ∧ Gone w event.entityId
  | .unprojected _ => Removes event ∧ Gone w event.entityId
  | .returned _ => Removes event → Gone w event.entityId
  | .raised e => Removes event → e ≠ .stale

/-- What other steps do is nothing to a handler. -/
theorem PointFits.grows {w w' : World γ} {event : IndexJobMessage} {point : HandlerPoint}
    (h : PointFits w event point) (hgrows : Grows w w') : PointFits w' event point := by
  cases point with
  | removed case => exact ⟨h.1, hgrows.gone _ h.2⟩
  | unprojected degraded => exact ⟨h.1, hgrows.gone _ h.2⟩
  | returned result => exact fun hr => hgrows.gone _ (h hr)
  | _ => exact h

section handler

variable {s w w' : World γ} {event : IndexJobMessage}

/-- The case of a message, and what its operation says of the case. -/
theorem Belongs.case (hevent : Belongs w event) (h : Tables w)
    (htype : event.entityType = .diagnosisCase) : ∃ row, w.getCase event.entityId = some row ∧
      toString row.caseVersion = event.entityVersion ∧
      jobStatus event.operation row.reviewStatus = true := by
  obtain ⟨job, hjob, -, htype', hid, hversion, hop⟩ := hevent
  rw [hid, hversion, hop]
  exact h.caseJob job hjob (htype'.symm.trans htype)

theorem Belongs.withdrawn (hevent : Belongs w event) (h : Tables w) (hremoves : Removes event) :
    Withdrawn w event.entityId := by
  obtain ⟨row, hrow, -, hstatus⟩ := hevent.case h hremoves.1
  rw [hremoves.2] at hstatus
  exact ⟨row, hrow, hstatus⟩

/-- A tombstone is never stale. -/
theorem checkCase_not_stale (h : Sound w) (hevent : Belongs w event) (hremoves : Removes event) :
    checkCase event (w.getCase event.entityId) ≠ .error .stale := by
  intro hstale
  obtain ⟨row, hrow, hversion, hstatus⟩ := hevent.case h.tables hremoves.1
  rw [hremoves.2] at hstatus
  have haccepts : Accepts event row := by
    rw [Accepts, if_pos hremoves.2]
    exact hstatus
  obtain ⟨-, hactive⟩ := rejects_of_checkCase hstale hremoves.1 row hrow hversion haccepts
  have happroved := h.tables.active hrow hactive
  rw [happroved] at hstatus
  cases hstatus

theorem evolves_index (h : Tables w) {k : String} {row : DiagnosisCaseModel}
    (hrow : w.getCase k = some row) (status : IndexStatus) {active : Bool} (text : Option String)
    (hactive : active = true → row.reviewStatus = .approved) :
    Evolves row (indexRow status active text row) where
  caseId := rfl
  caseVersion := rfl
  supersedesCaseId := rfl
  status := statusStep_refl _
  active := hactive
  readable := fun hdraft => show Readable row from h.readable hrow hdraft

theorem SoundFrom.setCaseIndex (h : SoundFrom s w) {k : String} {row : DiagnosisCaseModel}
    (hrow : w.getCase k = some row) (status : IndexStatus) {active : Bool} (text : Option String)
    (hactive : active = true → row.reviewStatus = .approved) :
    SoundFrom s (setCaseIndex k status active text w) := by
  rw [Indexing.setCaseIndex, updateCase_eq_rewriteCase]
  exact h.rewrite (indexRow_caseId status active text) hrow
    (evolves_index h.sound.tables hrow status text hactive) (eventsFit_nil _ _) fun hw => hw

theorem queues_superseded (event : IndexJobMessage) (row : DiagnosisCaseModel) :
    Queues (supersedeRequest event row) (supersededRow row) :=
  ⟨⟨rfl, rfl, rfl, rfl⟩, rfl, rfl, rfl⟩

theorem SoundFrom.supersedeOld (h : SoundFrom s w) {jobId old : String}
    (hold : supersedeOld event jobId old w = .ok ((), w')) : SoundFrom s w' := by
  rcases supersedeOld_cases hold with ⟨rfl, -⟩ | ⟨row, rec, hrow, happroved, hadd⟩
  · exact h
  · rw [updateCase_eq_rewriteCase] at hadd
    have hevolves : Evolves row (supersededRow row) :=
      ⟨rfl, rfl, rfl, by rw [happroved]; rfl, fun hactive => (Bool.false_ne_true hactive).elim,
        fun _ => show Readable row from h.sound.tables.readable hrow (by simp [happroved])⟩
    exact h.queue supersededRow_caseId hrow hevolves (queues_superseded event row)
      (eventsFit_nil _ _) hadd

/-- A call to a service returns, or raises what is its own. -/
theorem triple_callOutcome {P : World γ → Prop} {Q : Unit → World γ → Prop}
    {E : HandlerError → World γ → Prop} {f : World γ → World γ} (outcome : CallOutcome)
    (hok : ∀ w, P w → Q () (f w)) (hraise : ∀ (e : PortError) w, P w → E e.val w ∧ E e.val (f w)) :
    Prog.Triple P (callOutcome outcome f) Q E := by
  unfold callOutcome
  cases outcome with
  | applied => exact .write hok
  | raised e => exact .raise fun w hw => (hraise e w hw).1
  | appliedThenRaised e =>
      exact .bind (Q := fun _ w => E e.val w) (.write fun w hw => (hraise e w hw).2)
        fun _ => .raise fun _ hw => hw

theorem SoundFrom.sameButGraph (h : SoundFrom s w) (hsame : SameButGraph w w') :
    SoundFrom s w' := by
  obtain ⟨graph, projections, rfl⟩ := hsame
  exact h.congr rfl rfl rfl rfl h.sound.queue rfl

/-- Manuals and tickets have collections of their own. -/
theorem keeps_handle_other {ports : IndexPorts γ} (htype : event.entityType ≠ .diagnosisCase) :
    Prog.Keeps (SoundFrom s) (handle ports event) := by
  unfold Indexing.handle
  cases hentity : event.entityType with
  | diagnosisCase => exact absurd hentity htype
  | templateGraph => exact .raise _
  | maintenanceTicket =>
      refine .bind (.read _) fun _ => .bind (.lift _) fun _ => .bind (.lift _) fun _ => ?_
      refine .bind (keeps_vectorUpsert fun w h => ?_) fun _ => .bind (.write fun w h => ?_) fun _ => .pure _
      · exact h.congr rfl rfl rfl rfl h.sound.queue rfl
      · exact h.congr rfl rfl rfl rfl h.sound.queue rfl
  | manualDocument =>
      refine .bind (.read _) fun found => ?_
      cases found with
      | none => exact .raise _
      | some document =>
          refine .bind .raiseIf fun _ => .bind (.read _) fun _ => .bind (.lift _) fun _ => ?_
          refine .bind (keeps_vectorUpsert fun w h => ?_) fun _ => .bind (.write fun w h => ?_) fun _ => .pure _
          · exact h.congr rfl rfl rfl rfl h.sound.queue rfl
          · exact h.congr rfl rfl rfl rfl h.sound.queue rfl

/-- What a step of a handler leaves when it raises. -/
def Raised (event : IndexJobMessage) (s : World γ) (e : HandlerError) (w : World γ) : Prop :=
  SoundFrom s w ∧ (Removes event → e ≠ .stale)

theorem keeps_raised {α : Type} {x : Handler γ α} (hevent : ¬ Removes event)
    (hx : Prog.Keeps (SoundFrom s) x) :
    Prog.Triple (SoundFrom s) x (fun _ => SoundFrom s) (Raised event s) :=
  hx.weaken (fun _ h => h) (fun _ _ h => h) fun _ _ h => ⟨h, fun hr => absurd hr hevent⟩

/-- **One step of a handler.** It may write for its case as long as the case is approved. -/
theorem sound_handlerStep (ports : IndexPorts γ) (h : Sound w) (hevent : Belongs w event)
    {point : HandlerPoint} (hpoint : PointFits w event point)
    (happroved : writesCase point = true → ∀ row, w.getCase event.entityId = some row →
      row.reviewStatus = .approved) :
    Prog.Triple (· = w) (handlerStep ports event point)
      (fun point' w' => SoundFrom w w' ∧ PointFits w' event point') (Raised event w) := by
  have hself := h.from w
  have hgraph : ∀ {x : Handler γ Bool}, (∀ u, Prog.Keeps (SameButGraph u) x) →
      Prog.Keeps (SoundFrom w) x := fun hx =>
    .of_snd fun u hu => hu.sameButGraph ((hx u).snd (SameButGraph.refl u))
  cases point with
  | begin =>
      by_cases htype : event.entityType = .diagnosisCase
      · simp only [handlerStep, if_pos htype]
        refine .bind (Q := fun found u => u = w ∧ found = w.getCase event.entityId)
          (.read fun u hu => ⟨hu, by rw [hu]⟩) fun found => ?_
        refine .bind (Q := fun case u => u = w ∧ w.getCase event.entityId = some case)
          (.lift ?_ ?_) fun case => .pure ?_
        · rintro case hok u ⟨rfl, rfl⟩
          exact ⟨rfl, checkCase_eq_ok hok⟩
        · rintro e herror u ⟨rfl, rfl⟩
          refine ⟨hself, fun hremoves hstale => ?_⟩
          rw [hstale] at herror
          exact checkCase_not_stale h hevent hremoves herror
        · rintro u ⟨rfl, hrow⟩
          refine ⟨hself, ?_⟩
          by_cases hop : event.operation = .tombstone
          · rw [if_pos hop]
            exact ⟨⟨htype, hop⟩, getCase_caseId hrow⟩
          · rw [if_neg hop]
            exact ⟨⟨htype, hop⟩, getCase_caseId hrow⟩
      · have hnot : ¬ Removes event := fun hr => htype hr.1
        simp only [handlerStep, if_neg htype]
        refine .weaken (P := SoundFrom w) ?_ ?_ (fun _ _ hq => hq) fun _ _ he => he
        · refine .bind (keeps_raised hnot (keeps_handle_other htype)) fun result => .pure fun u hu => ?_
          exact ⟨hu, fun hr => absurd hr hnot⟩
        · rintro u rfl
          exact hself
  | checked case =>
      have hnot := hpoint.1.not_removes
      refine .bind (Q := fun _ u => u = w) (.lift (fun _ _ _ hu => hu) ?_) fun text => ?_
      · rintro e - u rfl
        exact ⟨hself, fun hr => absurd hr hnot⟩
      refine .bind (Q := fun _ u => u = w) (.lift (fun _ _ _ hu => hu) ?_) fun vector => .pure ?_
      · rintro e - u rfl
        exact ⟨hself, fun hr => absurd hr hnot⟩
      · rintro u rfl
        exact ⟨hself, hpoint⟩
  | embedded case text vector =>
      have hnot := hpoint.1.not_removes
      have hstored : SoundFrom w (upsertCollection .case [caseVector case vector] w) := by
        refine hself.upsertVector fun row hrow => happroved rfl row ?_
        rw [← hpoint.2]
        exact hrow
      refine .bind (Q := fun _ u => SoundFrom w u) (triple_callOutcome _ ?_ ?_) fun _ =>
        .pure fun u hu => ⟨hu, hpoint.1⟩
      · rintro u rfl
        exact hstored
      · rintro e u rfl
        exact ⟨⟨hself, fun hr => absurd hr hnot⟩, hstored, fun hr => absurd hr hnot⟩
  | stored case text =>
      refine .weaken (P := SoundFrom w) (.bind (keeps_raised hpoint.not_removes
        (hgraph fun _ => keeps_projectCase)) fun degraded => .pure fun u hu => ⟨hu, hpoint⟩) ?_
        (fun _ _ hq => hq) fun _ _ he => he
      rintro u rfl
      exact hself
  | projected case text degraded =>
      obtain ⟨row, hrow, -⟩ := hevent.case h.tables hpoint.1
      refine .bind (Q := fun _ u => SoundFrom w u) (.write ?_) fun _ => .pure fun u hu => ⟨hu, hpoint⟩
      rintro u rfl
      exact hself.setCaseIndex hrow _ _ fun _ => happroved rfl row hrow
  | activated case degraded =>
      refine .weaken (P := SoundFrom w) (.bind (keeps_raised hpoint.not_removes ?_) fun _ =>
        .pure fun u hu => ⟨hu, fun hr => absurd hr hpoint.not_removes⟩) ?_
        (fun _ _ hq => hq) fun _ _ he => he
      · unfold supersedeOriginal
        cases case.supersededId with
        | none => exact .pure _
        | some old =>
            exact .bind .raiseIf fun _ => .transaction fun _ _ _ hu hold => hu.supersedeOld hold
      · rintro u rfl
        exact hself
  | removing case =>
      obtain ⟨hremoves, hid⟩ := hpoint
      have hdropped : SoundFrom w (dropCaseVector case.caseId w) := hself.dropVector _
      refine .bind (Q := fun _ u => SoundFrom w u ∧ Gone u event.entityId)
        (triple_callOutcome _ ?_ ?_) fun _ => .pure fun u hu => ⟨hu.1, hremoves, hu.2⟩
      · rintro u rfl
        refine ⟨hdropped, hevent.withdrawn h.tables hremoves, ?_⟩
        rw [hasVector_dropCaseVector, if_pos hid.symm]
      · rintro e u rfl
        exact ⟨⟨hself, fun _ => fromPort_ne_stale e⟩, hdropped, fun _ => fromPort_ne_stale e⟩
  | removed case =>
      obtain ⟨hremoves, hgone⟩ := hpoint
      have hquiet : NeverStale (unprojectCase ports event case) :=
        neverStale_catchException neverStale_degraded
      refine .bind (Q := fun _ u => SoundFrom w u) (.weaken
        ((hgraph fun _ => keeps_unprojectCase).and hquiet) ?_ (fun _ _ hq => hq.1) fun _ _ he =>
          ⟨he.1, fun _ => he.2⟩) fun degraded => .pure fun u hu =>
            ⟨hu, hremoves, hu.grows.gone _ hgone⟩
      rintro u rfl
      exact ⟨hself, trivial⟩
  | unprojected degraded =>
      obtain ⟨hremoves, hgone⟩ := hpoint
      obtain ⟨row, hrow, -⟩ := hevent.case h.tables hremoves.1
      refine .bind (Q := fun _ u => SoundFrom w u) (.write ?_) fun _ => .pure fun u hu =>
        ⟨hu, fun _ => hu.grows.gone _ hgone⟩
      rintro u rfl
      exact hself.setCaseIndex hrow _ _ fun hactive => (Bool.false_ne_true hactive).elim
  | returned result =>
      refine .pure ?_
      rintro u rfl
      exact ⟨hself, hpoint⟩
  | raised e =>
      refine .pure ?_
      rintro u rfl
      exact ⟨hself, hpoint⟩

end handler

/-! ## Deliveries, step by step -/

def StageFits (w : World γ) (event : IndexJobMessage) : Stage → Prop
  | .handling _ point => PointFits w event point
  | _ => True

/-- What is known of a delivery that goes on. -/
def NextFits (w : World γ) (event : IndexJobMessage) (next : Next) : Prop :=
  ∀ stage, next.stage = some stage → StageFits w event stage

section advance

variable {w w' : World γ} {event : IndexJobMessage}

theorem StageFits.grows {stage : Stage} (h : StageFits w event stage) (hgrows : Grows w w') :
    StageFits w' event stage := by
  cases stage with
  | handling rec point => exact PointFits.grows h hgrows
  | _ => trivial

theorem nextFits_stay {stage : Stage} (h : StageFits w event stage) :
    NextFits w event (.stay stage) := by
  intro stage' hstage
  cases hstage
  exact h

theorem nextFits_none {next : Next} (h : next.stage = none) : NextFits w event next := by
  intro stage hstage
  rw [h] at hstage
  cases hstage

/-- A tombstone job is finished by a handler that has returned, when the vector is gone. -/
theorem Sound.finish (h : Sound w) (hevent : Belongs w event)
    (hgone : Removes event → Gone w event.entityId) (status : IndexJobStatus) :
    SoundFrom w (finish event.jobId status w) := by
  refine (h.from w).updateJob (fun _ => ⟨rfl, rfl, rfl, rfl, rfl⟩)
    fun k job hjob hid _ hvector hof _ => ?_
  obtain ⟨own, hown, hjobId, htype, hentity, -, hop⟩ := hevent
  obtain rfl : own = job := List.inj_on_of_nodup_map h.tables.jobIds hown hjob (hjobId.symm.trans hid.symm)
  have hremoves : Removes event := ⟨htype.trans hof.1, hop.trans hof.2.2⟩
  rw [← hof.2.1, ← hentity, (hgone hremoves).2] at hvector
  cases hvector

theorem Sound.fail (h : Sound w) (jobId code message : String) (retry : Bool) :
    SoundFrom w (fail jobId code message retry w) := by
  unfold Indexing.fail
  cases hjob : w.getJob jobId with
  | none => exact h.from w
  | some job =>
      have hfailed : SoundFrom w (w.updateJob jobId (failedJob code message retry)) := by
        refine (h.from w).reopen (fun _ => ⟨rfl, rfl, rfl, rfl, rfl⟩) fun _ _ => ?_
        cases retry <;> rfl
      cases retry with
      | true => exact hfailed
      | false =>
          show SoundFrom w (failEntity job code _)
          unfold failEntity
          split
          · next htype =>
              obtain ⟨row, hrow, -⟩ := h.tables.caseJob job (mem_of_getJob hjob).1 htype
              rw [updateCase_eq_rewriteCase]
              exact hfailed.rewrite (failedCase_caseId code) hrow (evolves_failedCase h.tables hrow code)
                (eventsFit_nil _ _) fun hw => hw
          · exact hfailed.congr rfl rfl rfl rfl hfailed.sound.queue rfl
          · exact hfailed.congr rfl rfl rfl rfl hfailed.sound.queue rfl
          · exact hfailed

theorem Sound.start (h : Sound w) {jobId : String} {rec : Option IndexJobRecord}
    (hstart : start jobId w = .ok (rec, w')) : SoundFrom w w' := by
  rcases start_cases hstart with ⟨-, -, rfl⟩ | ⟨job, r, -, -, ⟨-, -, rfl⟩ | ⟨-, -, rfl⟩⟩
  · exact h.from _
  · exact h.from _
  · exact (h.from w).reopen (fun _ => ⟨rfl, rfl, rfl, rfl, rfl⟩) fun _ _ => rfl

theorem Sound.publishFailed (h : Sound w) (hevent : Belongs w event) (outcome : CallOutcome)
    (dead : Bool) : SoundFrom w (publishFailed outcome dead event w).2 := by
  have hsent := (h.from w).requeue hevent
  unfold Indexing.publishFailed callOutcome
  cases outcome <;> cases dead <;>
    first
      | exact h.from w
      | exact hsent

/-- **One step of a delivery.** -/
theorem sound_advance (ports : ConsumerPorts γ) (h : Sound w) (hevent : Belongs w event)
    {stage : Stage} (hstage : StageFits w event stage)
    (happroved : ∀ rec point, stage = .handling rec point → writesCase point = true →
      ∀ row, w.getCase event.entityId = some row → row.reviewStatus = .approved) :
    SoundFrom w (advance ports event stage w).2 ∧
      NextFits (advance ports event stage w).2 event (advance ports event stage w).1 := by
  cases stage with
  | delivered =>
      rw [advance]
      cases hstart : start event.jobId w with
      | error e => exact ⟨h.from w, nextFits_none rfl⟩
      | ok result =>
          obtain ⟨rec, w'⟩ := result
          have hw' := h.start hstart
          cases rec with
          | none => exact ⟨hw', nextFits_stay trivial⟩
          | some rec =>
              dsimp only
              split <;> exact ⟨hw', nextFits_stay trivial⟩
  | handling rec point =>
      have hhandler : ∀ point, PointFits w event point → (writesCase point = true →
          ∀ row, w.getCase event.entityId = some row → row.reviewStatus = .approved) →
          SoundFrom w (handleStep ports event rec point w).2 ∧
            NextFits (handleStep ports event rec point w).2 event (handleStep ports event rec point w).1 := by
        intro point hpoint hstill
        have htriple := sound_handlerStep ports.handlers h hevent hpoint hstill
        unfold handleStep
        cases hstep : handlerStep ports.handlers event point w with
        | mk r w' =>
            cases r with
            | ok point' =>
                obtain ⟨hw', hpoint'⟩ := htriple.ok rfl hstep
                exact ⟨hw', nextFits_stay hpoint'⟩
            | error e =>
                obtain ⟨hw', hraised⟩ := htriple.error rfl hstep
                exact ⟨hw', nextFits_stay hraised⟩
      cases point with
      | returned result => exact ⟨h.finish hevent hstage result.status, nextFits_stay trivial⟩
      | raised e =>
          cases e with
          | cancelled => exact ⟨h.from w, nextFits_none rfl⟩
          | stale =>
              refine ⟨h.finish hevent (fun hr => absurd rfl (hstage hr)) .stale, nextFits_stay trivial⟩
          | permanent code => exact ⟨h.fail _ _ _ _, nextFits_stay trivial⟩
          | failure code typeName => exact ⟨h.fail _ _ _ _, nextFits_stay trivial⟩
      | _ => exact hhandler _ hstage (happroved rec _ rfl)
  | finished rec =>
      rw [advance]
      cases ports.ack event with
      | ok u => exact ⟨h.from w, nextFits_none rfl⟩
      | error e => exact ⟨h.from w, nextFits_stay fun _ => fromPort_ne_stale e⟩
  | publishing dead =>
      have hsent := h.publishFailed hevent (ports.publish event) dead
      rw [advance]
      cases hpublish : publishFailed (ports.publish event) dead event w with
      | mk r w' =>
          rw [hpublish] at hsent
          cases r with
          | ok u => exact ⟨hsent, nextFits_stay trivial⟩
          | error e => exact ⟨hsent, nextFits_none rfl⟩
  | acking =>
      rw [advance]
      cases ports.lastAck event <;> exact ⟨h.from w, nextFits_none rfl⟩

/-- The broker keeps the message, or takes it back. -/
theorem SoundFrom.close (h : SoundFrom w w') (hevent : Belongs w event) (next : Next) :
    SoundFrom w (next.close event w') := by
  cases next with
  | stay stage => exact h
  | done => exact h.congr rfl rfl rfl rfl h.sound.queue rfl
  | back =>
      refine h.congr rfl rfl rfl rfl (fun m hm => ?_) rfl
      rcases List.mem_append.mp hm with hold | hnew
      · exact h.sound.queue m hold
      · rw [List.mem_singleton.mp hnew]
        exact h.grows.belongs event hevent

theorem close_frame (event : IndexJobMessage) (next : Next) (w : World γ) :
    Grows w (next.close event w) := by
  cases next <;> exact ⟨fun _ h => h, fun _ h => h⟩

end advance

/-! ## The system -/

/-- The condition on a step: what an upsert writes, it writes while its case is approved. -/
def StillApproved (p : Consumers γ) (move : ConsumerMove γ) : Prop :=
  ∀ i ports event rec point row, move = .advance i ports →
    p.deliveries[i]? = some ⟨event, some (.handling rec point)⟩ → writesCase point = true →
    p.world.getCase event.entityId = some row → row.reviewStatus = .approved

/-- The state is sound, and every delivery is where it can be. -/
structure Guarded (p : Consumers γ) : Prop where
  sound : Sound p.world
  belongs : ∀ d ∈ p.deliveries, Belongs p.world d.event
  fits : ∀ d ∈ p.deliveries, ∀ stage, d.stage = some stage → StageFits p.world d.event stage

section

variable {settings : CaseSettings} {p p' : Consumers γ} {move : ConsumerMove γ}

theorem Guarded.init (h : (consumers settings).init p) : Guarded p := by
  obtain ⟨hinit, hdeliveries⟩ := h
  have hbase := Base.init hinit
  obtain ⟨hcases, -, -, -, hqueue, -⟩ := hinit
  have hnone : ∀ k, ¬ Withdrawn p.world k := by
    rintro k ⟨row, hrow, -⟩
    rw [World.getCase, hcases] at hrow
    cases hrow
  refine ⟨⟨hbase.toTables, ?_, fun k hk => absurd hk (hnone k), fun k hk => absurd hk (hnone k)⟩, ?_, ?_⟩
  · rw [hqueue]
    exact fun m hm => absurd hm List.not_mem_nil
  · rw [hdeliveries]
    exact fun d hd => absurd hd List.not_mem_nil
  · rw [hdeliveries]
    exact fun d hd => absurd hd List.not_mem_nil

/-- Delivery `i` moves on. -/
theorem Guarded.moveOn (h : Guarded p) {i : Nat} {event : IndexJobMessage} {stage : Stage}
    (hd : p.deliveries[i]? = some ⟨event, some stage⟩) {next : Next} {w : World γ}
    (hw : SoundFrom p.world w) (hnext : NextFits w event next) : Guarded (p.moveOn i event next w) := by
  have hevent := h.belongs _ (List.mem_of_getElem? hd)
  have hclosed := hw.close hevent next
  have hmem : ∀ d ∈ (p.moveOn i event next w).deliveries, d = ⟨event, next.stage⟩ ∨ d ∈ p.deliveries := by
    intro d hd'
    rcases List.mem_or_eq_of_mem_set hd' with hold | hnew
    · exact Or.inr hold
    · exact Or.inl hnew
  refine ⟨hclosed.sound, fun d hd' => ?_, fun d hd' stage' hstage' => ?_⟩
  · rcases hmem d hd' with rfl | hold
    · exact hclosed.grows.belongs event hevent
    · exact hclosed.grows.belongs _ (h.belongs d hold)
  · rcases hmem d hd' with rfl | hold
    · exact (hnext stage' hstage').grows (close_frame event next w)
    · exact (h.fits d hold stage' hstage').grows hclosed.grows

/-- **The step lemma.** -/
theorem guarded_step (hmode : settings.indexExecutionMode = .rabbitmq) (h : Guarded p)
    (hok : StillApproved p move) (hstep : p.step settings move = some p') : Guarded p' := by
  cases move with
  | elsewhere label =>
      simp only [Consumers.step] at hstep
      split at hstep
      · cases hstep
      · next hlabel =>
          obtain ⟨w, hw, rfl⟩ := Option.map_eq_some_iff.mp hstep
          have hfrom := SoundFrom.elsewhere hmode h.sound (by simpa using hlabel) hw
          exact ⟨hfrom.sound, fun d hd => hfrom.grows.belongs _ (h.belongs d hd),
            fun d hd stage hstage => (h.fits d hd stage hstage).grows hfrom.grows⟩
  | deliver event =>
      simp only [Consumers.step] at hstep
      split at hstep
      · next hmem =>
          cases hstep
          have hevent : Belongs p.world event := by
            rcases hmem with hqueue | hagain
            · exact h.sound.queue event hqueue
            · obtain ⟨d, hd, rfl⟩ := List.mem_map.mp hagain
              exact h.belongs d hd
          have hfrom : SoundFrom p.world (receive event p.world) :=
            (h.sound.from _).congr rfl rfl rfl rfl
              (fun m hm => h.sound.queue m (List.mem_of_mem_erase hm)) rfl
          refine ⟨hfrom.sound, fun d hd => ?_, fun d hd stage hstage => ?_⟩
          · rcases List.mem_append.mp hd with hold | hnew
            · exact hfrom.grows.belongs _ (h.belongs d hold)
            · rw [List.mem_singleton.mp hnew]
              exact hfrom.grows.belongs _ hevent
          · rcases List.mem_append.mp hd with hold | hnew
            · exact (h.fits d hold stage hstage).grows hfrom.grows
            · rw [List.mem_singleton.mp hnew] at hstage ⊢
              cases hstage
              trivial
      · cases hstep
  | advance i ports =>
      simp only [Consumers.step] at hstep
      split at hstep
      · next event stage hd =>
          cases hstep
          have hmem := List.mem_of_getElem? hd
          obtain ⟨hw, hnext⟩ := sound_advance ports h.sound (h.belongs _ hmem)
            (h.fits _ hmem stage rfl) (by
              rintro rec point rfl hwrites row hrow
              exact hok i ports event rec point row rfl hd hwrites hrow)
          exact h.moveOn hd hw hnext
      · cases hstep
  | die i =>
      simp only [Consumers.step] at hstep
      split at hstep
      · next event stage hd =>
          cases hstep
          exact h.moveOn hd (h.sound.from _) (nextFits_none rfl)
      · cases hstep

theorem guarded_of_reachable (hmode : settings.indexExecutionMode = .rabbitmq)
    (h : (consumers settings).ReachableVia StillApproved p) : Guarded p :=
  h.invariant (fun _ => Guarded.init) fun _ _ _ hp hok hstep => guarded_step hmode hp hok hstep

/-- No message waits, and no delivery is under way. -/
structure Quiescent (p : Consumers γ) : Prop where
  queue : p.world.queue = []
  outbox : ∀ row ∈ p.world.outbox, row.publishStatus ≠ .pending
  deliveries : ∀ d ∈ p.deliveries, d.stage = none

/-- A job that nothing is left to do for is done. -/
theorem Quiescent.terminal (h : Quiescent p) (hreached : (consumers settings).Reachable p)
    {job : IndexJobModel} (hjob : p.world.getJob job.jobId = some job) :
    job.status.terminal = true := by
  by_contra hopen
  rcases (tracked_of_reachable hreached).covered.message job.jobId job hjob (by simpa using hopen) with
    (⟨row, hrow, -, hpending⟩ | ⟨m, hm, -⟩) | ⟨d, hd, hcarries, -⟩
  · exact h.outbox row hrow hpending
  · rw [h.queue] at hm
    cases hm
  · rw [Delivery.carries, h.deliveries d hd] at hcarries
    cases hcarries

/-- **A withdrawn case stays out of the index**, in every run in which what an upsert writes meets its
case approved. It is not active, and there are no tombstone jobs of it that are finished while its
vector is in the store. Once no message is left, a tombstone job of such a case has `FAILED`. -/
theorem withdrawn_stays_out (hmode : settings.indexExecutionMode = .rabbitmq)
    (h : (consumers settings).ReachableVia StillApproved p) {k : String} {row : DiagnosisCaseModel}
    (hrow : p.world.getCase k = some row) (hwithdrawn : row.reviewStatus.withdrawn = true) :
    row.isActive = false ∧ (∃ job ∈ p.world.jobs, Withdraws k job) ∧
      (hasVector p.world k = true → ∀ job ∈ p.world.jobs, Withdraws k job →
        job.status.finished = false ∧ (Quiescent p → job.status = .failed)) := by
  obtain ⟨hsound, -, -⟩ := guarded_of_reachable hmode h
  have hk : Withdrawn p.world k := ⟨row, hrow, hwithdrawn⟩
  refine ⟨?_, hsound.asked k hk, fun hvector job hjob hof => ?_⟩
  · by_contra hactive
    have happroved := hsound.tables.active hrow (by simpa using hactive)
    rw [happroved] at hwithdrawn
    cases hwithdrawn
  · have hopen := hsound.removed k hk hvector job hjob hof
    refine ⟨hopen, fun hquiet => ?_⟩
    have hterminal := hquiet.terminal (h.mono fun _ _ _ => trivial)
      (Table.get_of_mem hsound.tables.jobIds hjob)
    rw [IndexJobStatus.terminal, hopen, Bool.false_or] at hterminal
    exact eq_of_beq hterminal

end

/-! ## A tombstone that fails -/

/-- `StillApproved`, computed. -/
def checkStillApproved (p : Consumers Unit) : ConsumerMove Unit → Bool
  | .advance i _ =>
      match p.deliveries[i]? with
      | some ⟨event, some (.handling _ point)⟩ =>
          !writesCase point || (p.world.getCase event.entityId).all (·.reviewStatus = .approved)
      | _ => true
  | _ => true

theorem stillApproved_of_check (p : Consumers Unit) (move : ConsumerMove Unit)
    (h : checkStillApproved p move = true) : StillApproved p move := by
  rintro i ports event rec point row rfl hd hwrites hrow
  simp only [checkStillApproved, hd, hwrites, hrow] at h
  simpa using h

/-- `Quiescent`, computed. -/
def isQuiescent (p : Consumers Unit) : Bool :=
  p.world.queue.isEmpty && p.world.outbox.all (·.publishStatus ≠ .pending) &&
    p.deliveries.all (·.stage.isNone)

theorem quiescent_of_check {p : Consumers Unit} (h : isQuiescent p = true) : Quiescent p := by
  simp only [isQuiescent, Bool.and_eq_true, List.isEmpty_iff, List.all_eq_true,
    Option.isNone_iff_eq_none] at h
  exact ⟨h.1.1, fun row hrow => by simpa using h.1.2 row hrow, h.2⟩

/-- The vector store refuses to delete. -/
def undeletable : ConsumerPorts Unit :=
  { answeringPorts with
    handlers := { quietPorts with vectorDelete := fun _ => .raised embeddingDown } }

def disableMove : ConsumerMove Unit :=
  .elsewhere (.api (reviewer jobTwo true) (.disable "case-1" outdated))

def tombstoneMessage : IndexJobMessage := caseMessage "job-2" "case-1" "1" .tombstone

/-- Delivery `i` of the tombstone fails. -/
def failedAttempt (i : Nat) : List (ConsumerMove Unit) :=
  .deliver tombstoneMessage :: advances i 6 undeletable

/-- `case-1` is indexed, then disabled, and its tombstone fails three times. -/
def failedTombstone : List (ConsumerMove Unit) :=
  sentMoves ++ .deliver sentMessage :: advances 0 9 answeringPorts ++
    disableMove :: .elsewhere (.publish 2 .published) :: failedAttempt 1 ++ failedAttempt 2 ++
    failedAttempt 3

/-- The vector of a disabled case is left behind, and its tombstone job has `FAILED`. -/
theorem failed_tombstone_leaves_vector : ∃ (p : Consumers Unit) (row : DiagnosisCaseModel),
    p.world.getCase "case-1" = some row ∧ row.reviewStatus.withdrawn = true ∧ Quiescent p ∧
      hasVector p.world "case-1" = true ∧ row.isActive = false ∧
      ∃ job ∈ p.world.jobs, Withdraws "case-1" job ∧ job.status = .failed := by
  have hrun : (sampleConsumers.runChecked checkStillApproved noConsumers failedTombstone).any
      (fun p => isQuiescent p && hasVector p.world "case-1" &&
        (p.world.getCase "case-1").any (·.reviewStatus.withdrawn)) = true := by decide +kernel
  obtain ⟨p, hp, hlast⟩ := (Option.any_eq_true _ _).mp hrun
  obtain ⟨hfirst, hrow⟩ := Bool.and_eq_true_iff.mp hlast
  obtain ⟨hquiet, hvector⟩ := Bool.and_eq_true_iff.mp hfirst
  obtain ⟨row, hrow, hwithdrawn⟩ := (Option.any_eq_true _ _).mp hrow
  have hreached : sampleConsumers.ReachableVia StillApproved p :=
    .of_runChecked stillApproved_of_check (.init sampleConsumers_init) hp
  obtain ⟨hactive, ⟨job, hjob, hof⟩, hjobs⟩ := withdrawn_stays_out rfl hreached hrow hwithdrawn
  have hquiet := quiescent_of_check hquiet
  exact ⟨p, row, hrow, hwithdrawn, hquiet, hvector, hactive, job, hjob, hof,
    (hjobs hvector job hjob hof).2 hquiet⟩

/-- Without the condition: the case is disabled between the vector write and `is_active = true`. -/
example : (sampleConsumers.run noConsumers (sentMoves ++ .deliver sentMessage ::
    advances 0 5 answeringPorts ++ disableMove :: advances 0 4 answeringPorts)).any (fun p =>
      (p.world.getCase "case-1").any fun row => row.reviewStatus.withdrawn && row.isActive) = true := by
  decide +kernel

end EnergyAgent.Cases
