import EnergyAgent.Cases.ServiceRules

/-!
# Cases that still owe an index run

A case can be in a state that only an index job can lead out of: it is queued, or it is active
beside the case it replaces. `Owing owes` says that every such case has a job that is not done and
that is the one its review status calls for. Which states those are is the parameter `owes`;
`Obligation` lists what the proofs ask of it, so that one invariant proof serves every notion.

`Safe` adds the invariant of all states and, if asked for, the readability of all rows.
-/

namespace EnergyAgent.Cases

open EnergyAgent.Lib EnergyAgent.Persistence EnergyAgent.Indexing

variable {γ : Type}

/-! ## Definitions -/

/-- The job is not done and does what the review status of the row calls for. -/
def Serves (job : IndexJobModel) (row : DiagnosisCaseModel) : Prop :=
  job.entityType = .diagnosisCase ∧ job.entityId = row.caseId ∧
    calledFor job.operation row.reviewStatus = true ∧ job.status.terminal = false

/-- Every case that owes an index run has a job for it. -/
def Owing (owes : World γ → DiagnosisCaseModel → Prop) (w : World γ) : Prop :=
  ∀ k row, w.getCase k = some row → owes w row → ∃ job ∈ w.jobs, Serves job row

/-- The original of the row is decided, as that of every stored row is. -/
def OriginalDecided (w : World γ) (row : DiagnosisCaseModel) : Prop :=
  ∀ {o}, row.supersedesCaseId = some o →
    ∃ orow, w.getCase o = some orow ∧ decided orow.reviewStatus = true

/-- The original of the row, if there is one, is not approved. -/
def OriginalRetired (w : World γ) (row : DiagnosisCaseModel) : Prop :=
  ∀ {o orow}, row.supersededId = some o → w.getCase o = some orow →
    orow.reviewStatus ≠ .approved

/-- What makes `owes` an obligation: no write creates one behind the back of the row. `H` says whether
it matters that the original is retired. -/
structure Obligation (H : Prop) (owes : World γ → DiagnosisCaseModel → Prop) : Prop where
  congr : ∀ {w w' row}, w'.cases = w.cases → owes w' row → owes w row
  rewrite : ∀ {w k f events row₀ row}, (∀ r, (f r).caseId = r.caseId) → w.getCase k = some row₀ →
    Evolves row₀ (f row₀) → OriginalDecided w row → owes (rewriteCase k f events w) row → owes w row
  insert : ∀ {w new row}, NewDraft w new →
    owes { w with cases := w.cases ++ [new] } row → owes w row
  quiet : ∀ {w row row'}, RowFacts row → Evolves row row' → Quiet True row row' → owes w row' →
    owes w row ∧ (row'.reviewStatus = row.reviewStatus ∨ decided row.reviewStatus = false)
  idle : ∀ {w row}, row.isActive = false → row.indexStatus ≠ .queued → ¬ owes w row
  settled : ∀ {w row}, row.indexStatus ≠ .queued → (H → OriginalRetired w row) → ¬ owes w row

theorem calledFor_decided {operation : IndexOperation} {status : CaseStatus}
    (h : decided status = false) : calledFor operation status = false := by
  revert h
  cases operation <;> cases status <;> decide

theorem calledFor_jobStatus {operation : IndexOperation} {status : CaseStatus}
    (h : calledFor operation status = true) : jobStatus operation status = true := by
  revert h
  cases operation <;> cases status <;> decide

/-- Every job that is not done is still there, in whatever status but done. -/
def JobsStay (w w' : World γ) : Prop :=
  ∀ job ∈ w.jobs, job.status.terminal = false →
    ∃ job' ∈ w'.jobs, SameJob job job' ∧ job'.status.terminal = false

theorem JobsStay.of_mem {w w' : World γ} (h : ∀ job ∈ w.jobs, job ∈ w'.jobs) : JobsStay w w' :=
  fun job hjob hnot => ⟨job, h job hjob, ⟨rfl, rfl, rfl, rfl, rfl⟩, hnot⟩

theorem JobsStay.updateJob {w : World γ} {jobId : String} {g : IndexJobModel → IndexJobModel}
    (hg : ∀ job, SameJob job (g job))
    (hnot : ∀ job, job.status.terminal = false → (g job).status.terminal = false) :
    JobsStay w (w.updateJob jobId g) := by
  intro job hjob hlive
  refine ⟨if job.jobId = jobId then g job else job, List.mem_map_of_mem hjob, ?_⟩
  split
  · exact ⟨hg job, hnot job hlive⟩
  · exact ⟨⟨rfl, rfl, rfl, rfl, rfl⟩, hlive⟩

/-! ## Writes to the case table -/

/-- The job a request ends up with: a new one, or the one it finds. -/
theorem addJob_serves {w w' : World γ} {request : IndexJobCreate} {jobId : String}
    {rec : IndexJobRecord} {row : DiagnosisCaseModel} (hqueues : Queues request row)
    (hnot : NotDone w request) (hadd : addJob request jobId w = .ok (rec, w')) :
    ∃ job ∈ w'.jobs, Serves job row := by
  rcases addJob_cases hadd with ⟨hexisting, rfl⟩ | ⟨_, _, _, rfl⟩
  · obtain ⟨hmem, hrequested⟩ := existingJob_eq_some hexisting
    obtain ⟨htype, hid, _, hop⟩ := requestedBy_iff.mp hrequested
    refine ⟨_, hmem, htype.trans hqueues.fits.entityType, hid.trans hqueues.fits.entityId, ?_,
      hnot _ hexisting⟩
    rw [hop]
    exact hqueues.called
  · exact ⟨_, List.mem_append_right _ (List.mem_singleton_self _), hqueues.fits.entityType,
      hqueues.fits.entityId, hqueues.called, rfl⟩

theorem mem_addJob {w w' : World γ} {request : IndexJobCreate} {jobId : String}
    {rec : IndexJobRecord} (hadd : addJob request jobId w = .ok (rec, w')) :
    ∀ job ∈ w.jobs, job ∈ w'.jobs := by
  intro job hjob
  rcases addJob_cases hadd with ⟨_, rfl⟩ | ⟨_, _, _, rfl⟩
  · exact hjob
  · exact List.mem_append_left _ hjob

section

variable {H : Prop} {owes : World γ → DiagnosisCaseModel → Prop} (ho : Obligation H owes)
include ho

/-- The case table is the same, and no job that was to be done is lost. -/
theorem Owing.congr {w w' : World γ} (h : Owing owes w) (hcases : w'.cases = w.cases)
    (hjobs : JobsStay w w') : Owing owes w' := by
  intro k row hrow howes
  rw [World.getCase_congr hcases] at hrow
  obtain ⟨job, hjob, htype, hid, hcalled, hnot⟩ := h _ _ hrow (ho.congr hcases howes)
  obtain ⟨job', hjob', ⟨_, htype', hid', _, hop'⟩, hnot'⟩ := hjobs job hjob hnot
  exact ⟨job', hjob', htype'.trans htype, hid'.trans hid, by rw [hop']; exact hcalled, hnot'⟩

/-- One row is rewritten, and jobs may be added: only that row can owe anything new. -/
theorem Owing.of_rewrite {w w' : World γ} (hb : Base w) (h : Owing owes w) {k : String}
    {f : DiagnosisCaseModel → DiagnosisCaseModel} {events : List CaseReviewEventModel}
    (hkey : ∀ r, (f r).caseId = r.caseId) {row₀ : DiagnosisCaseModel}
    (hrow₀ : w.getCase k = some row₀) (hevolves : Evolves row₀ (f row₀))
    (hcases : w'.cases = (rewriteCase k f events w).cases) (hjobs : ∀ job ∈ w.jobs, job ∈ w'.jobs)
    (hself : owes w (f row₀) → ∃ job ∈ w'.jobs, Serves job (f row₀)) : Owing owes w' := by
  intro k' row' hrow' howes
  rw [World.getCase_congr hcases] at hrow'
  have howes' := ho.congr hcases howes
  obtain ⟨row, hrow, ⟨rfl, rfl⟩ | ⟨_, rfl⟩⟩ := getCase_rewriteCase hkey hrow'
  · obtain rfl : row₀ = row := Option.some.inj (hrow₀.symm.trans hrow)
    refine hself (ho.rewrite hkey hrow₀ hevolves (fun hsome => ?_) howes')
    exact hb.original hrow (hevolves.supersedesCaseId.symm.trans hsome)
  · obtain ⟨job, hjob, hserves⟩ :=
      h _ _ hrow (ho.rewrite hkey hrow₀ hevolves (fun hsome => hb.original hrow hsome) howes')
    exact ⟨job, hjobs job hjob, hserves⟩

/-- A write that neither activates nor queues the row. -/
theorem Owing.rewrite {w : World γ} (hb : Base w) (h : Owing owes w) {k : String}
    {f : DiagnosisCaseModel → DiagnosisCaseModel} {events : List CaseReviewEventModel}
    (hkey : ∀ r, (f r).caseId = r.caseId) {row : DiagnosisCaseModel} (hrow : w.getCase k = some row)
    (hevolves : Evolves row (f row)) (hquiet : Quiet True row (f row)) :
    Owing owes (rewriteCase k f events w) := by
  refine h.of_rewrite ho hb hkey hrow hevolves rfl (fun _ hjob => hjob) (fun howes => ?_)
  obtain ⟨howes', hstatus⟩ := ho.quiet (hb.rowFacts hrow) hevolves hquiet howes
  obtain ⟨job, hjob, htype, hid, hcalled, hnot⟩ := h _ _ hrow howes'
  refine ⟨job, hjob, htype, by rw [hevolves.caseId]; exact hid, ?_, hnot⟩
  rcases hstatus with hsame | hundecided
  · rw [hsame]
    exact hcalled
  · rw [calledFor_decided hundecided] at hcalled
    cases hcalled

theorem Owing.insert {w : World γ} (h : Owing owes w) {row : DiagnosisCaseModel}
    (hnew : NewDraft w row) : Owing owes { w with cases := w.cases ++ [row] } := by
  intro k row' hrow' howes
  rcases Table.get_append_eq_some hrow' with hold | ⟨_, _, rfl⟩
  · exact h _ _ hold (ho.insert hnew howes)
  · refine absurd howes (ho.idle hnew.inactive ?_)
    rw [hnew.pending]
    simp

/-- A row is queued, and its request finds no job that is done. -/
theorem Owing.queue {w w' : World γ} (hb : Base w) (h : Owing owes w) {k : String}
    {f : DiagnosisCaseModel → DiagnosisCaseModel} {events : List CaseReviewEventModel}
    (hkey : ∀ r, (f r).caseId = r.caseId) {row : DiagnosisCaseModel} (hrow : w.getCase k = some row)
    (hevolves : Evolves row (f row)) {request : IndexJobCreate} (hqueues : Queues request (f row))
    {jobId : String} {rec : IndexJobRecord}
    (hnot : owes w (f row) → NotDone w request)
    (hadd : addJob request jobId (rewriteCase k f events w) = .ok (rec, w')) : Owing owes w' := by
  have hcases : w'.cases = (rewriteCase k f events w).cases := addJob_caseTable hadd
  refine h.of_rewrite ho hb hkey hrow hevolves hcases (mem_addJob (w := rewriteCase k f events w) hadd) (fun howes => ?_)
  exact addJob_serves (w := rewriteCase k f events w) hqueues (hnot howes) hadd

/-! ## Writes to the job table -/

/-- A job moves on; if it is done with that, its case must not owe anything it was for. -/
theorem Owing.updateJob {w : World γ} (h : Owing owes w) {jobId : String}
    {g : IndexJobModel → IndexJobModel} (hg : ∀ job, SameJob job (g job))
    (hdone : ∀ job ∈ w.jobs, job.jobId = jobId → (g job).status.terminal = true →
      job.entityType = .diagnosisCase → ∀ row, w.getCase job.entityId = some row →
      calledFor job.operation row.reviewStatus = true → ¬ owes w row) :
    Owing owes (w.updateJob jobId g) := by
  intro k row hrow howes
  have howes' : owes w row := ho.congr (show (w.updateJob jobId g).cases = w.cases from rfl) howes
  obtain ⟨job, hjob, htype, hid, hcalled, hnot⟩ := h _ _ hrow howes'
  by_cases hother : job.jobId = jobId
  · obtain ⟨_, htype', hid', _, hop'⟩ := hg job
    refine ⟨g job, List.mem_map.mpr ⟨job, hjob, if_pos hother⟩, htype'.trans htype,
      hid'.trans hid, by rw [hop']; exact hcalled, ?_⟩
    cases hterminal : (g job).status.terminal with
    | false => rfl
    | true =>
        have hrow' : w.getCase job.entityId = some row := by
          rw [hid, getCase_caseId hrow]
          exact hrow
        exact absurd howes' (hdone job hjob hother hterminal htype row hrow' hcalled)
  · exact ⟨job, List.mem_map.mpr ⟨job, hjob, if_neg hother⟩, htype, hid, hcalled, hnot⟩

end

/-! ## The invariant of a system -/

/-- Every stored row can be read. -/
def AllReadable (w : World γ) : Prop := ∀ k row, w.getCase k = some row → Readable row

/-- The invariant of every system below: the base, the obligations and, with `R`, readable rows. -/
structure Safe (R : Prop) (owes : World γ → DiagnosisCaseModel → Prop) (w : World γ) : Prop where
  base : Base w
  owing : Owing owes w
  readable : R → AllReadable w

theorem AllReadable.rewrite {w : World γ} (h : AllReadable w) {k : String}
    {f : DiagnosisCaseModel → DiagnosisCaseModel} {events : List CaseReviewEventModel}
    (hkey : ∀ r, (f r).caseId = r.caseId) {row : DiagnosisCaseModel} (hrow : w.getCase k = some row)
    (hread : Readable row → Readable (f row)) : AllReadable (rewriteCase k f events w) := by
  intro k' row' hrow'
  obtain ⟨row₁, hrow₁, ⟨rfl, rfl⟩ | ⟨_, rfl⟩⟩ := getCase_rewriteCase hkey hrow'
  · obtain rfl : row = row₁ := Option.some.inj (hrow.symm.trans hrow₁)
    exact hread (h _ _ hrow)
  · exact h _ _ hrow₁

theorem AllReadable.congr {w w' : World γ} (h : AllReadable w) (hcases : w'.cases = w.cases) :
    AllReadable w' := by
  intro k row hrow
  rw [World.getCase_congr hcases] at hrow
  exact h k row hrow

theorem Tables.queue {w w' : World γ} (h : Tables w) {k : String}
    {f : DiagnosisCaseModel → DiagnosisCaseModel} {events : List CaseReviewEventModel}
    (hkey : ∀ r, (f r).caseId = r.caseId) {row : DiagnosisCaseModel} (hrow : w.getCase k = some row)
    (hevolves : Evolves row (f row)) {request : IndexJobCreate} (hqueues : Queues request (f row))
    (hfit : EventsFit events k (f row)) {jobId : String} {rec : IndexJobRecord}
    (hadd : Indexing.addJob request jobId (Cases.rewriteCase k f events w) = .ok (rec, w')) :
    Tables w' := by
  refine (h.rewriteCase hkey hrow hevolves hfit).addJob (fun _ => ⟨f row, ?_, ?_, ?_⟩) hadd
  · rw [hqueues.fits.entityId, hevolves.caseId, getCase_caseId hrow]
    exact getCase_rewriteCase_self hkey hrow
  · exact hqueues.fits.entityVersion.symm
  · exact hqueues.fits.status

/-- Base facts about a queued row. -/
theorem Base.queue {w w' : World γ} (h : Base w) {k : String}
    {f : DiagnosisCaseModel → DiagnosisCaseModel} {events : List CaseReviewEventModel}
    (hkey : ∀ r, (f r).caseId = r.caseId) {row : DiagnosisCaseModel} (hrow : w.getCase k = some row)
    (hevolves : Evolves row (f row)) {request : IndexJobCreate} (hqueues : Queues request (f row))
    (hfit : EventsFit events k (f row)) {jobId : String} {rec : IndexJobRecord}
    (hadd : Indexing.addJob request jobId (Cases.rewriteCase k f events w) = .ok (rec, w')) :
    Base w' := by
  refine (h.rewriteCase hkey hrow hevolves hfit).addJob (fun _ => ⟨f row, ?_, ?_, ?_⟩) hadd
  · rw [hqueues.fits.entityId, hevolves.caseId, getCase_caseId hrow]
    exact getCase_rewriteCase_self hkey hrow
  · exact hqueues.fits.entityVersion.symm
  · exact hqueues.fits.status

section

variable {R N H : Prop} {owes : World γ → DiagnosisCaseModel → Prop} (ho : Obligation H owes)
include ho

theorem Safe.queue {w w' : World γ} (h : Safe R owes w) {k : String}
    {f : DiagnosisCaseModel → DiagnosisCaseModel} {events : List CaseReviewEventModel}
    (hkey : ∀ r, (f r).caseId = r.caseId) {row : DiagnosisCaseModel} (hrow : w.getCase k = some row)
    (hevolves : Evolves row (f row)) {request : IndexJobCreate} (hqueues : Queues request (f row))
    (hfit : EventsFit events k (f row)) (hread : R → Readable row → Readable (f row)) {jobId : String}
    {rec : IndexJobRecord} (hnot : owes w (f row) → NotDone w request)
    (hadd : addJob request jobId (rewriteCase k f events w) = .ok (rec, w')) : Safe R owes w' where
  base := h.base.queue hkey hrow hevolves hqueues hfit hadd
  owing := h.owing.queue ho h.base hkey hrow hevolves hqueues hnot hadd
  readable hR := ((h.readable hR).rewrite hkey hrow (hread hR)).congr (addJob_caseTable hadd)

theorem Safe.congr {w w' : World γ} (h : Safe R owes w) (hb : Base w') (hcases : w'.cases = w.cases)
    (hjobs : JobsStay w w') : Safe R owes w' where
  base := hb
  owing := h.owing.congr ho hcases hjobs
  readable hR := (h.readable hR).congr hcases

theorem Safe.core {w w' : World γ} (h : Safe R owes w) (hc : SameCore w w') : Safe R owes w' :=
  h.congr ho (h.base.core hc) hc.cases (.of_mem fun _ hjob => hc.jobs ▸ hjob)

/-- **The case service keeps the invariant**, for a reindex under the condition `N` unless queued rows
owe nothing. -/
theorem caseInvariant_safe (hN : N ∨ ∀ (w : World γ) row, row.indexStatus = .queued →
    row.isActive = false → ¬ owes w row) : CaseInvariant R N True (Safe R owes) where
  base h := h.base.toTables
  core _ _ _ h hc := h.core ho hc
  event h hplain := h.congr ho (h.base.event hplain) rfl (.of_mem fun _ hjob => hjob)
  insert {w row} h hnew hread :=
    { base := h.base.insert hnew
      owing := h.owing.insert ho hnew
      readable := by
        intro hR k row' hrow'
        rcases Table.get_append_eq_some hrow' with hold | ⟨_, _, rfl⟩
        · exact h.readable hR k row' hold
        · exact hread hR }
  rewrite h hkey hrow hevolves hquiet hfit hread :=
    { base := h.base.rewriteCase hkey hrow hevolves hfit
      owing := h.owing.rewrite ho h.base hkey hrow hevolves hquiet
      readable := fun hR => (h.readable hR).rewrite hkey hrow (hread hR) }
  queue h hkey hrow hevolves hqueues hfit hread hnot hadd := by
    refine h.queue ho hkey hrow hevolves hqueues hfit hread (fun howes => ?_) hadd
    rcases hN with hN | hidle
    · exact hnot hN
    · exact absurd howes (hidle _ _ hqueues.queued hqueues.inactive)

/-- A case is activated that does not owe anything for it. -/
theorem Safe.activate {w : World γ} (h : Safe R owes w) {k : String} {row : DiagnosisCaseModel}
    (hrow : w.getCase k = some row) (happroved : row.reviewStatus = .approved) {text : String}
    (howes : ¬ owes w (setIndexRow .indexed none (some text) true row)) :
    Safe R owes (rewriteCase k (setIndexRow .indexed none (some text) true) [] w) := by
  have hkey := setIndexRow_caseId .indexed none (some text) true
  have hevolves : Evolves row (setIndexRow .indexed none (some text) true row) :=
    evolves_setIndexRow (h.base.rowFacts hrow) (fun _ => happroved)
  exact ⟨h.base.rewriteCase hkey hrow hevolves (eventsFit_nil _ _),
    h.owing.of_rewrite ho h.base hkey hrow hevolves rfl (fun _ hjob => hjob)
      (fun hw => absurd hw howes),
    fun hR => (h.readable hR).rewrite hkey hrow (fun hread => hread)⟩

/-! ## Jobs and messages -/

theorem Safe.updateJob {w : World γ} (h : Safe R owes w) {jobId : String}
    {g : IndexJobModel → IndexJobModel} (hb : Base (w.updateJob jobId g))
    (hg : ∀ job, SameJob job (g job))
    (hdone : ∀ job ∈ w.jobs, job.jobId = jobId → (g job).status.terminal = true →
      job.entityType = .diagnosisCase → ∀ row, w.getCase job.entityId = some row →
      calledFor job.operation row.reviewStatus = true → ¬ owes w row) :
    Safe R owes (w.updateJob jobId g) where
  base := hb
  owing := h.owing.updateJob ho hg hdone
  readable hR := (h.readable hR).congr rfl

/-- Only messages have moved. -/
theorem Safe.messages {w w' : World γ} (h : Safe R owes w) (hb : Base w')
    (hcases : w'.cases = w.cases) (hjobs : w'.jobs = w.jobs) : Safe R owes w' :=
  h.congr ho hb hcases (.of_mem fun _ hjob => hjobs ▸ hjob)

theorem Safe.publishRow {w : World γ} (h : Safe R owes w) {row : IndexOutboxModel}
    (hrow : row ∈ w.outbox) (outcome : PublishOutcome) :
    Safe R owes (publishRow row outcome w) := by
  have hb := h.base.publishRow hrow outcome
  cases outcome with
  | published =>
      refine h.congr ho hb rfl (JobsStay.updateJob (w := w) sameJob_queuedJob (fun job hnot => ?_))
      unfold queuedJob
      split
      · rfl
      · exact hnot
  | failed => exact h.messages ho hb rfl rfl
  | unmarked => exact h.messages ho hb rfl rfl

theorem Safe.retry {w : World γ} (h : Safe R owes w) (jobId traceId : String) :
    Safe R owes (retry jobId traceId w) := by
  have hb := h.base.retry jobId traceId
  unfold Indexing.retry at hb ⊢
  cases hjob : w.getJob jobId with
  | none => exact h
  | some job =>
      simp only [hjob] at hb ⊢
      split at hb
      · next hfailed =>
          rw [if_pos hfailed]
          exact h.congr ho hb rfl
            (JobsStay.updateJob (w := w) (fun _ => ⟨rfl, rfl, rfl, rfl, rfl⟩) (fun _ _ => rfl))
      · next hfailed =>
          rw [if_neg hfailed]
          exact h

/-- A job for an entity that is not a case. -/
theorem Safe.requestIndex {w w' : World γ} (h : Safe R owes w) {request : IndexJobCreate}
    {jobId : String} {rec : IndexJobRecord} (hother : request.entityType ≠ .diagnosisCase)
    (hadd : addJob request jobId w = .ok (rec, w')) : Safe R owes w' :=
  h.congr ho (h.base.addJob (fun htype => absurd htype hother) hadd) (addJob_caseTable hadd)
    (.of_mem (mem_addJob hadd))

end

end EnergyAgent.Cases
