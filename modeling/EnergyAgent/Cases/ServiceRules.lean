import EnergyAgent.Cases.Invariants

/-!
# Invariant rules for the case service

`CaseInvariant` lists the writes a request can make, each with what is known of the row when it is
made; an invariant kept by these writes is kept by every request, whether it is accepted or refused.
Two writes are left to the caller of the rules: activating a case (only `_index` does it, in sync
mode) and queueing one whose job may be finished already (only `reindex` does).

The parameter `R` switches the readability of rows on: with `R := True` the payloads must not put
`null` into a JSON column, and in exchange the rules hand out that rows stay readable. The parameter
`N` does the same for reindex requests: with `N := True` they must not find a job that is done. The
parameter `S` allows what happens in sync mode only, when the service indexes by itself: it writes to
the vector store, and it withdraws cases without an index job.
-/

namespace EnergyAgent.Cases

open EnergyAgent.Lib EnergyAgent.Persistence EnergyAgent.Indexing

variable {γ : Type}

/-! ## The writes -/

/-- The write neither activates nor queues the case, and withdraws it only if `S` allows it. -/
structure Quiet (S : Prop) (row row' : DiagnosisCaseModel) : Prop where
  active : row'.isActive = true → row.isActive = true
  queued : row'.indexStatus = .queued → row.indexStatus = .queued ∧
    (row'.reviewStatus = row.reviewStatus ∨ decided row.reviewStatus = false)
  withdrawn : row'.reviewStatus.withdrawn = true → row.reviewStatus.withdrawn = true ∨ S

/-- The operation that the review status of a queued case calls for. -/
def calledFor (operation : IndexOperation) (status : CaseStatus) : Bool :=
  match operation with
  | .tombstone => status.withdrawn
  | .upsert | .reindex => status = .approved
  | .graphProject => false

/-- The row is queued for the request. -/
structure Queues (request : IndexJobCreate) (row' : DiagnosisCaseModel) : Prop where
  fits : RequestFits request row'
  called : calledFor request.operation row'.reviewStatus = true
  queued : row'.indexStatus = .queued
  inactive : row'.isActive = false

/-- No equal request has a job that is finished or failed already. -/
def NotDone (w : World γ) (request : IndexJobCreate) : Prop :=
  ∀ job, existingJob w request = some job → job.status.terminal = false

/-- An invariant that the writes of the case service keep. -/
structure CaseInvariant (R N S : Prop) (I : World γ → Prop) : Prop where
  base : ∀ {w}, I w → Tables w
  core : S → ∀ {w w'}, I w → SameCore w w' → I w'
  event : ∀ {w event}, I w → (∀ c, event.requestHash ≠ .supersede c) →
    I { w with caseEvents := w.caseEvents ++ [event] }
  insert : ∀ {w row}, I w → NewDraft w row → (R → Readable row) →
    I { w with cases := w.cases ++ [row] }
  rewrite : ∀ {w k f events row}, I w → (∀ r, (f r).caseId = r.caseId) → w.getCase k = some row →
    Evolves row (f row) → Quiet S row (f row) → EventsFit events k (f row) →
    (R → Readable row → Readable (f row)) → I (rewriteCase k f events w)
  queue : ∀ {w k f events row request jobId rec w'}, I w → (∀ r, (f r).caseId = r.caseId) →
    w.getCase k = some row → Evolves row (f row) → Queues request (f row) →
    EventsFit events k (f row) → (R → Readable row → Readable (f row)) → (N → NotDone w request) →
    addJob request jobId (rewriteCase k f events w) = .ok (rec, w') → I w'

/-- A request whose operation the case has not been ready for finds no job at all. -/
theorem notDone_of_status {w : World γ} (h : Tables w) {request : IndexJobCreate}
    {row : DiagnosisCaseModel} (htype : request.entityType = .diagnosisCase)
    (hrow : w.getCase request.entityId = some row)
    (hstatus : jobStatus request.operation row.reviewStatus = false) : NotDone w request := by
  intro job hjob
  obtain ⟨hmem, hrequested⟩ := existingJob_eq_some hjob
  obtain ⟨htype', hid, _, hop⟩ := requestedBy_iff.mp hrequested
  obtain ⟨row', hrow', _, hstatus'⟩ := h.caseJob job hmem (htype'.trans htype)
  rw [hid, hrow] at hrow'
  cases hrow'
  rw [hop, hstatus] at hstatus'
  cases hstatus'

/-! ## Reading -/

theorem triple_fetch {P : World γ → Prop} (caseId : String) :
    Prog.Triple P (fetch caseId) (fun case w => P w ∧ w.getCase caseId = some case.row)
      (fun _ => P) := by
  intro w hw
  unfold fetch get
  rw [Prog.bind_apply, Prog.bind_read]
  cases hrow : w.getCase caseId with
  | none => exact hw
  | some row =>
      simp only [Prog.bind_apply, Prog.lift_apply]
      cases hrecord : caseRecord row with
      | error e => exact hw
      | ok case =>
          refine ⟨hw, ?_⟩
          rw [hrow, (caseRecord_eq_ok hrecord).1]

theorem fetch_cases {caseId : String} {w w' : World γ} {r : Except CaseError DiagnosisCase}
    (h : fetch caseId w = (r, w')) :
    w' = w ∧ ((∃ e, r = .error e) ∨ ∃ case, r = .ok case ∧ w.getCase caseId = some case.row) := by
  have htriple := triple_fetch (P := fun s => s = w) caseId w rfl
  rw [h] at htriple
  cases r with
  | error e => exact ⟨htriple, Or.inl ⟨e, rfl⟩⟩
  | ok case =>
      obtain ⟨rfl, hrow⟩ := htriple
      exact ⟨rfl, Or.inr ⟨case, rfl, hrow⟩⟩

/-! ## Transitions -/

section

variable {R N S : Prop} {I : World γ → Prop} (hI : CaseInvariant R N S I)
include hI

/-- A transition, taken on a row `row` read in the same state. -/
theorem CaseInvariant.transition {indexRepository : Bool} {t : CaseTransition} {jobId : String}
    {row : DiagnosisCaseModel} (hkey : ∀ r, (t.rewrite r).caseId = r.caseId)
    (hevolves : row.reviewStatus = t.expected → Evolves row (t.rewrite row))
    (hfit : EventsFit [t.event row.reviewStatus] t.caseId (t.rewrite row))
    (hread : R → Readable row → Readable (t.rewrite row))
    (hnone : t.indexRequest = none → row.reviewStatus = t.expected → Quiet S row (t.rewrite row))
    (hsome : ∀ request, t.indexRequest = some request → row.reviewStatus = t.expected →
      Queues request (t.rewrite row) ∧ request.entityId = t.caseId ∧
        jobStatus request.operation row.reviewStatus = false) :
    Prog.Triple (fun w => I w ∧ w.getCase t.caseId = some row)
      (transition indexRepository t jobId)
      (fun result w => I w ∧ w.getCase t.caseId = some result.case.row ∧
        (result.replayed = false → row.reviewStatus = t.expected ∧ result.case.row = t.rewrite row) ∧
        (result.replayed = true → result.case.row = row ∧ ∃ event ∈ w.caseEvents,
          event.caseId = t.caseId ∧ event.requestHash = t.requestHash))
      (fun _ => I) := by
  -- the transaction, before the row is validated
  have htx : Prog.Triple (fun w => I w ∧ w.getCase t.caseId = some row)
      (Prog.transaction (applyTransition indexRepository t jobId))
      (fun result w => I w ∧ w.getCase t.caseId = some result.1 ∧
        (result.2 = false → row.reviewStatus = t.expected ∧ result.1 = t.rewrite row) ∧
        (result.2 = true → result.1 = row ∧ ∃ event ∈ w.caseEvents, event.caseId = t.caseId ∧
          event.requestHash = t.requestHash))
      (fun _ => I) := by
    refine .transaction ?_ (fun w e hw _ => hw.1)
    rintro w ⟨row', replayed⟩ w' ⟨hw, hrow⟩ h
    rcases applyTransition_eq_ok h with
      ⟨rfl, rfl, hrow', event, hreplay, hhash⟩ |
      ⟨rfl, model, hmodel, hexpected, rfl, _, hjob⟩
    · obtain rfl : row = row' := Option.some.inj (hrow.symm.trans hrow')
      refine ⟨hw, hrow, nofun, fun _ => ⟨rfl, event, ?_⟩⟩
      obtain ⟨key, _, hevent⟩ := Option.bind_eq_some_iff.mp hreplay
      have hfound := List.find?_some hevent
      simp only [decide_eq_true_eq] at hfound
      exact ⟨List.mem_of_find?_eq_some hevent, hfound.1, hhash⟩
    · obtain rfl : row = model := Option.some.inj (hrow.symm.trans hmodel)
      have hself : (rewriteCase t.caseId t.rewrite [t.event row.reviewStatus] w).getCase t.caseId =
          some (t.rewrite row) := getCase_rewriteCase_self hkey hrow
      rcases addIndexJob_eq_ok hjob with ⟨hrequest, rfl⟩ | ⟨request, rec, hrequest, hadd⟩
      · refine ⟨?_, hself, fun _ => ⟨hexpected, rfl⟩, nofun⟩
        exact hI.rewrite hw hkey hrow (hevolves hexpected) (hnone hrequest hexpected) hfit hread
      · obtain ⟨hqueues, hid, hstatus⟩ := hsome request hrequest hexpected
        refine ⟨?_, ?_, fun _ => ⟨hexpected, rfl⟩, nofun⟩
        · refine hI.queue hw hkey hrow (hevolves hexpected) hqueues hfit hread ?_ hadd
          exact fun _ =>
            notDone_of_status (hI.base hw) hqueues.fits.entityType (hid ▸ hrow) hstatus
        · rw [World.getCase_congr (addJob_caseTable hadd)]
          exact hself
  unfold Cases.transition
  refine .bind htx (fun result => ?_)
  intro w hw
  rw [Prog.bind_apply, Prog.lift_apply]
  cases hrecord : caseRecord result.1 with
  | error e => exact hw.1
  | ok case =>
      obtain ⟨hcase, _⟩ := caseRecord_eq_ok hrecord
      show I w ∧ _
      simp only [hcase]
      exact hw

end

/-! ## How each request rewrites a row -/

/-- What the invariant says of a single row. -/
structure RowFacts (row : DiagnosisCaseModel) : Prop where
  active : row.isActive = true → row.reviewStatus = .approved
  readable : row.reviewStatus ≠ .draft → Readable row

theorem Tables.rowFacts {w : World γ} (h : Tables w) {k : String} {row : DiagnosisCaseModel}
    (hrow : w.getCase k = some row) : RowFacts row :=
  ⟨h.active hrow, h.readable hrow⟩

theorem RowFacts.not_active {row : DiagnosisCaseModel} (h : RowFacts row)
    (hstatus : row.reviewStatus ≠ .approved) : row.isActive = false := by
  cases hactive : row.isActive with
  | false => rfl
  | true => exact absurd (h.active hactive) hstatus

theorem eventsFit_of_plain {event : CaseReviewEventModel} {k : String} {row : DiagnosisCaseModel}
    (h : ∀ c, event.requestHash ≠ .supersede c) : EventsFit [event] k row := by
  intro e he c hc
  obtain rfl := List.mem_singleton.mp he
  exact absurd hc (h c)

/-- `submit`. -/
theorem evolves_submitted (S : Prop) {row : DiagnosisCaseModel} (h : RowFacts row) (hread : Readable row)
    (hdraft : row.reviewStatus = .draft) :
    Evolves row { row with reviewStatus := .pendingReview } ∧
      Quiet S row { row with reviewStatus := .pendingReview } := by
  have hinactive : row.isActive = false := h.not_active (by simp [hdraft])
  refine ⟨⟨rfl, rfl, rfl, by simp [hdraft, statusStep], fun ha => ?_, fun _ => hread⟩,
    ⟨fun ha => ha, fun hq => ⟨hq, Or.inr (by simp [hdraft, decided])⟩, nofun⟩⟩
  rw [show ({ row with reviewStatus := .pendingReview } : DiagnosisCaseModel).isActive =
    row.isActive from rfl, hinactive] at ha
  cases ha

section

variable (settings : CaseSettings) (call : CaseCall) (payload : CaseReviewRequest)

theorem reviewedRow_caseId (row : DiagnosisCaseModel) :
    (reviewedRow settings call payload row).caseId = row.caseId := by
  unfold reviewedRow
  split <;> rfl

theorem readable_reviewedRow {row : DiagnosisCaseModel} (h : Readable row) :
    Readable (reviewedRow settings call payload row) := by
  unfold reviewedRow
  split <;> exact h

end

/-- A review evolves the row; it queues the row exactly when it comes with an index request. -/
theorem evolves_reviewed (S : Prop) (settings : CaseSettings) (call : CaseCall) (payload : CaseReviewRequest)
    {case : DiagnosisCase} {caseId : String} (h : RowFacts case.row)
    (hpending : case.row.reviewStatus = .pendingReview) (hid : case.row.caseId = caseId) :
    Evolves case.row ((reviewTransition settings call case caseId payload).rewrite case.row) ∧
      ((reviewTransition settings call case caseId payload).indexRequest = none →
        Quiet S case.row ((reviewTransition settings call case caseId payload).rewrite case.row)) ∧
      ∀ request, (reviewTransition settings call case caseId payload).indexRequest = some request →
        Queues request ((reviewTransition settings call case caseId payload).rewrite case.row) ∧
        request.entityId = caseId ∧
        jobStatus request.operation case.row.reviewStatus = false := by
  have hinactive : case.row.isActive = false := h.not_active (by simp [hpending])
  have hread : Readable case.row := case.readable
  obtain ⟨mode, maxAttempts, repository⟩ := settings
  obtain ⟨decision, comment, hvalid⟩ := payload
  -- only an approval in rabbitmq mode queues the case
  have hquiet : ∀ row' : DiagnosisCaseModel, row'.isActive = case.row.isActive →
      row'.indexStatus = case.row.indexStatus → row'.reviewStatus.withdrawn = false →
      Quiet S case.row row' := fun row' ha hq hwithdrawn =>
    ⟨fun hactive => ha ▸ hactive, fun hqueued => ⟨hq ▸ hqueued, Or.inr (by simp [hpending, decided])⟩,
      fun h => absurd h (by simp [hwithdrawn])⟩
  have hnot : ∀ row' : DiagnosisCaseModel, row'.isActive = case.row.isActive →
      row'.isActive = true → row'.reviewStatus = .approved := by
    intro row' ha hactive
    rw [ha, hinactive] at hactive
    cases hactive
  have hstep : ∀ status, status = .approved ∨ status = .rejected →
      statusStep case.row.reviewStatus status = true := by
    rintro status (rfl | rfl) <;> simp [hpending, statusStep]
  cases decision <;> cases mode
  · exact ⟨⟨rfl, rfl, rfl, hstep _ (Or.inl rfl), hnot _ rfl, fun _ => hread⟩,
      fun _ => hquiet _ rfl rfl rfl, nofun⟩
  · refine ⟨⟨rfl, rfl, rfl, hstep _ (Or.inl rfl), nofun, fun _ => hread⟩, nofun, ?_⟩
    rintro request hrequest
    cases hrequest
    exact ⟨⟨⟨rfl, rfl, rfl, by rfl⟩, rfl, rfl, rfl⟩, hid, by rw [hpending]; rfl⟩
  · exact ⟨⟨rfl, rfl, rfl, hstep _ (Or.inr rfl), hnot _ rfl, fun _ => hread⟩,
      fun _ => hquiet _ rfl rfl rfl, nofun⟩
  · exact ⟨⟨rfl, rfl, rfl, hstep _ (Or.inr rfl), hnot _ rfl, fun _ => hread⟩,
      fun _ => hquiet _ rfl rfl rfl, nofun⟩

/-- A withdrawal evolves the row; in rabbitmq mode it queues the row for its tombstone. -/
theorem evolves_withdrawn {S : Prop} (settings : CaseSettings) (call : CaseCall)
    (hS : settings.indexExecutionMode = .sync → S) (target : CaseStatus) {current : DiagnosisCase} {caseId : String} (action : String) (requestHash : RequestFingerprint)
    (key comment : Option String) (htarget : target.withdrawn = true)
    (happroved : current.row.reviewStatus = .approved) (hid : current.row.caseId = caseId) :
    let t := withdrawal settings call current caseId target action requestHash key comment
    Evolves current.row (t.rewrite current.row) ∧
      (t.indexRequest = none → Quiet S current.row (t.rewrite current.row)) ∧
      ∀ request, t.indexRequest = some request → Queues request (t.rewrite current.row) ∧
        request.entityId = caseId ∧
        jobStatus request.operation current.row.reviewStatus = false := by
  have hread : Readable current.row := current.readable
  have hstep : statusStep current.row.reviewStatus target = true := by
    rw [happroved]
    revert htarget
    cases target <;> decide
  obtain ⟨mode, maxAttempts, repository⟩ := settings
  cases mode
  · exact ⟨⟨rfl, rfl, rfl, hstep, nofun, fun _ => hread⟩,
      fun _ => ⟨nofun, nofun, fun _ => Or.inr (hS rfl)⟩, nofun⟩
  · refine ⟨⟨rfl, rfl, rfl, hstep, nofun, fun _ => hread⟩, nofun, ?_⟩
    rintro request hrequest
    cases hrequest
    exact ⟨⟨⟨rfl, rfl, rfl, htarget⟩, htarget, rfl, rfl⟩, hid, by rw [happroved]; rfl⟩

/-! ## Index runs in sync mode -/

/-- The row of the same case, in the same review status. -/
def SameCase (row row' : DiagnosisCaseModel) : Prop :=
  row'.caseId = row.caseId ∧ row'.supersedesCaseId = row.supersedesCaseId ∧
    row'.reviewStatus = row.reviewStatus

theorem setIndexRow_caseId (status : CaseIndexStatus) (errorCode embeddingText : Option String)
    (active : Bool) (row : DiagnosisCaseModel) :
    (setIndexRow status errorCode embeddingText active row).caseId = row.caseId := rfl

theorem evolves_setIndexRow {row : DiagnosisCaseModel} (h : RowFacts row) {status : CaseIndexStatus}
    {errorCode embeddingText : Option String} {active : Bool}
    (hactive : active = true → row.reviewStatus = .approved) :
    Evolves row (setIndexRow status errorCode embeddingText active row) :=
  ⟨rfl, rfl, rfl, statusStep_refl _, hactive, fun hdraft => show Readable row from h.readable hdraft⟩

/-- `set_index`, on a row that the write may be made to. -/
theorem triple_setIndex {I J : World γ → Prop} {k : String} {row : DiagnosisCaseModel}
    {status : CaseIndexStatus} {errorCode embeddingText : Option String} {active : Bool}
    (hwrite : ∀ {w row'}, I w → w.getCase k = some row' → SameCase row row' →
      J (rewriteCase k (setIndexRow status errorCode embeddingText active) [] w)) :
    Prog.Triple (fun w => I w ∧ ∃ row', w.getCase k = some row' ∧ SameCase row row')
      (setIndex k status errorCode embeddingText active)
      (fun case w => J w ∧ w.getCase k = some case.row ∧ SameCase row case.row ∧
        case.row.indexStatus = status ∧ case.row.isActive = active)
      (fun _ w => J w ∧ ∃ row', w.getCase k = some row' ∧ SameCase row row') := by
  rintro w ⟨hw, row', hrow', hsame⟩
  have htx : applySetIndex k status errorCode embeddingText active w =
      .ok (setIndexRow status errorCode embeddingText active row',
        rewriteCase k (setIndexRow status errorCode embeddingText active) [] w) := by
    unfold applySetIndex
    rw [hrow', updateCase_eq_rewriteCase]
  have hself : (rewriteCase k (setIndexRow status errorCode embeddingText active) [] w).getCase k =
      some (setIndexRow status errorCode embeddingText active row') :=
    getCase_rewriteCase_self (setIndexRow_caseId _ _ _ _) hrow'
  unfold Cases.setIndex
  rw [Prog.bind_apply]
  simp only [Prog.transaction, htx, Prog.lift_apply]
  cases hrecord : caseRecord (setIndexRow status errorCode embeddingText active row') with
  | error e => exact ⟨hwrite hw hrow' hsame, _, hself, hsame⟩
  | ok case =>
      obtain ⟨hcase, _⟩ := caseRecord_eq_ok hrecord
      refine ⟨hwrite hw hrow' hsame, ?_, ?_, ?_, ?_⟩
      · rw [hcase]
        exact hself
      · rw [hcase]
        exact hsame
      · rw [hcase]
        rfl
      · rw [hcase]
        rfl

theorem keeps_vectorCall {J : World γ → Prop} {f : World γ → World γ} (hf : ∀ w, J w → J (f w))
    (outcome : CallOutcome) : Prog.Keeps J (vectorCall outcome f) := by
  unfold vectorCall
  cases outcome with
  | applied => exact .write hf
  | raised e => exact .raise _
  | appliedThenRaised e => exact .bind (.write hf) (fun _ => .raise _)

/-- A call that went through has stored the vector. -/
theorem triple_vectorCall {P C : World γ → Prop} {f : World γ → World γ} {outcome : CallOutcome}
    (hstore : ∀ w, P w → P (f w)) (hraise : ∀ w, P w → C w) :
    Prog.Triple P (vectorCall outcome f) (fun _ w => P w ∧ outcome = .applied) (fun _ => C) := by
  unfold vectorCall
  cases outcome with
  | applied => exact .write (fun w h => ⟨hstore w h, rfl⟩)
  | raised e => exact .raise hraise
  | appliedThenRaised e =>
      exact .bind (Q := fun _ => P) (.write hstore) (fun _ => .raise hraise)

section

variable {R N S : Prop} {I : World γ → Prop} (hI : CaseInvariant R N S I)
include hI

theorem CaseInvariant.deactivate {w : World γ} {k : String} {row : DiagnosisCaseModel} (hw : I w)
    (hrow : w.getCase k = some row) {status : CaseIndexStatus}
    {errorCode embeddingText : Option String} (hstatus : status ≠ .queued) :
    I (rewriteCase k (setIndexRow status errorCode embeddingText false) [] w) := by
  have hfacts := (hI.base hw).rowFacts hrow
  exact hI.rewrite hw (setIndexRow_caseId _ _ _ _) hrow (evolves_setIndexRow hfacts nofun)
    ⟨nofun, fun hq => absurd hq hstatus, Or.inl⟩ (eventsFit_nil _ _) (fun _ h => h)

/-- `_index`, on a case that may be activated in the state with `P` that the request starts in. -/
theorem CaseInvariant.index (hS : S) (call : CaseCall) (case : DiagnosisCase) {P : World γ → Prop}
    (hP : ∀ {w w'}, SameCore w w' → P w → P w')
    (hactivate : call.answers case = true → ∀ {w row' text}, I w → P w →
      w.getCase case.row.caseId = some row' → SameCase case.row row' →
      I (rewriteCase case.row.caseId (setIndexRow .indexed none (some text) true) [] w)) :
    Prog.Triple (fun w => (I w ∧ P w) ∧ ∃ row', w.getCase case.row.caseId = some row' ∧
        SameCase case.row row')
      (index call case)
      (fun updated w => I w ∧ w.getCase case.row.caseId = some updated.row ∧
        SameCase case.row updated.row ∧
        (call.answers case = true ∧ updated.row.indexStatus = .indexed ∨
          updated.row.indexStatus = .failed ∧ updated.row.isActive = false))
      (fun _ w => I w) := by
  -- what is known until the write: `P` is lost with it
  let before : World γ → Prop := fun w => (I w ∧ P w) ∧ ∃ row', w.getCase case.row.caseId = some row' ∧
    SameCase case.row row'
  let after : World γ → Prop := fun w => I w ∧ ∃ row', w.getCase case.row.caseId = some row' ∧
    SameCase case.row row'
  have hweaken : ∀ w, before w → after w := fun w h => ⟨h.1.1, h.2⟩
  unfold Cases.index
  refine .handle (E := fun _ => after) ?_ (fun _ => ?_)
  · refine .bind (Q := fun embedded w => before w ∧
      embedCase call (buildEmbeddingText case) = .ok embedded)
      (.lift (fun _ hok _ h => ⟨h, hok⟩) (fun _ _ => hweaken)) (fun embedded => ?_)
    have hstore : ∀ w, before w →
        before (upsertCollection .case [caseVector case.row embedded.2] w) := by
      rintro w ⟨⟨hw, hp⟩, row', hrow', hsame⟩
      have hcore : SameCore w (upsertCollection .case [caseVector case.row embedded.2] w) :=
        .upsertCollection _ _
      exact ⟨⟨hI.core hS hw hcore, hP hcore hp⟩, row', (hcore.getCase _).trans hrow', hsame⟩
    refine .bind (triple_vectorCall (P := fun w => before w ∧
      embedCase call (buildEmbeddingText case) = .ok embedded)
      (fun w h => ⟨hstore w h.1, h.2⟩) (fun w h => hweaken w h.1)) (fun _ => ?_)
    rintro w ⟨⟨hw, hembed⟩, houtcome⟩
    have hanswers : call.answers case = true := by
      simp [CaseCall.answers, hembed, houtcome]
    refine Prog.Triple.weaken (triple_setIndex (I := fun w => I w ∧ P w) (J := I)
      fun hw hrow hsame => hactivate hanswers hw.1 hw.2 hrow hsame) (fun _ h => h)
      (fun updated w h => ?_) (fun _ _ h => h) w hw
    exact ⟨h.1, h.2.1, h.2.2.1, Or.inl ⟨hanswers, h.2.2.2.1⟩⟩
  · refine .weaken (triple_setIndex fun hw hrow _ => hI.deactivate hw hrow (by simp)) (fun _ h => h)
      (fun updated w h => ?_) (fun _ _ h => h.1)
    exact ⟨h.1, h.2.1, h.2.2.1, Or.inr ⟨h.2.2.2.1, h.2.2.2.2⟩⟩

/-- `_tombstone`. -/
theorem CaseInvariant.tombstone (hS : S) {call : CaseCall} {case : DiagnosisCase} :
    Prog.Triple (fun w => I w ∧ ∃ row', w.getCase case.row.caseId = some row' ∧
        SameCase case.row row')
      (tombstone call case)
      (fun updated w => I w ∧ w.getCase case.row.caseId = some updated.row ∧
        SameCase case.row updated.row)
      (fun _ w => I w) := by
  unfold Cases.tombstone
  refine .handle (E := fun _ w => I w ∧ ∃ row', w.getCase case.row.caseId = some row' ∧
    SameCase case.row row') ?_ (fun _ => ?_)
  · refine .keeps_bind ?_ (fun _ _ h => h) (fun _ => ?_)
    · unfold deleteCaseVector
      cases call.milvus with
      | none => exact .pure _
      | some milvus =>
          exact keeps_vectorCall (fun w h => ⟨hI.core hS h.1 (.dropCaseVector _), h.2⟩) _
    · exact .weaken (triple_setIndex fun hw hrow _ => hI.deactivate hw hrow (by simp)) (fun _ h => h)
        (fun _ _ h => ⟨h.1, h.2.1, h.2.2.1⟩) (fun _ _ h => h)
  · exact .weaken (triple_setIndex fun hw hrow _ => hI.deactivate hw hrow (by simp)) (fun _ h => h)
      (fun _ _ h => ⟨h.1, h.2.1, h.2.2.1⟩) (fun _ _ h => h.1)

end

/-! ## The requests -/

theorem one_le_nextVersion (w : World γ) (sessionId : String) : 1 ≤ nextVersion w sessionId := by
  unfold nextVersion
  omega

theorem getCase_caseId {w : World γ} {k : String} {row : DiagnosisCaseModel}
    (h : w.getCase k = some row) : row.caseId = k :=
  (Table.get_eq_some h).2

theorem keeps_get {J : World γ → Prop} (caseId : String) :
    Prog.Keeps J (get caseId : Service γ (Option DiagnosisCase)) := by
  unfold get
  refine .bind (.read _) (fun found => ?_)
  cases found with
  | none => exact .pure _
  | some row => exact .bind (.lift _) (fun _ => .pure _)

theorem keeps_revisionReplay {J : World γ → Prop} {call : CaseCall} {caseId : String}
    {fingerprint : RequestFingerprint} :
    Prog.Keeps J (revisionReplay call caseId fingerprint : Service γ (Option DiagnosisCase)) := by
  unfold revisionReplay
  refine .bind (.read _) (fun event => ?_)
  cases event with
  | none => exact .pure _
  | some event =>
      refine .bind .raiseIf (fun _ => ?_)
      cases Text.truthy event.comment with
      | none => exact .pure _
      | some revisionId => exact keeps_get revisionId

/-- The row a revision starts from. -/
theorem newDraft_revision {R : Prop} {w : World γ} {call : CaseCall}
    {original : DiagnosisCase} {caseId : String} (hrow : w.getCase caseId = some original.row)
    (hstatus : ¬ (original.row.reviewStatus ≠ .approved ∧ original.row.reviewStatus ≠ .rejected))
    {version : Nat} (hversion : 1 ≤ version) {patch : CasePatchRequest}
    (hread : R → ∀ rootCause row, Readable row → Readable (patch.rewrite rootCause row))
    {row : DiagnosisCaseModel} (hvalues : revisionValues call original version patch = some row)
    (hfree : w.getCase row.caseId = none) : NewDraft w row ∧ (R → Readable row) := by
  obtain ⟨rootCause, _, rfl⟩ := Option.map_eq_some_iff.mp hvalues
  refine ⟨⟨hfree, rfl, rfl, rfl, call.newCaseId.property, ?_⟩, fun hR => ?_⟩
  · intro o ho
    cases ho
    refine ⟨original.row, (getCase_caseId hrow).symm ▸ hrow, ?_⟩
    revert hstatus
    cases original.row.reviewStatus <;> simp [decided]
  · apply hread hR
    obtain ⟨h₁, h₂, h₃, _⟩ := original.readable
    exact ⟨h₁, h₂, h₃, hversion⟩

section

variable {R N S : Prop} {I : World γ → Prop} (hI : CaseInvariant R N S I)
include hI

/-- `create`, on values that make a new draft. -/
theorem CaseInvariant.create {values : Option DiagnosisCaseModel} :
    Prog.Triple (fun w => I w ∧ ∀ row, values = some row → w.getCase row.caseId = none →
        NewDraft w row ∧ (R → Readable row))
      (create values) (fun _ => I) (fun _ => I) := by
  unfold Cases.create
  refine .bind (Q := fun _ => I) (.transaction ?_ (fun w e hw _ => hw.1)) (fun _ => .lift
    (fun _ _ _ h => h) (fun _ _ _ h => h))
  intro w row w' hw h
  obtain ⟨hvalues, hfree, rfl⟩ := insertCase_eq_ok h
  obtain ⟨hnew, hread⟩ := hw.2 row hvalues hfree
  exact hI.insert hw.1 hnew hread

theorem CaseInvariant.createDraft {call : CaseCall} {draft : DraftValues} :
    Prog.Keeps I (createDraft call draft) := by
  unfold Cases.createDraft
  refine Prog.Triple.bind (Q := fun version w => I w ∧ 1 ≤ version)
    (.read fun w hw => ⟨hw, one_le_nextVersion w _⟩) (fun version => ?_)
  refine .weaken hI.create (fun w hw => ⟨hw.1, fun row hvalues hfree => ?_⟩) (fun _ _ h => h)
    (fun _ _ h => h)
  cases hvalues
  exact ⟨⟨hfree, rfl, rfl, rfl, call.newCaseId.property, nofun⟩, fun _ => ⟨rfl, rfl, rfl, hw.2⟩⟩

theorem CaseInvariant.patch {call : CaseCall} {caseId : String} {payload : CasePatchRequest}
    (hread : R → ∀ rootCause row, Readable row → Readable (payload.rewrite rootCause row)) :
    Prog.Keeps I (patch call caseId payload) := by
  unfold Cases.patch updateDraft
  refine .bind (.transaction ?_) (fun _ => .lift _)
  intro w row w' hw h
  obtain ⟨model, rootCause, hmodel, hdraft, rfl, rfl⟩ := writeDraft_eq_ok h
  have hinactive := ((hI.base hw).rowFacts hmodel).not_active (by simp [hdraft])
  rw [updateCase_eq_rewriteCase]
  refine hI.rewrite hw (fun _ => rfl) hmodel ⟨rfl, rfl, rfl, statusStep_refl _, ?_, ?_⟩
    ⟨fun h => h, fun h => ⟨h, Or.inl rfl⟩, Or.inl⟩ (eventsFit_nil _ _) (fun hR => hread hR rootCause model)
  · intro hactive
    rw [show (payload.rewrite rootCause model).isActive = model.isActive from rfl, hinactive] at hactive
    cases hactive
  · intro hnot
    exact absurd hdraft hnot

theorem CaseInvariant.submit {settings : CaseSettings} {call : CaseCall} {caseId : String} :
    Prog.Keeps I (submit settings call caseId) := by
  unfold Cases.submit
  refine Prog.Triple.bind (triple_fetch caseId) (fun case => ?_)
  refine .keeps_bind .raiseIf (fun _ _ h => h.1) (fun _ => ?_)
  refine .keeps_bind .raiseIf (fun _ _ h => h.1) (fun _ => ?_)
  rintro w ⟨hw, hrow⟩
  have hfacts := (hI.base hw).rowFacts hrow
  refine Prog.Triple.bind (hI.transition (t := submitTransition call caseId) (fun _ => rfl)
    (fun hdraft => (evolves_submitted S hfacts case.readable hdraft).1)
    (eventsFit_of_plain nofun) (fun _ h => h)
    (fun _ hdraft => (evolves_submitted S hfacts case.readable hdraft).2) nofun)
    (fun result => .pure fun _ h => h.1) w ⟨hw, hrow⟩

theorem CaseInvariant.appendEvent {event : CaseReviewEventModel}
    (hplain : ∀ c, event.requestHash ≠ .supersede c) : Prog.Keeps I (appendEvent event) := by
  refine .transaction ?_
  intro w u w' hw h
  obtain ⟨w₁, hadd, hpair⟩ := Prog.except_map_eq_ok h
  cases hpair
  rw [addEvent_eq_ok hadd]
  exact hI.event hw hplain

theorem CaseInvariant.revision {settings : CaseSettings} {call : CaseCall} {caseId : String}
    {payload : CaseRevisionRequest}
    (hread : R → ∀ rootCause row, Readable row → Readable (payload.patch.rewrite rootCause row)) :
    Prog.Keeps I (revision settings call caseId payload) := by
  unfold Cases.revision
  refine Prog.Triple.bind (triple_fetch caseId) (fun original => ?_)
  refine .keeps_bind keeps_revisionReplay (fun _ _ h => h.1) (fun replay => ?_)
  cases replay with
  | some existing => exact .pure (fun _ h => h.1)
  | none =>
      refine .bind (Q := fun _ w => (I w ∧ w.getCase caseId = some original.row) ∧
        ¬ (original.row.reviewStatus ≠ .approved ∧ original.row.reviewStatus ≠ .rejected))
        (.raiseIf (fun _ _ h => h.1) (fun hn _ h => ⟨h, hn⟩)) (fun _ => ?_)
      refine .bind (Q := fun version w => ((I w ∧ w.getCase caseId = some original.row) ∧
        ¬ (original.row.reviewStatus ≠ .approved ∧ original.row.reviewStatus ≠ .rejected)) ∧
        1 ≤ version) (.read fun w hw => ⟨hw, one_le_nextVersion w _⟩) (fun version => ?_)
      refine .bind (Q := fun _ => I) (.weaken hI.create ?_ (fun _ _ h => h) (fun _ _ h => h))
        (fun created => ?_)
      · rintro w ⟨⟨⟨hw, hrow⟩, hstatus⟩, hversion⟩
        exact ⟨hw, fun row hvalues hfree =>
          newDraft_revision hrow hstatus hversion hread hvalues hfree⟩
      · refine .bind (hI.appendEvent nofun) (fun _ => ?_)
        split
        · exact hI.submit
        · exact .pure (fun _ h => h)

theorem CaseInvariant.disable {settings : CaseSettings}
    (hS : settings.indexExecutionMode = .sync → S) {call : CaseCall} {caseId : String}
    {payload : CaseDisableRequest} : Prog.Keeps I (disable settings call caseId payload) := by
  unfold Cases.disable
  refine Prog.Triple.bind (triple_fetch caseId) (fun current => ?_)
  rintro w ⟨hw, hrow⟩
  have hevolves := fun happroved => evolves_withdrawn settings call hS .disabled "case.disabled"
    (.disable caseId payload.reason) call.idempotencyKey (some payload.reason) rfl
    happroved (getCase_caseId hrow)
  refine Prog.Triple.bind (hI.transition (fun _ => rfl) (fun happroved => (hevolves happroved).1)
    (eventsFit_of_plain nofun) (fun _ h => h) (fun hn happroved => (hevolves happroved).2.1 hn)
    (fun request hs happroved => (hevolves happroved).2.2 request hs)) (fun result => ?_) w ⟨hw, hrow⟩
  cases hmode : settings.indexExecutionMode with
  | rabbitmq => exact .pure (fun _ h => h.1)
  | sync =>
      refine .weaken (hI.tombstone (hS hmode)) (fun w h => ?_) (fun _ _ h => h.1) (fun _ _ h => h)
      exact ⟨h.1, _, (getCase_caseId h.2.1).symm ▸ h.2.1, rfl, rfl, rfl⟩

/-- `_supersede` leaves the original withdrawn when it returns: just now, or because an earlier call
already did it. -/
theorem CaseInvariant.supersede {settings : CaseSettings}
    (hS : settings.indexExecutionMode = .sync → S) {call : CaseCall} {caseId : String} :
    Prog.Triple I (supersede settings call caseId)
      (fun _ w => I w ∧ ∃ row, w.getCase caseId = some row ∧ row.reviewStatus.withdrawn = true)
      (fun _ => I) := by
  unfold Cases.supersede
  refine .bind (triple_fetch caseId) (fun current => ?_)
  rintro w ⟨hw, hrow⟩
  have hevolves := fun happroved => evolves_withdrawn settings call hS .superseded "case.superseded"
    (.supersede caseId) (some (supersedeKey caseId)) none rfl happroved (getCase_caseId hrow)
  refine Prog.Triple.bind (hI.transition (fun _ => rfl) (fun happroved => (hevolves happroved).1)
    ?_ (fun _ h => h) (fun hn happroved => (hevolves happroved).2.1 hn)
    (fun request hs happroved => (hevolves happroved).2.2 request hs)) (fun result => ?_) w ⟨hw, hrow⟩
  · intro event hevent c hc
    obtain rfl := List.mem_singleton.mp hevent
    cases hc
    exact ⟨rfl, rfl, rfl⟩
  · -- either way the row that was returned is withdrawn
    have hwithdrawn : ∀ w', (I w' ∧ w'.getCase caseId = some result.case.row ∧
        (result.replayed = false → current.row.reviewStatus = .approved ∧ result.case.row =
          (withdrawal settings call current caseId .superseded "case.superseded" (.supersede caseId)
            (some (supersedeKey caseId)) none).rewrite current.row) ∧
        (result.replayed = true → result.case.row = current.row ∧ ∃ event ∈ w'.caseEvents,
          event.caseId = caseId ∧ event.requestHash = .supersede caseId)) →
        result.case.row.reviewStatus.withdrawn = true := by
      rintro w' ⟨hw', hrow', hfresh, hreplay⟩
      cases hreplayed : result.replayed with
      | false =>
          rw [(hfresh hreplayed).2]
          rfl
      | true =>
          obtain ⟨_, event, hevent, _, hhash⟩ := hreplay hreplayed
          obtain ⟨_, row, hrow'', hstatus⟩ := (hI.base hw').superseded event hevent caseId hhash
          rw [hrow'] at hrow''
          cases hrow''
          exact hstatus
    cases hmode : settings.indexExecutionMode with
    | rabbitmq => exact .pure (fun w' h => ⟨h.1, _, h.2.1, hwithdrawn w' h⟩)
    | sync =>
        intro w' h
        have hstatus := hwithdrawn w' h
        refine Prog.Triple.bind (hI.tombstone (hS hmode)) (fun updated => .pure ?_) w'
          ⟨h.1, _, (getCase_caseId h.2.1).symm ▸ h.2.1, rfl, rfl, rfl⟩
        rintro w'' ⟨hw'', hrow'', _, _, hsame⟩
        rw [getCase_caseId h.2.1] at hrow''
        exact ⟨hw'', _, hrow'', by rw [hsame]; exact hstatus⟩

end

/-! ## Reviews and reindexing -/

/-- What `review_case` did: nothing (it was refused, or replayed an earlier request), or a fresh
transition, which for an approval is followed by `afterApproval`. -/
theorem reviewCase_cases {settings : CaseSettings} {call : CaseCall} {caseId : String}
    {payload : CaseReviewRequest} {w w' : World γ} {r : Except CaseError DiagnosisCase}
    (h : reviewCase settings call caseId payload w = (r, w')) :
    w' = w ∨ ∃ case, w.getCase caseId = some case.row ∧
      ((∃ e, r = .error e ∧ transition settings.indexRepository
          (reviewTransition settings call case caseId payload) call.newJobId.val w = (.error e, w')) ∨
      (∃ result w₁, transition settings.indexRepository
          (reviewTransition settings call case caseId payload) call.newJobId.val w =
            (.ok result, w₁) ∧
        (((result.replayed = true ∨ payload.decision = .reject) ∧ w' = w₁ ∧ r = .ok result.case) ∨
          (result.replayed = false ∧ payload.decision = .approve ∧
            afterApproval settings call result.case w₁ = (r, w'))))) := by
  unfold reviewCase at h
  rcases Prog.bind_cases h with ⟨e, hfetch, rfl⟩ | ⟨case, w₀, hfetch, h₁⟩
  · exact Or.inl (fetch_cases hfetch).1
  · obtain ⟨rfl, ⟨e, he⟩ | ⟨case', hcase', hrow⟩⟩ := fetch_cases hfetch
    · cases he
    · cases hcase'
      rcases Prog.bind_cases h₁ with ⟨e, hraise, rfl⟩ | ⟨_, w₂, hraise, h₂⟩
      · exact Or.inl (Prog.raiseIf_cases hraise).1
      · obtain ⟨rfl, -⟩ := Prog.raiseIf_cases hraise
        refine Or.inr ⟨case, hrow, ?_⟩
        rcases Prog.bind_cases h₂ with ⟨e, htransition, rfl⟩ | ⟨result, w₁, htransition, h₃⟩
        · exact Or.inl ⟨e, rfl, htransition⟩
        · refine Or.inr ⟨result, w₁, htransition, ?_⟩
          split at h₃
          · next hdone =>
              cases h₃
              exact Or.inl ⟨hdone, rfl, rfl⟩
          · next hgo =>
              rw [not_or] at hgo
              refine Or.inr ⟨by simpa using hgo.1, ?_, h₃⟩
              cases hdecision : payload.decision with
              | approve => rfl
              | reject => exact absurd hdecision hgo.2

/-- In rabbitmq mode the approved case is queued, so there is nothing to supersede yet. -/
theorem afterApproval_of_queued {settings : CaseSettings} {call : CaseCall} {approved : DiagnosisCase}
    (hmode : settings.indexExecutionMode = .rabbitmq) (hqueued : approved.row.indexStatus = .queued)
    {w : World γ} : afterApproval settings call approved w = (.ok approved, w) := by
  unfold afterApproval indexApproved
  rw [hmode]
  show supersedeReplaced settings call approved w = _
  unfold supersedeReplaced
  rw [hqueued]
  rfl

/-- The row of a fresh approval. -/
theorem reviewed_approved {settings : CaseSettings} {call : CaseCall} {case approved : DiagnosisCase}
    {caseId : String} {payload : CaseReviewRequest} (happrove : payload.decision = .approve)
    (hrewrite : approved.row = (reviewTransition settings call case caseId payload).rewrite case.row) :
    approved.row.reviewStatus = .approved ∧ (settings.indexExecutionMode = .rabbitmq →
      approved.row.indexStatus = .queued) := by
  rw [hrewrite]
  simp only [CaseTransition.rewrite, reviewTransition, reviewedRow, happrove]
  cases settings.indexExecutionMode <;> simp

/-- What `reindex` asks for, and when. -/
theorem reindexOperation_cases {row : DiagnosisCaseModel} {operation : IndexOperation}
    (h : reindexOperation row = some operation) :
    (operation = .reindex ∧ row.reviewStatus = .approved) ∨
      (operation = .tombstone ∧ row.reviewStatus.withdrawn = true) := by
  unfold reindexOperation at h
  split at h
  · split at h
    · next happroved =>
        cases h
        exact Or.inl ⟨rfl, happroved⟩
    · split at h
      · next hwithdrawn =>
          cases h
          exact Or.inr ⟨rfl, hwithdrawn⟩
      · cases h
  · cases h

theorem reindexOperation_eq_some {row : DiagnosisCaseModel} {operation : IndexOperation}
    (h : reindexOperation row = some operation) :
    calledFor operation row.reviewStatus = true ∧ jobStatus operation row.reviewStatus = true := by
  rcases reindexOperation_cases h with ⟨rfl, hstatus⟩ | ⟨rfl, hstatus⟩
  · rw [hstatus]
    exact ⟨rfl, rfl⟩
  · exact ⟨hstatus, hstatus⟩

/-- What `reindex` did: nothing (it was refused, or replayed an earlier request), or its main part. -/
theorem reindex_cases {settings : CaseSettings} {call : CaseCall} {caseId : String} {w w' : World γ}
    {r : Except CaseError DiagnosisCase} (h : reindex settings call caseId w = (r, w')) :
    w' = w ∨ ∃ case, w.getCase caseId = some case.row ∧
      replayOf w caseId call.idempotencyKey = none ∧
      runReindex settings call caseId case w = (r, w') := by
  unfold reindex at h
  rcases Prog.bind_cases h with ⟨e, hfetch, rfl⟩ | ⟨case, w₀, hfetch, h₁⟩
  · exact Or.inl (fetch_cases hfetch).1
  · obtain ⟨rfl, ⟨e, he⟩ | ⟨case', hcase', hrow⟩⟩ := fetch_cases hfetch
    · cases he
    · cases hcase'
      rw [Prog.bind_read] at h₁
      cases hreplay : replayOf w₀ caseId call.idempotencyKey with
      | none =>
          rw [hreplay] at h₁
          exact Or.inr ⟨case, hrow, rfl, h₁⟩
      | some event =>
          rw [hreplay] at h₁
          rcases Prog.bind_cases h₁ with ⟨e, hraise, _⟩ | ⟨_, w₂, hraise, h₂⟩
          · exact Or.inl (Prog.raiseIf_cases hraise).1
          · obtain ⟨rfl, -⟩ := Prog.raiseIf_cases hraise
            exact Or.inl (fetch_cases h₂).1

section

variable {R N S : Prop} {I : World γ → Prop} (hI : CaseInvariant R N S I)
include hI

/-- The transition of `review_case`. -/
theorem CaseInvariant.reviewTransition (settings : CaseSettings) (call : CaseCall)
    (payload : CaseReviewRequest) {caseId : String} {case : DiagnosisCase} {w : World γ} (hw : I w)
    (hrow : w.getCase caseId = some case.row) :
    match Cases.transition settings.indexRepository
        (Cases.reviewTransition settings call case caseId payload) call.newJobId.val w with
    | (.ok result, w₁) => I w₁ ∧ w₁.getCase caseId = some result.case.row ∧
        (result.replayed = false → case.row.reviewStatus = .pendingReview ∧ result.case.row =
          (Cases.reviewTransition settings call case caseId payload).rewrite case.row)
    | (.error _, w₁) => I w₁ := by
  have hfacts := (hI.base hw).rowFacts hrow
  have hevolves := fun hpending =>
    evolves_reviewed S settings call payload hfacts hpending (getCase_caseId hrow)
  have htriple := @CaseInvariant.transition _ _ _ _ _ hI settings.indexRepository
    (Cases.reviewTransition settings call case caseId payload) call.newJobId.val case.row
    (fun r => reviewedRow_caseId settings call payload _) (fun hp => (hevolves hp).1)
    (eventsFit_of_plain nofun) (fun _ h => readable_reviewedRow settings call payload h)
    (fun hn hp => (hevolves hp).2.1 hn) (fun request hs hp => (hevolves hp).2.2 request hs)
    w ⟨hw, hrow⟩
  revert htriple
  cases Cases.transition settings.indexRepository
    (Cases.reviewTransition settings call case caseId payload) call.newJobId.val w with
  | mk r w₁ =>
      cases r with
      | error e => exact id
      | ok result => exact fun h => ⟨h.1, h.2.1, h.2.2.1⟩

/-- What `review_case` does after an approval keeps the invariant, if the case may be activated. -/
theorem CaseInvariant.afterApproval {settings : CaseSettings}
    (hS : settings.indexExecutionMode = .sync → S) {call : CaseCall}
    {approved : DiagnosisCase}
    (hactivate : call.answers approved = true → ∀ {w row' text}, I w →
      w.getCase approved.row.caseId = some row' → SameCase approved.row row' →
      I (rewriteCase approved.row.caseId (setIndexRow .indexed none (some text) true) [] w)) :
    Prog.Triple (fun w => I w ∧ w.getCase approved.row.caseId = some approved.row)
      (afterApproval settings call approved) (fun _ => I) (fun _ => I) := by
  unfold Cases.afterApproval
  refine .bind (Q := fun _ => I) ?_ (fun updated => ?_)
  · unfold indexApproved
    cases hmode : settings.indexExecutionMode with
    | rabbitmq => exact .pure (fun _ h => h.1)
    | sync =>
        exact .weaken (hI.index (hS hmode) _ _ (P := fun _ => True) (fun _ h => h) fun ha _ _ _ hw _ => hactivate ha hw)
          (fun w h => ⟨⟨h.1, trivial⟩, _, h.2, rfl, rfl, rfl⟩)
          (fun _ _ h => h.1) (fun _ _ h => h)
  · unfold supersedeReplaced
    split
    · exact .bind (.weaken (hI.supersede hS) (fun _ h => h) (fun _ _ h => h.1) (fun _ _ h => h))
        (fun _ => .pure fun _ h => h)
    · exact .pure (fun _ h => h)

/-- `review_case`, up to what a synchronous approval does. -/
theorem CaseInvariant.reviewCase {settings : CaseSettings} {call : CaseCall} {caseId : String}
    {payload : CaseReviewRequest} {w : World γ} (hw : I w)
    (hafter : ∀ w₁ case approved, settings.indexExecutionMode = .sync →
      payload.decision = .approve → w.getCase caseId = some case.row →
      Cases.transition settings.indexRepository
        (Cases.reviewTransition settings call case caseId payload) call.newJobId.val w =
          (.ok ⟨approved, false⟩, w₁) →
      I w₁ → w₁.getCase caseId = some approved.row → case.row.reviewStatus = .pendingReview →
      approved.row.reviewStatus = .approved → I (Cases.afterApproval settings call approved w₁).2) :
    I (reviewCase settings call caseId payload w).2 := by
  cases hrun : Cases.reviewCase settings call caseId payload w with
  | mk r w' =>
      show I w'
      rcases reviewCase_cases hrun with rfl | ⟨case, hrow, ⟨e, _, herror⟩ | ⟨result, w₁, hok, hend⟩⟩
      · exact hw
      · have hkept := hI.reviewTransition settings call payload hw hrow
        rw [herror] at hkept
        exact hkept
      · have hkept := hI.reviewTransition settings call payload hw hrow
        rw [hok] at hkept
        obtain ⟨hw₁, hrow₁, hfresh⟩ := hkept
        rcases hend with ⟨_, rfl, _⟩ | ⟨hreplayed, happrove, hafter'⟩
        · exact hw₁
        · obtain ⟨approved, replayed⟩ := result
          cases hreplayed
          obtain ⟨hpending, hrewrite⟩ := hfresh rfl
          have hnew := reviewed_approved happrove hrewrite
          cases hmode : settings.indexExecutionMode with
          | sync =>
              have := hafter w₁ case approved hmode happrove hrow hok hw₁ hrow₁ hpending hnew.1
              rwa [hafter'] at this
          | rabbitmq =>
              have hend := @afterApproval_of_queued γ _ call _ hmode (hnew.2 hmode) w₁
              rw [hend] at hafter'
              cases hafter'
              exact hw₁

/-- The part of `reindex` after its idempotency check. In rabbitmq mode an eligible case is queued; in
sync mode it is indexed on the spot. -/
theorem CaseInvariant.runReindex (settings : CaseSettings)
    (hS : settings.indexExecutionMode = .sync → S) (call : CaseCall) {caseId : String}
    {case : DiagnosisCase} {w : World γ} (hw : I w) (hrow : w.getCase caseId = some case.row)
    (hnew : N → ∀ operation, reindexOperation case.row = some operation →
      settings.indexExecutionMode = .rabbitmq →
      NotDone w (indexRequest settings call case.row operation))
    (hactivate : settings.indexExecutionMode = .sync → reindexOperation case.row = some .reindex →
      call.answers case = true → ∀ {w' row' text}, I w' → w'.cases = w.cases → w'.getCase case.row.caseId = some row' →
        SameCase case.row row' →
        I (rewriteCase case.row.caseId (setIndexRow .indexed none (some text) true) [] w')) :
    I (Cases.runReindex settings call caseId case w).2 := by
  have hid := getCase_caseId hrow
  unfold Cases.runReindex
  cases hoperation : reindexOperation case.row with
  | none => exact hw
  | some operation =>
      simp only
      cases hmode : settings.indexExecutionMode with
      | rabbitmq =>
          obtain ⟨hcalled, hfits⟩ := reindexOperation_eq_some hoperation
          have hkeep : Prog.Triple (fun s => s = w) (queueIndex settings.indexRepository caseId
              (indexRequest settings call case.row operation)
              (reindexEvent call caseId "case.reindex_queued") call.newJobId.val)
              (fun _ => I) (fun _ => I) := by
            unfold queueIndex
            refine .keeps_bind .raiseIf (fun _ _ h => h ▸ hw) (fun _ => ?_)
            refine .bind (Q := fun _ => I) (.transaction ?_ (fun _ _ h _ => h ▸ hw))
              (fun _ => .lift (fun _ _ _ h => h) (fun _ _ _ h => h))
            rintro s row s' rfl h
            obtain ⟨model, rec, hmodel, rfl, hadd⟩ := applyQueueIndex_eq_ok h
            obtain rfl : case.row = model := Option.some.inj (hrow.symm.trans hmodel)
            have hkey : ∀ r, (queuedRow r).caseId = r.caseId := fun _ => rfl
            have hfit : EventsFit
                [reindexEvent call caseId "case.reindex_queued" case.row.reviewStatus] caseId
                (queuedRow case.row) := eventsFit_of_plain nofun
            exact hI.queue hw hkey hrow
              ⟨rfl, rfl, rfl, statusStep_refl _, nofun, fun _ => case.readable⟩
              ⟨⟨rfl, rfl, rfl, hfits⟩, hcalled, rfl, rfl⟩ hfit (fun _ h => h)
              (fun hn => hnew hn operation hoperation hmode) hadd
          exact Prog.Triple.snd hkeep rfl
      | sync =>
          -- the event first: it touches no row
          have hevent : Prog.Triple (fun s => s = w) (Cases.appendEvent
              (reindexEvent call caseId "case.reindex_started" case.row.reviewStatus))
              (fun _ s => I s ∧ s.cases = w.cases) (fun _ => I) := by
            refine .transaction ?_ (fun _ _ h _ => h ▸ hw)
            rintro s u s' rfl h
            obtain ⟨s₁, hadd, hpair⟩ := Prog.except_map_eq_ok h
            cases hpair
            rw [addEvent_eq_ok hadd]
            exact ⟨hI.event hw nofun, rfl⟩
          have hread : ∀ {s : World γ}, s.cases = w.cases → ∃ row',
              s.getCase case.row.caseId = some row' ∧ SameCase case.row row' := fun hs =>
            ⟨case.row, hid.symm ▸ (World.getCase_congr hs).trans hrow, rfl, rfl, rfl⟩
          refine Prog.Triple.snd (Prog.Triple.bind hevent (fun _ => ?_)) rfl
          by_cases htombstone : operation = .tombstone
          · rw [if_pos htombstone]
            exact .weaken (hI.tombstone (hS hmode)) (fun s h => ⟨h.1, hread h.2⟩) (fun _ _ h => h.1)
              (fun _ _ h => h)
          · rw [if_neg htombstone]
            obtain rfl : operation = .reindex := by
              rcases reindexOperation_cases hoperation with ⟨h, _⟩ | ⟨h, _⟩
              · exact h
              · exact absurd h htombstone
            exact .weaken (hI.index (hS hmode) _ _ (P := fun s => s.cases = w.cases)
                (fun hcore h => hcore.cases.trans h) fun ha _ _ _ hs hp =>
                  hactivate hmode hoperation ha hs hp)
              (fun s h => ⟨h, hread h.2⟩) (fun _ _ h => h.1) (fun _ _ h => h)

/-- **The rule for `reindex`.** -/
theorem CaseInvariant.reindex {settings : CaseSettings}
    (hS : settings.indexExecutionMode = .sync → S) {call : CaseCall} {caseId : String} {w : World γ} (hw : I w)
    (hnew : N → ∀ row operation, w.getCase caseId = some row →
      replayOf w caseId call.idempotencyKey = none → reindexOperation row = some operation →
      settings.indexExecutionMode = .rabbitmq →
      NotDone w (indexRequest settings call row operation))
    (hactivate : settings.indexExecutionMode = .sync → ∀ case : DiagnosisCase,
      w.getCase caseId = some case.row → replayOf w caseId call.idempotencyKey = none →
      reindexOperation case.row = some .reindex → call.answers case = true →
      ∀ {w' row' text}, I w' → w'.cases = w.cases → w'.getCase case.row.caseId = some row' →
        SameCase case.row row' →
        I (rewriteCase case.row.caseId (setIndexRow .indexed none (some text) true) [] w')) :
    I (Cases.reindex settings call caseId w).2 := by
  cases hrun : Cases.reindex settings call caseId w with
  | mk r w' =>
      rcases reindex_cases hrun with rfl | ⟨case, hrow, hreplay, hrest⟩
      · exact hw
      · have hkept := hI.runReindex settings hS call hw hrow
          (fun hn operation => hnew hn case.row operation hrow hreplay)
          (fun hmode hop => hactivate hmode case hrow hreplay hop)
        rwa [hrest] at hkept

end

end EnergyAgent.Cases
