import EnergyAgent.Cases.Lifecycle

/-!
# Index requests that are not lost

In rabbitmq mode a case with `index_status = QUEUED` waits for a worker. It has a job to wait for in
every reachable state, on one condition: no accepted reindex finds a job of the same case, version and
operation that is done already. `_add_job` returns such a job without a new outbox row, and
`queue_index` has queued the case by then.
-/

namespace EnergyAgent.Cases

open EnergyAgent.Lib EnergyAgent.Persistence EnergyAgent.Indexing

variable {γ : Type}

/-! ## The obligation -/

/-- A queued case owes an index run. -/
def owesQueued (_ : World γ) (row : DiagnosisCaseModel) : Prop := row.indexStatus = .queued

theorem obligation_queued : Obligation False (owesQueued (γ := γ)) where
  congr _ h := h
  rewrite _ _ _ _ h := h
  insert _ h := h
  quiet _ _ hquiet h := hquiet.queued h
  idle _ hstatus h := hstatus h
  settled hstatus _ h := hstatus h

/-! ## The condition -/

/-- The reindex is accepted, and finds a job for the same case, version and operation that is done. -/
def FindsDoneJob (settings : CaseSettings) (call : CaseCall) (caseId : String) (w : World γ) : Prop :=
  ∃ row operation job, w.getCase caseId = some row ∧
    replayOf w caseId call.idempotencyKey = none ∧ reindexOperation row = some operation ∧
    existingJob w (indexRequest settings call row operation) = some job ∧
    job.status.terminal = true

/-- No step is a reindex that finds its job done. -/
def FreshReindex (settings : CaseSettings) (w : World γ) (label : Label γ) : Prop :=
  ∀ call caseId, label = .api call (.reindex caseId) → ¬ FindsDoneJob settings call caseId w

theorem FreshReindex.notDone {settings : CaseSettings} {w : World γ} {call : CaseCall}
    {caseId : String} (h : FreshReindex settings w (.api call (.reindex caseId)))
    {row : DiagnosisCaseModel} {operation : IndexOperation} (hrow : w.getCase caseId = some row)
    (hreplay : replayOf w caseId call.idempotencyKey = none)
    (hoperation : reindexOperation row = some operation) :
    NotDone w (indexRequest settings call row operation) := by
  intro job hjob
  cases hterminal : job.status.terminal with
  | false => rfl
  | true =>
      exact absurd ⟨row, operation, job, hrow, hreplay, hoperation, hjob, hterminal⟩ (h call caseId rfl)

/-! ## The invariant -/

/-- The row has a job that is not done, for its version and what its status calls for, and the job has
a pending outbox row or a message on the queue. -/
def HasLiveJob (w : World γ) (row : DiagnosisCaseModel) : Prop :=
  ∃ job ∈ w.jobs, job.entityType = .diagnosisCase ∧ job.entityId = row.caseId ∧
    job.entityVersion = toString row.caseVersion ∧
    calledFor job.operation row.reviewStatus = true ∧ job.status.terminal = false ∧
    ((∃ out ∈ w.outbox, out.jobId = job.jobId ∧ out.publishStatus = .pending) ∨
      ∃ m ∈ w.queue, m.jobId = job.jobId)

section

variable {settings : CaseSettings} (hmode : settings.indexExecutionMode = .rabbitmq)
include hmode

/-- An API request that meets the condition. -/
theorem queued_api {call : CaseCall} {request : CaseRequest} {w : World γ}
    (h : Safe False owesQueued w ∧ w.unacked = [])
    (hfresh : FreshReindex settings w (.api call request)) :
    Safe False owesQueued (request.run settings call w).2 ∧
      (request.run settings call w).2.unacked = [] := by
  have hI : CaseInvariant False True True (fun w : World γ => Safe False owesQueued w ∧ w.unacked = []) :=
    (caseInvariant_safe obligation_queued (Or.inl trivial)).unacked
  refine hI.run (fun _ => trivial) h (fun hfalse => hfalse.elim) ?_ ?_
  · rintro caseId payload rfl
    refine hI.reviewCase h (fun _ _ _ hsync => ?_)
    rw [hmode] at hsync
    cases hsync
  · rintro caseId rfl
    refine hI.reindex (fun _ => trivial) h (fun _ row operation hrow hreplay hoperation _ =>
      hfresh.notDone hrow hreplay hoperation) (fun hsync => ?_)
    rw [hmode] at hsync
    cases hsync

theorem queued_reachable {w : World γ}
    (h : (lifecycle settings).ReachableVia (FreshReindex settings) w) :
    Safe False owesQueued w ∧ w.unacked = [] := by
  refine h.invariant (I := fun w => Safe False owesQueued w ∧ w.unacked = [])
    (fun w h0 => ⟨Safe.init h0, h0.2.2.2.2.2⟩) (fun w label w' hw hok hstep => ?_)
  have hapi : ∀ call request, label = .api call request →
      Safe False owesQueued (request.run settings call w).2 ∧
        (request.run settings call w).2.unacked = [] := by
    rintro call request rfl
    exact queued_api hmode hw hok
  exact ⟨safe_step obligation_queued hw.1 hstep (fun call request hl => (hapi call request hl).1)
      (fun hfalse => hfalse.elim),
    unacked_step hw.2 hstep (fun call request hl => (hapi call request hl).2)⟩

omit hmode in
theorem Safe.hasLiveJob {w : World γ} (h : Safe False owesQueued w) (hidle : w.unacked = [])
    {k : String} {row : DiagnosisCaseModel} (hrow : w.getCase k = some row)
    (hqueued : row.indexStatus = .queued) : HasLiveJob w row := by
  obtain ⟨job, hjob, htype, hid, hcalled, hnot⟩ := h.owing k row hrow hqueued
  obtain ⟨row', hrow', hversion, _⟩ := h.base.caseJob job hjob htype
  rw [hid, getCase_caseId hrow, hrow] at hrow'
  cases hrow'
  refine ⟨job, hjob, htype, hid, hversion.symm, hcalled, hnot, ?_⟩
  have hlive := h.base.live job hjob hnot
  rwa [Live, hidle, List.append_nil] at hlive

omit hmode in
/-- A reindex that is accepted, and is not the replay of an earlier one, leaves the case queued. -/
theorem reindex_queues (hrabbitmq : settings.indexExecutionMode = .rabbitmq) {call : CaseCall}
    {caseId : String} {w w' : World γ} {case : DiagnosisCase}
    (h : reindex settings call caseId w = (.ok case, w'))
    (hreplay : replayOf w caseId call.idempotencyKey = none) :
    w'.getCase caseId = some case.row ∧ case.row.indexStatus = .queued := by
  unfold reindex at h
  obtain ⟨current, w₁, hfetch, h₁⟩ := Prog.bind_eq_ok h
  obtain ⟨rfl, ⟨e, he⟩ | ⟨case', hcase', hrow⟩⟩ := fetch_cases hfetch
  · cases he
  · cases hcase'
    rw [Prog.bind_read, hreplay] at h₁
    unfold runReindex at h₁
    cases hoperation : reindexOperation current.row with
    | none =>
        rw [hoperation] at h₁
        cases h₁
    | some operation =>
        simp only [hoperation, hrabbitmq] at h₁
        obtain ⟨_, w₂, hraise, h₂⟩ := Prog.bind_eq_ok h₁
        obtain ⟨rfl, _⟩ := Prog.raiseIf_cases hraise
        obtain ⟨row, w₃, htx, h₃⟩ := Prog.bind_eq_ok h₂
        obtain ⟨model, rec, hmodel, rfl, hadd⟩ := applyQueueIndex_eq_ok (Prog.transaction_eq_ok htx)
        obtain ⟨hcase, rfl⟩ := Prog.lift_eq_ok h₃
        obtain ⟨hcase, _⟩ := caseRecord_eq_ok hcase
        rw [World.getCase_congr (addJob_caseTable hadd), hcase]
        have hkey : ∀ r, (queuedRow r).caseId = r.caseId := fun _ => rfl
        exact ⟨getCase_rewriteCase_self hkey hmodel, rfl⟩

/-- **No index request is lost**, as long as no reindex finds its job done: a queued case has a job that
is not done and a message on its way; in particular after every accepted reindex. -/
theorem queued_case_has_live_job {w : World γ}
    (h : (lifecycle settings).ReachableVia (FreshReindex settings) w) :
    (∀ k row, w.getCase k = some row → row.indexStatus = .queued → HasLiveJob w row) ∧
    ∀ call caseId case w', FreshReindex settings w (.api call (.reindex caseId)) →
      replayOf w caseId call.idempotencyKey = none →
      reindex settings call caseId w = (.ok case, w') →
      w'.getCase caseId = some case.row ∧ case.row.indexStatus = .queued ∧
        HasLiveJob w' case.row := by
  obtain ⟨hsafe, hidle⟩ := queued_reachable hmode h
  refine ⟨fun k row hrow hqueued => hsafe.hasLiveJob hidle hrow hqueued, ?_⟩
  intro call caseId case w' hfresh hreplay hreindex
  obtain ⟨hrow, hqueued⟩ := reindex_queues hmode hreindex hreplay
  have hafter := queued_api hmode ⟨hsafe, hidle⟩ hfresh
  rw [show (CaseRequest.reindex caseId).run settings call w = reindex settings call caseId w from rfl,
    hreindex] at hafter
  exact ⟨hrow, hqueued, hafter.1.hasLiveJob hafter.2 hrow hqueued⟩

end

/-! ## A reindex that finds its job done -/

/-- A case is created, submitted, approved and indexed; the graph is off, so it is `DEGRADED`. -/
def indexedRun : List (Label Unit) :=
  [.api (engineer caseOne) (.createDraft (sampleDraft "session")),
    .api (engineer noId) (.submit "case-1"),
    .api (reviewer jobOne true) (.review "case-1" approval),
    .publish 1 .published,
    .consume answeringPorts (caseMessage "job-1" "case-1" "1" .upsert)]

/-- It is reindexed, with the same result, and then once more. -/
def lostReindexRun : List (Label Unit) :=
  indexedRun ++
    [.api (engineer jobTwo) (.reindex "case-1"),
      .publish 2 .published,
      .consume answeringPorts (caseMessage "job-2" "case-1" "1" .reindex),
      .api (engineer jobThree) (.reindex "case-1")]

/-- The row is queued, and every job of the table is done. -/
def queuedForNothing (w : World Unit) (caseId : String) : Bool :=
  ((w.getCase caseId).any (fun row => row.indexStatus = .queued)) &&
    w.jobs.all (fun job => job.status.terminal)

/-- The second reindex is accepted; the case is queued, and no job is left that could index it. -/
theorem second_reindex_is_lost :
    ¬ ∀ w : World Unit, (lifecycle (sampleSettings .rabbitmq)).Reachable w →
      ∀ k row, w.getCase k = some row → row.indexStatus = .queued → HasLiveJob w row := by
  intro hclaim
  have hrun : ((lifecycle (sampleSettings .rabbitmq)).run (World.empty ()) lostReindexRun).any
      (queuedForNothing · "case-1") = true := by decide +kernel
  obtain ⟨w, hw, hlost⟩ := (Option.any_eq_true _ _).mp hrun
  have hreach : (lifecycle (sampleSettings .rabbitmq)).Reachable w :=
    TransitionSystem.Reachable.of_run (.init ⟨rfl, rfl, rfl, rfl, rfl, rfl⟩) hw
  simp only [queuedForNothing, Bool.and_eq_true, Option.any_eq_true, decide_eq_true_eq] at hlost
  obtain ⟨⟨row, hrow, hqueued⟩, hdone⟩ := hlost
  obtain ⟨job, hjob, _, _, _, _, hnot, _⟩ := hclaim w hreach "case-1" row hrow hqueued
  rw [List.all_eq_true.mp hdone job hjob] at hnot
  cases hnot

/-- After the approval the case is queued, and `job-1` is there for it. -/
theorem approved_case_has_live_job :
    ∃ w : World Unit, (lifecycle (sampleSettings .rabbitmq)).run (World.empty ())
        (indexedRun.take 3) = some w ∧
      ∃ row, w.getCase "case-1" = some row ∧ row.indexStatus = .queued ∧ HasLiveJob w row := by
  have hrun : ((lifecycle (sampleSettings .rabbitmq)).run (World.empty ()) (indexedRun.take 3)).any
      (fun w => (w.getCase "case-1").any (fun row => row.indexStatus = .queued)) = true := by
    decide +kernel
  obtain ⟨w, hw, hqueued⟩ := (Option.any_eq_true _ _).mp hrun
  obtain ⟨row, hrow, hstatus⟩ := (Option.any_eq_true _ _).mp hqueued
  have hreach : (lifecycle (sampleSettings .rabbitmq)).ReachableVia
      (FreshReindex (sampleSettings .rabbitmq)) w := by
    refine TransitionSystem.ReachableVia.of_run ?_ (.init ⟨rfl, rfl, rfl, rfl, rfl, rfl⟩) hw
    intro label hlabel s call caseId hreindex
    subst hreindex
    simp [indexedRun] at hlabel
  have hlive := (queued_case_has_live_job rfl hreach).1 "case-1" row hrow (by simpa using hstatus)
  exact ⟨w, hw, row, hrow, by simpa using hstatus, hlive⟩

end EnergyAgent.Cases
