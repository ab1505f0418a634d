import EnergyAgent.Indexing.Consumer
import EnergyAgent.Indexing.HandlerRules

/-!
# The batch drainer against the consumer

`EvaluationBatchDrainer` repeats the outcome handling of `IndexConsumer.consume` with an exception
split of its own. The comparison is on one delivered message: what each of the two leaves in the
row of the job and in the row of the indexed entity.

On one message `handle_batch` is `handle` up to the last step of a case upsert, which the batch
leaves out. So the two can only part ways at that step, at a handler that calls the message stale
(the drainer has no branch for it), and at an acknowledgement that fails after a success (it is
inside the `try` of the consumer and outside that of the drainer).
-/

namespace EnergyAgent.Indexing

open EnergyAgent.Lib EnergyAgent.Persistence

variable {γ : Type} {ports : ConsumerPorts γ} {event : IndexJobMessage} {w w' : World γ}

/-! ## What is compared -/

/-- The state a delivery leaves the job and the entity of its message in: status, attempts and error
code of the job; index status and error code of the case, the ticket and the documents, and whether
the case is active. -/
structure DeliveryState where
  job : Option (IndexJobStatus × Nat × Option String)
  case : Option (IndexStatus × Option String × Bool)
  ticket : Option (IndexStatus × Option String)
  documents : List (IndexStatus × Option String)
  deriving DecidableEq

def jobColumns (row : IndexJobModel) : IndexJobStatus × Nat × Option String :=
  (row.status, row.attemptCount, row.lastErrorCode)

def caseColumns (row : DiagnosisCaseModel) : IndexStatus × Option String × Bool :=
  (row.indexStatus, row.indexErrorCode, row.isActive)

def deliveryState (event : IndexJobMessage) (w : World γ) : DeliveryState where
  job := (w.getJob event.jobId).map jobColumns
  case := (w.getCase event.entityId).map caseColumns
  ticket := (w.getTicket event.entityId).map (fun row => (row.indexStatus, row.indexErrorCode))
  documents := (w.documents.filter (fun row => row.docId = event.entityId)).map
    (fun row => (row.indexStatus, row.indexErrorCode))

/-- `w` and `w'` have the same jobs and the same entities. -/
structure SameEntities (w w' : World γ) : Prop where
  jobs : w'.jobs = w.jobs
  cases : w'.cases = w.cases
  tickets : w'.tickets = w.tickets
  documents : w'.documents = w.documents

theorem SameEntities.refl (w : World γ) : SameEntities w w := ⟨rfl, rfl, rfl, rfl⟩

theorem SameEntities.deliveryState (h : SameEntities w w') :
    deliveryState event w' = deliveryState event w := by
  unfold Indexing.deliveryState World.getTicket
  rw [World.getJob_congr h.jobs, World.getCase_congr h.cases, h.tickets, h.documents]

/-! ## What the broker calls leave alone -/

theorem keeps_ackMessage {outcome : Except PortError Unit} {e : IndexJobMessage} :
    Prog.Keeps (SameEntities w) (ackMessage outcome e) :=
  .bind (.lift _) (fun _ => .write fun _ h => ⟨h.jobs, h.cases, h.tickets, h.documents⟩)

theorem keeps_publishFailed {outcome : CallOutcome} {dead : Bool} {e : IndexJobMessage} :
    Prog.Keeps (SameEntities w) (publishFailed outcome dead e) := by
  refine keeps_callOutcome (fun s h => ?_) _
  cases dead with
  | true => exact h
  | false => exact ⟨h.jobs, h.cases, h.tickets, h.documents⟩

theorem sameEntities_ackMessage {outcome : Except PortError Unit} {e : IndexJobMessage} :
    SameEntities w (ackMessage outcome e w).2 :=
  keeps_ackMessage.snd (SameEntities.refl w)

/-- The failure branch comes down to `fail`: the publication and the acknowledgement behind it, raise
or not, write no row. -/
theorem sameEntities_failMessage {attemptCount : Nat} {maxAttempts : MaxAttempts}
    {e : HandlerError} :
    SameEntities
      (fail event.jobId e.code e.typeName (!deadLettered attemptCount maxAttempts e) w)
      (failMessage ports event attemptCount maxAttempts e w).2 := by
  unfold failMessage
  rw [Prog.bind_write]
  exact (Prog.Keeps.bind keeps_publishFailed (fun _ => keeps_ackMessage)).snd (SameEntities.refl _)

/-! ## One message in a batch of its own -/

/-- What `_case_batch` does with one case: `_case` without its last step. -/
def indexCase (ports : IndexPorts γ) (event : IndexJobMessage) (case : DiagnosisCaseModel) :
    Handler γ HandlerResult := do
  let text ← Prog.lift (caseText case)
  let vector ← Prog.lift (ports.embedText text)
  vectorUpsert ports .case [caseVector case vector]
  let degraded ← projectCase ports event case
  Prog.write (setCaseIndex event.entityId (indexedStatus degraded) true (some text))
  pure (caseResult degraded)

/-- The check of a case, and `indexCase`. -/
def checkAndIndex (ports : IndexPorts γ) (event : IndexJobMessage) : Handler γ HandlerResult := do
  let found ← Prog.read (·.getCase event.entityId)
  let case ← Prog.lift (checkCase event found)
  indexCase ports event case

/-- The messages that `handle_batch` gives to `_case_batch`. -/
abbrev IndexJobMessage.indexesCase (event : IndexJobMessage) : Prop :=
  event.entityType = .diagnosisCase ∧ (event.operation = .upsert ∨ event.operation = .reindex)

/-- What `handle_batch` does with one message. -/
def handleAlone (ports : IndexPorts γ) (event : IndexJobMessage) : Handler γ HandlerResult :=
  if event.indexesCase then checkAndIndex ports event else handle ports event

theorem upsertCase_eq_bind (ports : IndexPorts γ) (event : IndexJobMessage)
    (case : DiagnosisCaseModel) : upsertCase ports event case = (do
      let result ← indexCase ports event case
      supersedeOriginal ports event case
      pure result) := by
  unfold upsertCase indexCase
  simp only [Prog.bind_assoc]
  rfl

/-- Embedding one text as a list. -/
theorem embedAll_single {τ : Type} (ports : IndexPorts γ) (text : τ → String) (task : τ) :
    [task].mapM (fun t => ports.embedText (text t)) = (do
      let vector ← ports.embedText (text task)
      pure [vector]) := by
  rw [List.mapM_cons]
  rfl

theorem ticketBatch_single {ports : IndexPorts γ} {event : IndexJobMessage} :
    ticketBatch ports [event] = (do
      let result ← handleTicket ports event
      pure [(event.jobId, result)]) := by
  have horder : ticketBatch ports [event] = (do
      let found ← Prog.read (·.getTicket event.entityId)
      let tasks ← Prog.lift (do
        let ticket ← checkTicket event found
        pure [(⟨event, ticket, ticketText ticket⟩ : TicketTask)])
      let vectors ← Prog.lift (tasks.mapM (fun task => ports.embedText task.text))
      vectorUpsert ports .ticket (ticketVectors tasks vectors)
      Prog.write (indexTickets tasks)
      pure (ticketResults tasks)) := rfl
  rw [horder]
  unfold handleTicket
  simp only [Prog.lift_bind, Prog.lift_pure, Prog.bind_assoc, Prog.pure_bind, embedAll_single]
  rfl

theorem caseBatch_single {ports : IndexPorts γ} {event : IndexJobMessage} :
    caseBatch ports [event] = (do
      let result ← checkAndIndex ports event
      pure [(event.jobId, result)]) := by
  have horder : caseBatch ports [event] = (do
      let found ← Prog.read (·.getCase event.entityId)
      let tasks ← Prog.lift (do
        let case ← checkCase event found
        let text ← caseText case
        pure [(⟨event, case, text⟩ : CaseTask)])
      let vectors ← Prog.lift (tasks.mapM (fun task => ports.embedText task.text))
      vectorUpsert ports .case (caseVectors tasks vectors)
      indexCases ports tasks) := rfl
  rw [horder]
  unfold checkAndIndex indexCase
  simp only [Prog.lift_bind, Prog.lift_pure, Prog.bind_assoc, Prog.pure_bind, embedAll_single,
    indexCases]
  rfl

theorem batchType_single (event : IndexJobMessage) : batchType [event] =
    if event.operation = .upsert ∨ event.operation = .reindex then some event.entityType
    else none := by
  simp [batchType]

/-- `handle_batch` on one message, but for its `dict`. -/
theorem handleBatch_single (ports : IndexPorts γ) (event : IndexJobMessage) :
    handleBatch ports [event] = (do
      let result ← handleAlone ports event
      pure [(event.jobId, result)]) := by
  have heach : handleEach ports [event] = (do
      let result ← handle ports event
      pure [(event.jobId, result)]) := rfl
  have hother : ∀ {t}, event.entityType = t → t ≠ .diagnosisCase → ¬ event.indexesCase :=
    fun htype hne h => hne (htype.symm.trans h.1)
  have htypes := batchType_single event
  by_cases hop : event.operation = .upsert ∨ event.operation = .reindex
  · rw [if_pos hop] at htypes
    cases htype : event.entityType with
    | manualDocument =>
        rw [htype] at htypes
        rw [handleBatch, htypes, handleAlone, if_neg (hother htype (by simp))]
        exact heach
    | templateGraph =>
        rw [htype] at htypes
        rw [handleBatch, htypes, handleAlone, if_neg (hother htype (by simp))]
        exact heach
    | maintenanceTicket =>
        rw [htype] at htypes
        rw [handleBatch, htypes, handleAlone, if_neg (hother htype (by simp)),
          handle_of_ticket htype]
        exact ticketBatch_single
    | diagnosisCase =>
        rw [htype] at htypes
        rw [handleBatch, htypes, handleAlone, if_pos ⟨htype, hop⟩]
        exact caseBatch_single
  · rw [if_neg hop] at htypes
    rw [handleBatch, htypes, handleAlone, if_neg (fun h => hop h.2)]
    exact heach

/-- `handle` of a message that `_case_batch` would take: the same work, then the supersession. -/
theorem handle_of_indexesCase {ports : IndexPorts γ} {event : IndexJobMessage}
    (h : event.indexesCase) : handle ports event = (do
      let found ← Prog.read (·.getCase event.entityId)
      let case ← Prog.lift (checkCase event found)
      let result ← indexCase ports event case
      supersedeOriginal ports event case
      pure result) := by
  rw [handle_of_case h.1, handleCase]
  have hop : event.operation ≠ .tombstone := by
    rcases h.2 with hop | hop <;> rw [hop] <;> simp
  simp only [if_neg hop, upsertCase_eq_bind]

/-! ## Where each worker leaves the message -/

/-- `_process` of one message. -/
theorem process_single (item : PendingMessage) (w : World γ) :
    process ports [item] w = match handleAlone ports.handlers item.event w with
      | (.ok result, w') =>
          ackMessage (ports.ack item.event) item.event (finish item.event.jobId result.status w')
      | (.error e, w') =>
          if e = .cancelled then (.error e, w')
          else failMessage ports item.event item.attemptCount item.maxAttempts e w' := by
  rw [process, List.map_cons, List.map_nil, handleBatch_single, Prog.bind_apply]
  cases handleAlone ports.handlers item.event w with
  | mk r w' =>
      cases r with
      | error e => rfl
      | ok result =>
          show finishAll ports [(item.event.jobId, result)] [item] w' = _
          have hresult : resultOf [(item.event.jobId, result)] item.event.jobId = some result := by
            simp [resultOf]
          unfold finishAll
          rw [hresult]
          exact congrFun (Prog.bind_pure (ackMessage (ports.ack item.event) item.event)) _

/-- The rows `consume` leaves, given how its handler ended. -/
def consumerLeaves (ports : ConsumerPorts γ) (event : IndexJobMessage) (job : IndexJobRecord) :
    Except HandlerError HandlerResult × World γ → World γ
  | (.ok result, w) =>
      match ports.ack event with
      | .ok _ => finish event.jobId result.status w
      | .error e =>
          if e.val = .cancelled then finish event.jobId result.status w
          else fail event.jobId e.val.code e.val.typeName
            (!deadLettered job.row.attemptCount job.row.maxAttempts e.val)
            (finish event.jobId result.status w)
  | (.error e, w) =>
      if e = .cancelled then w
      else if e = .stale then finish event.jobId .stale w
      else fail event.jobId e.code e.typeName
        (!deadLettered job.row.attemptCount job.row.maxAttempts e) w

/-- The rows the drainer leaves, given how its handler ended. -/
def drainerLeaves (event : IndexJobMessage) (job : IndexJobRecord) :
    Except HandlerError HandlerResult × World γ → World γ
  | (.ok result, w) => finish event.jobId result.status w
  | (.error e, w) =>
      if e = .cancelled then w
      else fail event.jobId e.code e.typeName
        (!deadLettered job.row.attemptCount job.row.maxAttempts e) w

theorem exceptBranch_of_exception {e : HandlerError} (job : IndexJobRecord) (hc : e ≠ .cancelled)
    (hs : e ≠ .stale) : exceptBranch ports event job e =
      failMessage ports event job.row.attemptCount job.row.maxAttempts e := by
  cases e with
  | cancelled => exact absurd rfl hc
  | stale => exact absurd rfl hs
  | permanent code => rfl
  | failure code typeName => rfl

theorem ackMessage_ok (e : IndexJobMessage) (w : World γ) :
    ackMessage (.ok ()) e w = (.ok (), settle e w) := rfl

theorem ackMessage_error (error : PortError) (e : IndexJobMessage) (w : World γ) :
    ackMessage (.error error) e w = (.error error.val, w) := rfl

theorem work_of_ok (job : IndexJobRecord) {result : HandlerResult}
    (h : handle ports.handlers event w = (.ok result, w')) :
    work ports event job w = Prog.handle (ackMessage (ports.ack event) event)
      (exceptBranch ports event job) (finish event.jobId result.status w') := by
  unfold work tryHandle Prog.handle
  rw [Prog.bind_of_ok h, Prog.bind_write]

theorem work_of_error (job : IndexJobRecord) {e : HandlerError}
    (h : handle ports.handlers event w = (.error e, w')) :
    work ports event job w = exceptBranch ports event job e w' := by
  unfold work tryHandle Prog.handle
  rw [Prog.bind_of_error h]

theorem sameEntities_work (job : IndexJobRecord) :
    SameEntities (consumerLeaves ports event job (handle ports.handlers event w))
      (work ports event job w).2 := by
  cases h : handle ports.handlers event w with
  | mk r w' =>
      cases r with
      | ok result =>
          rw [work_of_ok job h, consumerLeaves, Prog.handle]
          cases hack : ports.ack event with
          | ok u =>
              rw [ackMessage_ok]
              exact ⟨rfl, rfl, rfl, rfl⟩
          | error e =>
              rw [ackMessage_error]
              by_cases hc : e.val = .cancelled
              · simp only [hc, if_true]
                exact .refl _
              · simp only [if_neg hc]
                rw [exceptBranch_of_exception job hc (fromPort_ne_stale e)]
                exact sameEntities_failMessage
      | error e =>
          rw [work_of_error job h, consumerLeaves]
          by_cases hc : e = .cancelled
          · subst hc
            exact .refl _
          · by_cases hs : e = .stale
            · subst hs
              exact sameEntities_ackMessage
            · rw [if_neg hc, if_neg hs, exceptBranch_of_exception job hc hs]
              exact sameEntities_failMessage

theorem sameEntities_process (job : IndexJobRecord) :
    SameEntities (drainerLeaves event job (handleAlone ports.handlers event w))
      (process ports [⟨event, job.row.attemptCount, job.row.maxAttempts⟩] w).2 := by
  rw [process_single]
  cases handleAlone ports.handlers event w with
  | mk r w' =>
      cases r with
      | ok result => exact sameEntities_ackMessage
      | error e =>
          rw [drainerLeaves]
          by_cases hc : e = .cancelled
          · simp only [if_pos hc]
            exact .refl _
          · simp only [if_neg hc]
            exact sameEntities_failMessage

/-! ## A failed job and a finished one -/

theorem getJob_finish {jobId : String} (status : IndexJobStatus) (w : World γ) :
    (finish jobId status w).getJob jobId = (w.getJob jobId).map (finishedJob status) :=
  World.getJob_updateJob_self (fun _ => rfl)

theorem failEntity_jobs (job : IndexJobModel) (code : String) (w : World γ) :
    (failEntity job code w).jobs = w.jobs := by
  unfold failEntity
  cases job.entityType <;> rfl

theorem getJob_fail {jobId code typeName : String} {retry : Bool} {job : IndexJobModel}
    (h : w.getJob jobId = some job) :
    (fail jobId code typeName retry w).getJob jobId = some (failedJob code typeName retry job) := by
  have hjob : (w.updateJob jobId (failedJob code typeName retry)).getJob jobId =
      some (failedJob code typeName retry job) := by
    have hkey : ∀ row, (failedJob code typeName retry row).jobId = row.jobId := fun _ => rfl
    rw [World.getJob_updateJob_self hkey, h]
    rfl
  unfold fail
  rw [h]
  cases retry with
  | true => exact hjob
  | false => exact (World.getJob_congr (failEntity_jobs _ _ _)).trans hjob

/-- A failure writes an error code into the job, a success clears it. -/
theorem finish_ne_fail {code typeName : String} {retry : Bool} {job : IndexJobModel}
    {status : IndexJobStatus} (h : w'.getJob event.jobId = some job) :
    deliveryState event (finish event.jobId status w) ≠
      deliveryState event (fail event.jobId code typeName retry w') := by
  intro heq
  have hjob := congrArg DeliveryState.job heq
  simp only [deliveryState, getJob_finish, getJob_fail h] at hjob
  cases hw : w.getJob event.jobId with
  | none => simp [hw] at hjob
  | some row => simp [hw, jobColumns, finishedJob, failedJob] at hjob

/-- What a success writes is the same on equal rows. -/
theorem deliveryState_finish (status : IndexJobStatus)
    (h : deliveryState event w' = deliveryState event w) :
    deliveryState event (finish event.jobId status w') =
      deliveryState event (finish event.jobId status w) := by
  have hjobs : ∀ s : World γ, ((finish event.jobId status s).getJob event.jobId).map jobColumns =
      (deliveryState event s).job.map (fun columns => (status, columns.2.1, none)) := by
    intro s
    rw [getJob_finish]
    cases hs : s.getJob event.jobId <;> simp [deliveryState, hs, jobColumns, finishedJob]
  have hrest : ∀ s : World γ, deliveryState event (finish event.jobId status s) =
      { deliveryState event s with
        job := (deliveryState event s).job.map (fun columns => (status, columns.2.1, none)) } := by
    intro s
    rw [← hjobs s]
    rfl
  rw [hrest, hrest, h]

theorem getJob_supersedeOld {jobId old : String} {job : IndexJobModel}
    (h : supersedeOld event jobId old w = .ok ((), w')) {k : String} (hjob : w.getJob k = some job) :
    w'.getJob k = some job := by
  rcases supersedeOld_cases h with ⟨rfl, -⟩ | ⟨row, rec, -, -, hadd⟩
  · exact hjob
  · rcases addJob_cases hadd with ⟨-, rfl⟩ | ⟨-, -, -, rfl⟩
    · exact hjob
    · exact Table.get_append_of_some hjob

/-- The handlers leave the job alone. -/
theorem getJob_handle {ports : IndexPorts γ} {job : IndexJobModel}
    (h : w.getJob event.jobId = some job) :
    (handle ports event w).2.getJob event.jobId = some job := by
  have hI : HandlerInvariant (fun _ => True)
      (fun s : World γ => s.getJob event.jobId = some job) := by
    refine ⟨fun hcore hs => (World.getJob_congr hcore.jobs).trans hs, fun hs => ?_, fun hs hold => ?_⟩
    · intros
      exact hs
    · exact getJob_supersedeOld hold hs
  have hkeep : Prog.Keeps (fun s : World γ => s.getJob event.jobId = some job) (handle ports event) :=
    .weaken (hI.handle trivial) (fun _ hs => hs) (fun _ _ hs => hs.1) (fun _ _ hs => hs.1)
  exact hkeep.snd h

/-! ## The supersession -/

/-- `_queue_superseded_case` would raise in `w`. -/
def SupersessionRefused (ports : IndexPorts γ) (event : IndexJobMessage) (old : String)
    (w : World γ) : Prop :=
  ports.repository = false ∨
    ∃ e, supersedeOld event (ports.newJobId event).val old w = .error e

theorem addJob_error_congr {request : IndexJobCreate} {jobId : String} {e : RepositoryError}
    (hjobs : w'.jobs = w.jobs) (h : addJob request jobId w = .error e) :
    addJob request jobId w' = .error e := by
  unfold addJob existingJob at h ⊢
  rw [hjobs]
  cases hex : w.jobs.find? (·.requestedBy request) with
  | some existing =>
      rw [hex] at h
      cases hrec : record existing with
      | error e' =>
          simp only [hrec] at h ⊢
          exact h
      | ok rec => simp [hrec, Except.map] at h
  | none =>
      simp only [hex] at h ⊢
      cases hins : Table.insert? IndexJobModel.jobId w.jobs (newJob request jobId) with
      | none =>
          simp only [hins] at h ⊢
          exact h
      | some jobs => simp [hins] at h

/-- Whether the transaction is refused depends on the replaced case and on the jobs only. -/
theorem supersedeOld_error_congr {jobId old : String} {e : HandlerError}
    (hjobs : w'.jobs = w.jobs) (hcase : w'.getCase old = w.getCase old)
    (h : supersedeOld event jobId old w = .error e) : supersedeOld event jobId old w' = .error e := by
  unfold supersedeOld at h ⊢
  rw [hcase]
  cases hget : w.getCase old with
  | none => simp [hget] at h
  | some row =>
      simp only [hget] at h ⊢
      by_cases happroved : row.reviewStatus = .approved
      · rw [if_neg (not_not_intro happroved)] at h ⊢
        cases hadd : addJob (supersedeRequest event row) jobId (w.updateCase old supersededRow) with
        | ok p => simp [hadd] at h
        | error e' =>
            have hjobs' : (w'.updateCase old supersededRow).jobs =
                (w.updateCase old supersededRow).jobs := hjobs
            rw [hadd] at h
            rw [addJob_error_congr hjobs' hadd]
            exact h
      · rw [if_pos happroved] at h
        cases h

theorem supersessionRefused_congr {ports : IndexPorts γ} {old : String}
    (hjobs : w'.jobs = w.jobs) (hcase : w'.getCase old = w.getCase old) :
    SupersessionRefused ports event old w' ↔ SupersessionRefused ports event old w :=
  ⟨Or.imp_right fun ⟨e, h⟩ => ⟨e, supersedeOld_error_congr hjobs.symm hcase.symm h⟩,
    Or.imp_right fun ⟨e, h⟩ => ⟨e, supersedeOld_error_congr hjobs hcase h⟩⟩

/-- What the error of a refused supersession is not. -/
theorem toHandlerError_ne_cancelled (e : RepositoryError) : e.toHandlerError ≠ .cancelled := by
  cases e <;> simp [RepositoryError.toHandlerError, HandlerError.uncoded]

theorem supersedeOld_error {jobId old : String} {e : HandlerError}
    (h : supersedeOld event jobId old w = .error e) : e ≠ .cancelled ∧ e ≠ .stale := by
  unfold supersedeOld at h
  split at h
  · cases h
  · split at h
    · cases h
    · split at h
      · cases h
      · cases h
        exact ⟨toHandlerError_ne_cancelled _, toHandlerError_ne_stale _⟩

/-- The end of an upsert, on a revision. -/
theorem supersedeOriginal_cases {ports : IndexPorts γ} {case : DiagnosisCaseModel} {old : String}
    (hold : case.supersededId = some old) (w : World γ) :
    (SupersessionRefused ports event old w ∧ ∃ e, e ≠ .cancelled ∧ e ≠ .stale ∧
      supersedeOriginal ports event case w = (.error e, w)) ∨
    (¬ SupersessionRefused ports event old w ∧ ∃ w',
      supersedeOld event (ports.newJobId event).val old w = .ok ((), w') ∧
      supersedeOriginal ports event case w = (.ok (), w')) := by
  have hrun : supersedeOriginal ports event case = queueSupersededCase ports event old := by
    rw [supersedeOriginal, hold]
  rw [hrun, queueSupersededCase]
  by_cases hrepository : ports.repository = false
  · refine Or.inl ⟨Or.inl hrepository, .permanent "INDEX_REPOSITORY_UNAVAILABLE", by simp, by simp, ?_⟩
    exact Prog.bind_of_error (if_pos hrepository)
  · cases hsupersede : supersedeOld event (ports.newJobId event).val old w with
    | error e =>
        obtain ⟨hc, hs⟩ := supersedeOld_error hsupersede
        refine Or.inl ⟨Or.inr ⟨e, hsupersede⟩, e, hc, hs, ?_⟩
        rw [Prog.bind_of_ok (Prog.raiseIf_of_not hrepository _ w), Prog.transaction, hsupersede]
    | ok p =>
        refine Or.inr ⟨?_, p.2, rfl, ?_⟩
        · rintro (h | ⟨e, h⟩)
          · exact hrepository h
          · rw [hsupersede] at h
            cases h
        · rw [Prog.bind_of_ok (Prog.raiseIf_of_not hrepository _ w), Prog.transaction, hsupersede]

/-- What indexing a case does to the jobs and to the cases. -/
theorem indexCase_eq_ok {ports : IndexPorts γ} {case : DiagnosisCaseModel} {result : HandlerResult}
    (h : indexCase ports event case w = (.ok result, w')) :
    ∃ degraded text, w'.jobs = w.jobs ∧ w'.cases =
      (setCaseIndex event.entityId (indexedStatus degraded) true (some text) w).cases := by
  unfold indexCase at h
  obtain ⟨text, -, h⟩ := Prog.bind_lift_eq_ok h
  obtain ⟨vector, -, h⟩ := Prog.bind_lift_eq_ok h
  obtain ⟨_, _, hupsert, h⟩ := Prog.bind_eq_ok h
  obtain ⟨-, rfl⟩ := vectorUpsert_eq_ok hupsert
  obtain ⟨degraded, projected, hproject, h⟩ := Prog.bind_eq_ok h
  obtain ⟨graph, projections, rfl⟩ := projectCase_frame hproject
  cases h
  exact ⟨degraded, text, rfl, rfl⟩

/-! ## The comparison -/

/-- The deliveries that the two workers settle differently; `w` is the state the handler starts in.
-/
inductive Diverges (ports : ConsumerPorts γ) (event : IndexJobMessage) (w : World γ) : Prop
  /-- The handler calls the message stale: the drainer takes that for a failure. -/
  | stale (h : (handle ports.handlers event w).1 = .error .stale)
  /-- The acknowledgement after a success raises an `Exception`: the consumer takes that for one. -/
  | ack (result : HandlerResult) (e : PortError)
      (h : (handle ports.handlers event w).1 = .ok result) (hack : ports.ack event = .error e)
      (he : e.val ≠ .cancelled)
  /-- A revision is indexed and its supersession is refused, or it names itself as the case it
  replaces: the drainer never comes to that step. -/
  | revision (case : DiagnosisCaseModel) (old : String) (result : HandlerResult)
      (hevent : event.indexesCase)
      (hcheck : checkCase event (w.getCase event.entityId) = .ok case)
      (hold : case.supersededId = some old)
      (hindex : (indexCase ports.handlers event case w).1 = .ok result)
      (hrefused : old = event.entityId ∨ SupersessionRefused ports.handlers event old w)

/-- An end of the handler that the two workers treat differently. -/
def Mishandled (ports : ConsumerPorts γ) (event : IndexJobMessage) :
    Except HandlerError HandlerResult → Prop
  | .ok _ => ∃ e, ports.ack event = .error e ∧ e.val ≠ .cancelled
  | .error e => e = .stale

/-- One end of the handler, settled by both. -/
theorem leaves_agree_iff (job : IndexJobRecord) {row : IndexJobModel}
    (r : Except HandlerError HandlerResult × World γ) (hrow : r.2.getJob event.jobId = some row) :
    deliveryState event (consumerLeaves ports event job r) =
      deliveryState event (drainerLeaves event job r) ↔ ¬ Mishandled ports event r.1 := by
  obtain ⟨r, w⟩ := r
  cases r with
  | ok result =>
      simp only [consumerLeaves, drainerLeaves, Mishandled]
      cases hack : ports.ack event with
      | ok u => simp
      | error e =>
          by_cases hc : e.val = .cancelled
          · simp [hc]
          · have hjob := (getJob_finish result.status w).trans (congrArg (Option.map _) hrow)
            simp only [if_neg hc]
            refine iff_of_false (fun h => finish_ne_fail hjob h.symm) (not_not_intro ⟨e, rfl, hc⟩)
  | error e =>
      simp only [consumerLeaves, drainerLeaves, Mishandled]
      by_cases hc : e = .cancelled
      · subst hc
        simp
      · by_cases hs : e = .stale
        · simp only [if_neg hc, if_pos hs]
          exact iff_of_false (finish_ne_fail hrow) (not_not_intro hs)
        · simp only [if_neg hc, if_neg hs]
          exact iff_of_true trivial hs

theorem deliveryState_addJob {request : IndexJobCreate} {jobId : String} {rec : IndexJobRecord}
    {row : IndexJobModel} (hrow : w.getJob event.jobId = some row)
    (h : addJob request jobId w = .ok (rec, w')) :
    deliveryState event w' = deliveryState event w := by
  rcases addJob_cases h with ⟨-, rfl⟩ | ⟨-, -, -, rfl⟩
  · rfl
  · have hjob : Table.get IndexJobModel.jobId (w.jobs ++ [newJob request jobId]) event.jobId =
        w.getJob event.jobId := (Table.get_append_of_some hrow).trans hrow.symm
    unfold deliveryState
    rw [← hjob]
    rfl

/-- The supersession writes the row of the replaced case, and new rows elsewhere. -/
theorem deliveryState_supersedeOld {jobId old : String} {row : IndexJobModel}
    (hrow : w.getJob event.jobId = some row) (hne : event.entityId ≠ old)
    (h : supersedeOld event jobId old w = .ok ((), w')) :
    deliveryState event w' = deliveryState event w := by
  rcases supersedeOld_cases h with ⟨rfl, -⟩ | ⟨_, rec, -, -, hadd⟩
  · rfl
  · have hcase : (w.updateCase old supersededRow).getCase event.entityId =
        w.getCase event.entityId := World.getCase_updateCase_ne supersededRow_caseId hne
    have hupdate : deliveryState event (w.updateCase old supersededRow) = deliveryState event w := by
      unfold deliveryState
      rw [hcase]
      rfl
    exact (deliveryState_addJob (w := w.updateCase old supersededRow) hrow hadd).trans hupdate

/-- A case that names itself is active after its upsert, and not after its supersession. -/
theorem supersedeOld_self {jobId : String} {status : IndexJobStatus} {row : DiagnosisCaseModel}
    (hrow : w.getCase event.entityId = some row) (happroved : row.reviewStatus = .approved)
    (hactive : row.isActive = true) (h : supersedeOld event jobId event.entityId w = .ok ((), w')) :
    deliveryState event (finish event.jobId status w') ≠
      deliveryState event (finish event.jobId status w) := by
  rcases supersedeOld_cases h with ⟨-, hnot⟩ | ⟨_, rec, -, -, hadd⟩
  · exact absurd happroved (hnot row hrow)
  · have hcase : w'.getCase event.entityId = some (supersededRow row) := by
      rw [World.getCase_congr (addJob_caseTable hadd),
        World.getCase_updateCase_self supersededRow_caseId, hrow]
      rfl
    intro heq
    have hcases := congrArg DeliveryState.case heq
    have hfinish : ∀ s : World γ, (finish event.jobId status s).getCase event.entityId =
        s.getCase event.entityId := fun _ => rfl
    simp only [deliveryState, hfinish, hcase, hrow, Option.map_some, Option.some.injEq,
      caseColumns, Prod.mk.injEq, hactive] at hcases
    exact absurd hcases.2.2 (by simp [supersededRow])

/-- What `indexCase` leaves of the case of its message, and of any other. -/
theorem getCase_indexCase {ports : IndexPorts γ} {case : DiagnosisCaseModel}
    {result : HandlerResult} (hfound : w.getCase event.entityId = some case)
    (h : indexCase ports event case w = (.ok result, w')) :
    (∃ row, w'.getCase event.entityId = some row ∧ row.isActive = true ∧
      row.reviewStatus = case.reviewStatus) ∧
    ∀ k, k ≠ event.entityId → w'.getCase k = w.getCase k := by
  obtain ⟨degraded, text, -, hcases⟩ := indexCase_eq_ok h
  have hget := fun k => World.getCase_congr (k := k) hcases
  refine ⟨⟨indexRow (indexedStatus degraded) true (some text) case, ?_, rfl, rfl⟩, fun k hk => ?_⟩
  · rw [hget, setCaseIndex, World.getCase_updateCase_self (indexRow_caseId _ _ _), hfound]
    rfl
  · rw [hget, setCaseIndex, World.getCase_updateCase_ne (indexRow_caseId _ _ _) hk]

/-- On a revision that was indexed, the two agree when the supersession goes through on another
case and the message is acknowledged. -/
theorem revision_agrees_iff (job : IndexJobRecord) {row : IndexJobModel}
    {case : DiagnosisCaseModel} {old : String} {result : HandlerResult}
    (hrow : w'.getJob event.jobId = some row) (hfound : w.getCase event.entityId = some case)
    (happroved : case.reviewStatus = .approved) (hold : case.supersededId = some old)
    (hindex : indexCase ports.handlers event case w = (.ok result, w'))
    (hhandle : handle ports.handlers event w = (do
      supersedeOriginal ports.handlers event case
      pure result) w') :
    deliveryState event (consumerLeaves ports event job (handle ports.handlers event w)) =
      deliveryState event (drainerLeaves event job (.ok result, w')) ↔
    ¬ (old = event.entityId ∨ SupersessionRefused ports.handlers event old w) ∧
      ¬ Mishandled ports event (handle ports.handlers event w).1 := by
  obtain ⟨degraded, text, hjobs, -⟩ := indexCase_eq_ok hindex
  obtain ⟨⟨indexed, hindexed, hactive, hstatus⟩, hothers⟩ := getCase_indexCase hfound hindex
  have hrefused : old ≠ event.entityId → (SupersessionRefused ports.handlers event old w' ↔
      SupersessionRefused ports.handlers event old w) := fun hne =>
    supersessionRefused_congr hjobs (hothers old hne)
  rcases @supersedeOriginal_cases _ event ports.handlers _ _ hold w' with
    ⟨href, e, hc, hs, hrun⟩ | ⟨hnot, w'', hsupersede, hrun⟩
  · -- the consumer records a failure, the drainer a success
    rw [hhandle, Prog.bind_of_error hrun]
    simp only [consumerLeaves, drainerLeaves, if_neg hc, if_neg hs]
    refine iff_of_false (fun h => finish_ne_fail hrow h.symm) (fun h => h.1 ?_)
    by_cases hne : old = event.entityId
    · exact Or.inl hne
    · exact Or.inr ((hrefused hne).mp href)
  · have hrow' : w''.getJob event.jobId = some row := getJob_supersedeOld hsupersede hrow
    rw [hhandle, Prog.bind_of_ok hrun]
    by_cases hack : Mishandled ports event (.ok result)
    · obtain ⟨e, hack', hc⟩ := hack
      have hjob := (getJob_finish result.status w'').trans (congrArg (Option.map _) hrow')
      simp only [Prog.pure_apply, consumerLeaves, drainerLeaves, hack', if_neg hc]
      exact iff_of_false (fun h => finish_ne_fail hjob h.symm) (fun h => h.2 ⟨e, hack', hc⟩)
    · have hquiet := (leaves_agree_iff job (.ok result, w'') hrow').mpr hack
      rw [Prog.pure_apply, hquiet]
      simp only [drainerLeaves]
      by_cases hne : old = event.entityId
      · subst hne
        exact iff_of_false (supersedeOld_self hindexed (hstatus.trans happroved) hactive hsupersede)
          (fun h => h.1 (Or.inl rfl))
      · refine iff_of_true (deliveryState_finish _ ?_) ⟨?_, hack⟩
        · exact deliveryState_supersedeOld hrow (fun h => hne h.symm) hsupersede
        · rintro (h | h)
          · exact hne h
          · exact hnot ((hrefused hne).mpr h)

theorem mishandled_iff : Mishandled ports event (handle ports.handlers event w).1 ↔
    (handle ports.handlers event w).1 = .error .stale ∨ ∃ result e,
      (handle ports.handlers event w).1 = .ok result ∧ ports.ack event = .error e ∧
        e.val ≠ .cancelled := by
  cases (handle ports.handlers event w).1 with
  | ok result => simp [Mishandled]
  | error e => simp [Mishandled]

/-- Where no revision was indexed, the two workers saw the same end of the handler. -/
theorem started_agrees_of_same (job : IndexJobRecord) {row : IndexJobModel}
    (hrow : w.getJob event.jobId = some row)
    (hsame : handleAlone ports.handlers event w = handle ports.handlers event w)
    (hrevision : ∀ case old result, event.indexesCase →
      checkCase event (w.getCase event.entityId) = .ok case → case.supersededId = some old →
      (indexCase ports.handlers event case w).1 ≠ .ok result) :
    deliveryState event (consumerLeaves ports event job (handle ports.handlers event w)) =
      deliveryState event (drainerLeaves event job (handleAlone ports.handlers event w)) ↔
    ¬ Diverges ports event w := by
  rw [hsame, leaves_agree_iff job _ (getJob_handle hrow), not_iff_not, mishandled_iff]
  constructor
  · rintro (h | ⟨result, e, h, hack, hc⟩)
    · exact .stale h
    · exact .ack result e h hack hc
  · rintro (h | ⟨result, e, h, hack, hc⟩ | ⟨case, old, result, hevent, hcheck, hold, hindex, -⟩)
    · exact Or.inl h
    · exact Or.inr ⟨result, e, h, hack, hc⟩
    · exact absurd hindex (hrevision case old result hevent hcheck hold)

/-- Where a revision was indexed, the supersession decides as well. -/
theorem diverges_iff_of_revision {case : DiagnosisCaseModel} {old : String} {result : HandlerResult}
    (hevent : event.indexesCase) (hcheck : checkCase event (w.getCase event.entityId) = .ok case)
    (hold : case.supersededId = some old)
    (hindex : (indexCase ports.handlers event case w).1 = .ok result) :
    Diverges ports event w ↔
      (old = event.entityId ∨ SupersessionRefused ports.handlers event old w) ∨
        Mishandled ports event (handle ports.handlers event w).1 := by
  rw [mishandled_iff]
  constructor
  · rintro (h | ⟨result', e, h, hack, hc⟩ | ⟨case', old', _, -, hcheck', hold', -, hrefused⟩)
    · exact Or.inr (Or.inl h)
    · exact Or.inr (Or.inr ⟨result', e, h, hack, hc⟩)
    · rw [hcheck] at hcheck'
      cases hcheck'
      rw [hold] at hold'
      cases hold'
      exact Or.inl hrefused
  · rintro (h | h | ⟨result', e, h, hack, hc⟩)
    · exact .revision case old result hevent hcheck hold hindex h
    · exact .stale h
    · exact .ack result' e h hack hc

/-- The two ways to settle a message whose job was started. -/
theorem started_agrees_iff (job : IndexJobRecord) {row : IndexJobModel}
    (hrow : w.getJob event.jobId = some row) :
    deliveryState event (consumerLeaves ports event job (handle ports.handlers event w)) =
      deliveryState event (drainerLeaves event job (handleAlone ports.handlers event w)) ↔
    ¬ Diverges ports event w := by
  by_cases hevent : event.indexesCase
  · have halone : handleAlone ports.handlers event = checkAndIndex ports.handlers event := if_pos hevent
    have hhandle := @handle_of_indexesCase _ ports.handlers _ hevent
    cases hcheck : checkCase event (w.getCase event.entityId) with
    | error e =>
        refine started_agrees_of_same job hrow ?_ (fun _ _ _ _ h => by rw [hcheck] at h; cases h)
        rw [halone, hhandle, checkAndIndex, Prog.bind_read, Prog.bind_read, hcheck]
        rfl
    | ok case =>
        have hrun : handle ports.handlers event w = (do
            let result ← indexCase ports.handlers event case
            supersedeOriginal ports.handlers event case
            pure result) w := by
          rw [hhandle, Prog.bind_read, hcheck]
          rfl
        have hrun' : handleAlone ports.handlers event w = indexCase ports.handlers event case w := by
          rw [halone, checkAndIndex, Prog.bind_read, hcheck]
          rfl
        cases hindex : indexCase ports.handlers event case w with
        | mk r w' =>
            cases r with
            | error e =>
                refine started_agrees_of_same job hrow ?_ (fun case' _ result _ h _ hindex' => ?_)
                · rw [hrun, hrun', Prog.bind_of_error hindex, hindex]
                · rw [hcheck] at h
                  cases h
                  rw [hindex] at hindex'
                  cases hindex'
            | ok result =>
                rw [Prog.bind_of_ok hindex] at hrun
                cases hold : case.supersededId with
                | none =>
                    have hquiet : supersedeOriginal ports.handlers event case = pure () := by
                      rw [supersedeOriginal, hold]
                    refine started_agrees_of_same job hrow ?_ (fun case' old _ _ h hold' => ?_)
                    · rw [hrun, hrun', hindex, hquiet]
                      rfl
                    · rw [hcheck] at h
                      cases h
                      rw [hold] at hold'
                      cases hold'
                | some old =>
                    obtain ⟨hfound, -, happroved⟩ := checkCase_status hcheck
                    have hop : event.operation ≠ .tombstone := by
                      rcases hevent.2 with hop | hop <;> rw [hop] <;> simp
                    rw [if_neg hop] at happroved
                    obtain ⟨_, _, hjobs, -⟩ := indexCase_eq_ok hindex
                    rw [hrun', hindex, revision_agrees_iff job ((World.getJob_congr hjobs).trans hrow)
                      hfound happroved hold hindex hrun, ← not_or, not_iff_not]
                    exact (diverges_iff_of_revision hevent hcheck hold
                      (congrArg Prod.fst hindex)).symm
  · have halone : handleAlone ports.handlers event = handle ports.handlers event := if_neg hevent
    exact started_agrees_of_same job hrow (congrFun halone w) (fun _ _ _ h => absurd h hevent)

/-! ## Whole deliveries -/

theorem startJob_of_ok {jobId : String} {rec : Option IndexJobRecord}
    (h : start jobId w = .ok (rec, w')) : startJob jobId w = (.ok rec, w') := by
  rw [startJob, Prog.transaction, h]

theorem startJob_of_error {jobId : String} {e : RepositoryError}
    (h : start jobId w = .error e) : startJob jobId w = (.error (.start e), w) := by
  rw [startJob, Prog.transaction, h]

theorem snd_ofHandler {α : Type} (x : Handler γ α) (w : World γ) : (ofHandler x w).2 = (x w).2 := by
  unfold ofHandler
  cases x w with
  | mk r w' => cases r <;> rfl

theorem groups_single (item : PendingMessage) : groups [item] = [[item]] := by
  simp [groups]

theorem consume_started {job : IndexJobRecord} (h : start event.jobId w = .ok (some job, w'))
    (hopen : job.row.status.finished = false) :
    (consume ports event w).2 = (work ports event job w').2 := by
  unfold consume
  rw [Prog.bind_of_ok (startJob_of_ok h)]
  simp only [hopen, Bool.false_eq_true, if_false]
  exact snd_ofHandler _ _

theorem drain_started {job : IndexJobRecord} (h : start event.jobId w = .ok (some job, w'))
    (hopen : job.row.status.finished = false) :
    (drain ports [event] w).2 =
      (process ports [⟨event, job.row.attemptCount, job.row.maxAttempts⟩] w').2 := by
  have hstart : startAll ports [event] w =
      (.ok [⟨event, job.row.attemptCount, job.row.maxAttempts⟩], w') := by
    unfold startAll
    rw [Prog.bind_of_ok (startJob_of_ok h)]
    simp only [hopen, Bool.false_eq_true, if_false]
    rfl
  unfold drain
  rw [Prog.bind_of_ok hstart, groups_single]
  exact (Prog.bind_pure_snd _ _ _).trans (snd_ofHandler _ _)

theorem getJob_start {jobId : String} {job : IndexJobRecord}
    (h : start jobId w = .ok (some job, w')) : ∃ row, w'.getJob jobId = some row := by
  rcases start_cases h with ⟨-, hnone, -⟩ | ⟨row, rec, hrow, -, ⟨-, -, rfl⟩ | ⟨-, -, rfl⟩⟩
  · cases hnone
  · exact ⟨row, hrow⟩
  · have hkey : ∀ row, (startedJob row).jobId = row.jobId := fun _ => rfl
    exact ⟨startedJob row, by rw [World.getJob_updateJob_self hkey, hrow]; rfl⟩

/-- A message whose job is not started: its record is invalid, there is none, or it is finished. -/
theorem not_started (h : ∀ job w', start event.jobId w = .ok (some job, w') →
    job.row.status.finished = true) :
    SameEntities w (consume ports event w).2 ∧ SameEntities w (drain ports [event] w).2 := by
  cases hstart : start event.jobId w with
  | error e =>
      have hrun := startJob_of_error hstart
      unfold consume drain startAll
      rw [Prog.bind_of_error hrun, Prog.bind_of_error (Prog.bind_of_error hrun)]
      exact ⟨.refl w, .refl w⟩
  | ok p =>
      obtain ⟨rec, w'⟩ := p
      have hrun := startJob_of_ok hstart
      have hw : w' = w := by
        rcases start_cases hstart with
          ⟨-, -, rfl⟩ | ⟨row, job, -, rfl, ⟨-, -, rfl⟩ | ⟨hopen, hrow, -⟩⟩
        · rfl
        · rfl
        · have hfinished := h job w' hstart
          rw [hrow] at hfinished
          cases hfinished
      subst hw
      cases rec with
      | none =>
          have hnone : startAll ports [event] w' = (.ok [], settle event w') := by
            rw [startAll, Prog.bind_of_ok hrun]
            rfl
          constructor
          · rw [consume, Prog.bind_of_ok hrun]
            simp only [snd_ofHandler]
            exact (Prog.Keeps.bind keeps_publishFailed (fun _ => keeps_ackMessage)).snd (.refl w')
          · rw [drain, Prog.bind_of_ok hnone]
            exact ⟨rfl, rfl, rfl, rfl⟩
      | some job =>
          have hfinished := h job w' hstart
          constructor
          · rw [consume, Prog.bind_of_ok hrun]
            simp only [hfinished, if_true, snd_ofHandler]
            exact sameEntities_ackMessage
          · rw [drain, startAll, Prog.bind_assoc, Prog.bind_of_ok hrun]
            simp only [hfinished, if_true]
            cases hack : ports.lastAck event with
            | ok u => exact ⟨rfl, rfl, rfl, rfl⟩
            | error e => exact .refl w'

/-- **When the drainer does what the consumer does.** A delivery leaves the job and the entity of
its message alike, whichever of the two takes it, exactly when the job is not started at all or
the handler's end is none of those in `Diverges`. -/
theorem drain_agrees_iff (ports : ConsumerPorts γ) (event : IndexJobMessage) (w : World γ) :
    deliveryState event (drain ports [event] w).2 = deliveryState event (consume ports event w).2 ↔
      ∀ job w', start event.jobId w = .ok (some job, w') → job.row.status.finished = false →
        ¬ Diverges ports event w' := by
  by_cases hstarted : ∃ job w', start event.jobId w = .ok (some job, w') ∧
      job.row.status.finished = false
  · obtain ⟨job, w', hstart, hopen⟩ := hstarted
    obtain ⟨row, hrow⟩ := getJob_start hstart
    rw [consume_started hstart hopen, drain_started hstart hopen,
      (sameEntities_work job).deliveryState, (sameEntities_process job).deliveryState, eq_comm,
      started_agrees_iff job hrow]
    constructor
    · intro h job' w'' hstart' _
      rw [hstart] at hstart'
      cases hstart'
      exact h
    · exact fun h => h job w' hstart hopen
  · have hnot : ∀ job w', start event.jobId w = .ok (some job, w') →
        job.row.status.finished = true := by
      intro job w' hstart
      by_contra hopen
      exact hstarted ⟨job, w', hstart, by simpa using hopen⟩
    obtain ⟨hconsume, hdrain⟩ := @not_started γ ports event w hnot
    refine iff_of_true (hdrain.deliveryState.trans hconsume.deliveryState.symm) ?_
    intro job w' hstart hopen
    exact absurd ⟨job, w', hstart, hopen⟩ hstarted

/-! ### A message that came too late -/

/-- A verified ticket that was written again after its message was queued. -/
def renewedTicket : MaintenanceTicketModel where
  ticketId := "ticket-1"
  deviceModel := "inverter"
  alarmName := "over temperature"
  faultSymptom := "hot"
  rootCause := "blocked fan"
  actionTaken := "cleaned"
  isVerified := true
  closeTime := none
  manufacturer := none
  embeddingText := none
  indexStatus := .queued
  indexErrorCode := none
  indexGeneration := some "generation-2"
  indexed := false

/-- The message of the ticket's first generation. -/
def lateMessage : IndexJobMessage where
  jobId := "job-1"
  entityType := .maintenanceTicket
  entityId := "ticket-1"
  entityVersion := "generation-1"
  operation := .upsert
  traceId := "trace"
  correlationId := "ticket-1"
  causationId := "import"

def lateJob : IndexJobModel where
  jobId := "job-1"
  entityType := .maintenanceTicket
  entityId := "ticket-1"
  entityVersion := "generation-1"
  operation := .upsert
  status := .queued
  attemptCount := 0
  maxAttempts := defaultMaxAttempts
  traceId := "trace"
  correlationId := "ticket-1"
  causationId := "import"
  lastErrorCode := none
  lastErrorMessage := none

def lateWorld : World Unit :=
  { World.empty () with tickets := [renewedTicket], jobs := [lateJob] }

/-- Providers and a broker that always answer. -/
def quietConsumer : ConsumerPorts Unit where
  handlers := quietPorts
  publish := fun _ => .applied
  ack := fun _ => .ok ()
  lastAck := fun _ => .ok ()

/-- The consumer closes the job as `STALE`; the drainer queues it again with an error code. -/
theorem drain_retries_stale :
    ¬ ∀ (ports : ConsumerPorts Unit) (event : IndexJobMessage) (w : World Unit),
      deliveryState event (drain ports [event] w).2 =
        deliveryState event (consume ports event w).2 := by
  intro h
  have hlate := h quietConsumer lateMessage lateWorld
  have hstart : start lateMessage.jobId lateWorld =
      .ok (some ⟨startedJob lateJob, by decide⟩, lateWorld.updateJob "job-1" startedJob) := rfl
  rw [drain_started hstart rfl, (sameEntities_process _).deliveryState] at hlate
  revert hlate
  decide

end EnergyAgent.Indexing
