import EnergyAgent.Cases.Writes

/-!
# What the workers do to the cases

The index workers keep the contract of `Cases.Writes`: a worker that sets a case active has seen it
approved, and its only change of a review status is that of `_queue_superseded_case`. With them every
thread keeps it, which is `writes_of_reachable`.
-/

namespace EnergyAgent.Cases

open EnergyAgent.Core EnergyAgent.Lib EnergyAgent.Persistence EnergyAgent.Indexing

variable {γ : Type}

/-! ## Handlers -/

section workers

variable {s : World γ}

theorem leavesCases_projectCase {ports : IndexPorts γ} {event : IndexJobMessage}
    {case : DiagnosisCaseModel} : LeavesCases (projectCase ports event case) :=
  leavesCases_of_sameButGraph fun _ => keeps_projectCase

/-- `_set_case_index` -/
theorem write_setCaseIndex {w : World γ} {k : String} {status : IndexStatus} {active : Bool}
    {text : Option String} {kind : AccessKind}
    (hactive : active = true → kind = .activation k ∧ WasApproved k w) :
    CaseWrite w (setCaseIndex k status active text w) kind := by
  refine write_of_update (f := indexRow status active text) (fun r => rfl) rfl rfl fun row hrow => ?_
  refine .index rfl rfl ⟨rfl, rfl, rfl, rfl, rfl⟩ fun ha => ?_
  obtain ⟨hkind, row', hrow', haccepted⟩ := hactive ha
  obtain rfl : row = row' := Option.some.inj (hrow.symm.trans hrow')
  exact ⟨hkind.trans (by rw [getCase_caseId hrow]), haccepted⟩

theorem safe_activate {jobId caseId text : String} {degraded : Bool} (h : WasApproved caseId s) :
    (Interleaved.activate jobId caseId degraded text).Safe caseWrites (fun _ _ => True) s :=
  .atomic (stable_wasApproved caseId) (fun _ => .true) trivial h fun _ _ hw =>
    ⟨trivial, write_setCaseIndex fun _ => ⟨rfl, hw⟩, fun _ _ => trivial⟩

/-- `_queue_superseded_case` -/
theorem safe_supersedeOriginal {ports : IndexPorts γ} {event : IndexJobMessage}
    {case : DiagnosisCaseModel} :
    (Interleaved.supersedeOriginal ports event case).Safe caseWrites (fun _ _ => True) s := by
  unfold Interleaved.supersedeOriginal
  split
  · next old _ =>
      refine .atomic .true (fun _ => .true) trivial trivial fun w _ _ =>
        ⟨trivial, ?_, fun _ _ => trivial⟩
      cases hrun : queueSupersededCase ports event old w with
      | mk r w' =>
          unfold queueSupersededCase at hrun
          rcases Prog.bind_cases hrun with ⟨e, hraise, -⟩ | ⟨_, w₁, hraise, hqueue⟩
          · obtain ⟨rfl, -⟩ := Prog.raiseIf_cases hraise
            exact .quiet rfl rfl
          · obtain ⟨rfl, -⟩ := Prog.raiseIf_cases hraise
            rcases transaction_cases (supersedeOld event (ports.newJobId event).val old) w₁ with
              ⟨e, htx⟩ | ⟨_, w₂, hsupersede, htx⟩
            · rw [htx] at hqueue
              cases hqueue
              exact .quiet rfl rfl
            · rw [htx] at hqueue
              cases hqueue
              rcases supersedeOld_cases hsupersede with ⟨rfl, -⟩ | ⟨row, rec, hrow, happroved, hadd⟩
              · exact .quiet rfl rfl
              · obtain ⟨hcases, hevents⟩ := addJob_caseTables hadd
                refine .row hrow ?_ (rewrites_of_update (f := supersededRow)
                  (fun r => rfl) hrow hcases (by rw [hevents]; exact (List.append_nil _).symm))
                rw [← getCase_caseId hrow]
                exact .supersession happroved rfl
  · exact .pure fun _ _ => trivial

/-- `_case`: an upsert has seen the case approved. -/
theorem safe_handleCase {ports : IndexPorts γ} {event : IndexJobMessage} :
    (Interleaved.handleCase ports event).Safe caseWrites (fun _ _ => True) s := by
  unfold Interleaved.handleCase
  have hread : (Interleaved.work event.jobId (Prog.read (·.getCase event.entityId)) :
      HandlerThread γ _).Safe caseWrites
        (fun found w => ∀ row, found = some row → HasRead event.entityId row w) s := by
    refine .atomic .true (fun found w w' haccess h row hrow =>
      stable_hasRead _ _ w w' haccess (h row hrow)) trivial trivial fun w _ _ =>
        ⟨trivial, .quiet rfl rfl, ?_⟩
    rintro found ⟨⟩ row hrow
    exact hasRead_of_getCase hrow
  refine hread.bind trivial fun found t _ hfound => ?_
  cases hcheck : checkCase event found with
  | error e => exact .raise
  | ok case =>
      obtain ⟨hsome, -, hstatus⟩ := checkCase_status hcheck
      have hcase := hfound case hsome
      show (if event.operation = .tombstone then Interleaved.tombstoneCase ports event case
        else Interleaved.upsertCase ports event case).Safe _ _ _
      split
      · unfold Interleaved.tombstoneCase
        refine (safe_quiet (leavesCases_callOutcome (f := dropCaseVector case.caseId)
          fun _ => ⟨rfl, rfl⟩)).bind trivial fun _ u _ _ => ?_
        refine (safe_quiet (leavesCases_of_sameButGraph fun _ => keeps_unprojectCase)).bind trivial
          fun degraded v _ _ => ?_
        refine Thread.Safe.seq .true ?_ trivial trivial fun _ _ _ _ =>
          .pure fun _ _ => trivial
        exact .atomic .true (fun _ => .true) trivial trivial fun w _ _ =>
          ⟨trivial, write_setCaseIndex nofun, fun _ _ => trivial⟩
      · next hop =>
          rw [if_neg hop] at hstatus
          have haccepted : WasApproved event.entityId t := hcase.accepted (by rw [hstatus]; rfl)
          have hstable := stable_wasApproved (γ := γ) event.entityId
          unfold Interleaved.upsertCase
          refine .seq hstable (.lift fun _ _ _ _ => trivial) trivial haccepted fun text u _ hu => ?_
          refine .seq hstable (.lift fun _ _ _ _ => trivial) trivial hu fun vector v _ hv => ?_
          refine .seq hstable (safe_quiet ?_) trivial hv fun _ x _ hx => ?_
          · exact leavesCases_callOutcome (upsertCollection_caseTables _ _)
          refine .seq hstable (safe_quiet leavesCases_projectCase) trivial hx fun degraded y _ hy => ?_
          refine (safe_activate hy).bind trivial fun _ z _ _ => ?_
          exact safe_supersedeOriginal.bind trivial fun _ _ _ _ => .pure fun _ _ => trivial


/-- The other entities do not touch the cases. -/
theorem leavesCases_handle {ports : IndexPorts γ} {event : IndexJobMessage}
    (htype : event.entityType ≠ .diagnosisCase) : LeavesCases (Indexing.handle ports event) := by
  refine LeavesCases.of_keeps fun w => ?_
  have hcore : ∀ {u v : World γ}, SameCore u v →
      (u.cases = w.cases ∧ u.caseEvents = w.caseEvents) →
      v.cases = w.cases ∧ v.caseEvents = w.caseEvents :=
    fun hsame h => ⟨hsame.cases.trans h.1, hsame.caseEvents.trans h.2⟩
  unfold Indexing.handle
  cases hentity : event.entityType with
  | manualDocument => exact keeps_handleManual hcore
  | maintenanceTicket => exact keeps_handleTicket hcore
  | diagnosisCase => exact absurd hentity htype
  | templateGraph => exact .raise _

/-- `handle` -/
theorem safe_handle {ports : IndexPorts γ} {event : IndexJobMessage} :
    (Interleaved.handle ports event).Safe caseWrites (fun _ _ => True) s := by
  unfold Interleaved.handle
  split
  · exact safe_handleCase
  · next htype => exact safe_quiet (leavesCases_handle htype)

/-! ## The consumer -/

variable {ports : ConsumerPorts γ} {event : IndexJobMessage}

theorem safe_ofHandler {α : Type} {x : HandlerThread γ α}
    (h : x.Safe caseWrites (fun _ _ => True) s) :
    (Interleaved.ofHandler x).Safe caseWrites (fun _ _ => True) s :=
  .handle .true h trivial trivial fun _ _ _ _ => .raise

theorem leavesCases_ackMessage {outcome : Except PortError Unit} :
    LeavesCases (ackMessage outcome event : Handler γ Unit) :=
  LeavesCases.of_keeps fun _ => .bind (.lift _) fun _ => .write fun _ h => h

theorem safe_ack {jobId : String} {outcome : Except PortError Unit} :
    (Interleaved.work jobId (ackMessage outcome event)).Safe caseWrites (fun _ _ => True) s :=
  safe_quiet leavesCases_ackMessage

theorem safe_publishAndAck {dead : Bool} :
    (Interleaved.publishAndAck event ports dead).Safe caseWrites (fun _ _ => True) s := by
  unfold Interleaved.publishAndAck
  refine (safe_quiet (leavesCases_callOutcome fun w => ?_)).bind trivial fun _ _ _ _ => safe_ack
  cases dead <;> exact ⟨rfl, rfl⟩

/-- `finish` -/
theorem safe_finish {ε : Type} {jobId : String} {status : IndexJobStatus} :
    (Interleaved.workAs jobId .finish (Prog.write (finish jobId status)) :
      Thread Access (World γ) ε Unit).Safe caseWrites (fun _ _ => True) s :=
  safe_quiet fun _ => ⟨rfl, rfl⟩

/-- `fail`: the case of a job that is given up is set inactive. -/
theorem write_fail {jobId errorCode errorMessage : String} {retry : Bool} (w : World γ) :
    CaseWrite w (fail jobId errorCode errorMessage retry w) .finish := by
  unfold fail
  cases w.getJob jobId with
  | none => exact .quiet rfl rfl
  | some job =>
      cases retry with
      | true => exact .quiet rfl rfl
      | false =>
          show CaseWrite w (failEntity job errorCode (w.updateJob jobId _)) .finish
          unfold failEntity
          cases job.entityType with
          | diagnosisCase =>
              refine write_of_update (f := failedCase errorCode) (fun r => rfl) rfl rfl fun row _ => ?_
              exact .index rfl rfl ⟨rfl, rfl, rfl, rfl, rfl⟩ nofun
          | maintenanceTicket => exact .quiet rfl rfl
          | manualDocument => exact .quiet rfl rfl
          | templateGraph => exact .quiet rfl rfl

theorem safe_failMessage {attemptCount : Nat} {maxAttempts : MaxAttempts} {e : HandlerError} :
    (Interleaved.failMessage event ports attemptCount maxAttempts e).Safe caseWrites
      (fun _ _ => True) s := by
  unfold Interleaved.failMessage
  have hfail : (Interleaved.workAs event.jobId .finish (Prog.write (fail event.jobId e.code e.typeName
      (!deadLettered attemptCount maxAttempts e))) : HandlerThread γ Unit).Safe caseWrites
        (fun _ _ => True) s :=
    .atomic .true (fun _ => .true) trivial trivial fun w _ _ =>
      ⟨trivial, write_fail w, fun _ _ => trivial⟩
  exact hfail.bind trivial fun _ _ _ _ => safe_publishAndAck

theorem safe_finishMessage {status : IndexJobStatus} :
    (Interleaved.finishMessage event ports status).Safe caseWrites (fun _ _ => True) s := by
  unfold Interleaved.finishMessage
  exact safe_finish.bind trivial fun _ _ _ _ => safe_ack

theorem safe_start {jobId : String} :
    (Interleaved.workAs jobId .start (startJob jobId) : WorkerThread γ _).Safe caseWrites
      (fun _ _ => True) s := by
  refine safe_quiet fun w => ?_
  unfold startJob
  rcases transaction_cases _ w with ⟨e, hrun⟩ | ⟨rec, w', hstart, hrun⟩
  · rw [hrun]
    exact ⟨rfl, rfl⟩
  · rw [hrun]
    split at hstart
    · next result hok =>
        cases hstart
        rcases start_cases hok with ⟨-, -, rfl⟩ | ⟨_, _, -, -, ⟨-, -, rfl⟩ | ⟨-, -, rfl⟩⟩ <;>
          exact ⟨rfl, rfl⟩
    · cases hstart

/-- `consume` -/
theorem safe_consume : (Interleaved.consume event ports).Safe caseWrites (fun _ _ => True) s := by
  unfold Interleaved.consume
  refine safe_start.bind trivial fun job t _ _ => ?_
  cases job with
  | none => exact safe_ofHandler safe_publishAndAck
  | some job =>
      show (if job.row.status.finished = true then _ else _ : WorkerThread γ Unit).Safe _ _ _
      split
      · exact safe_ofHandler safe_ack
      · refine safe_ofHandler ?_
        unfold Interleaved.tryStatement
        refine .handle .true ?_ trivial trivial fun e u _ _ => ?_
        · exact safe_handle.bind trivial fun _ _ _ _ => safe_finishMessage
        · unfold Interleaved.exceptBranch
          cases e with
          | cancelled => exact .raise
          | stale => exact safe_finish.bind trivial fun _ _ _ _ => safe_ack
          | _ => exact safe_failMessage

/-! ## The batch drainer -/

theorem safe_startAll (events : List IndexJobMessage) {s : World γ} :
    (Interleaved.startAll ports events).Safe caseWrites (fun _ _ => True) s := by
  induction events generalizing s with
  | nil => exact .pure fun _ _ => trivial
  | cons event events ih =>
      unfold Interleaved.startAll
      refine safe_start.bind trivial fun job t _ _ => ?_
      cases job with
      | none =>
          refine (safe_quiet ?_).bind trivial fun _ _ _ _ => ih
          exact .write fun _ => ⟨rfl, rfl⟩
      | some job =>
          show (if job.row.status.finished = true then _ else _ : WorkerThread γ _).Safe _ _ _
          split
          · exact (safe_ofHandler safe_ack).bind trivial fun _ _ _ _ => ih
          · exact ih.bind trivial fun _ _ _ _ => .pure fun _ _ => trivial

theorem safe_handleEach (events : List IndexJobMessage) {s : World γ} :
    (Interleaved.handleEach ports events).Safe caseWrites (fun _ _ => True) s := by
  induction events generalizing s with
  | nil => exact .pure fun _ _ => trivial
  | cons event events ih =>
      exact safe_handle.bind trivial fun _ _ _ _ => ih.bind trivial fun _ _ _ _ =>
        .pure fun _ _ => trivial

/-- All cases of the tasks have been approved. -/
def AllApproved (tasks : List CaseTask) (w : World γ) : Prop :=
  ∀ task ∈ tasks, WasApproved task.event.entityId w

theorem stable_allApproved (tasks : List CaseTask) :
    caseWrites.Stable (AllApproved (γ := γ) tasks) :=
  fun w w' haccess h task htask => stable_wasApproved _ w w' haccess (h task htask)

theorem safe_indexCases (tasks : List CaseTask) {s : World γ} (h : AllApproved tasks s) :
    (Interleaved.indexCases ports tasks).Safe caseWrites (fun _ _ => True) s := by
  induction tasks generalizing s with
  | nil => exact .pure fun _ _ => trivial
  | cons task tasks ih =>
      have hstable := stable_allApproved (γ := γ) (task :: tasks)
      unfold Interleaved.indexCases
      refine .seq hstable (safe_quiet leavesCases_projectCase) trivial h fun degraded t _ ht => ?_
      refine .seq hstable (safe_activate (ht task List.mem_cons_self)) trivial ht fun _ u _ hu => ?_
      exact (ih fun t ht => hu t (List.mem_cons_of_mem _ ht)).bind trivial fun _ _ _ _ =>
        .pure fun _ _ => trivial

/-- `_case_batch`: every case of the batch was approved when it was read. -/
theorem safe_caseBatch {events : List IndexJobMessage}
    (hop : ∀ e ∈ events, e.operation ≠ .tombstone) {s : World γ} :
    (Interleaved.caseBatch ports events).Safe caseWrites (fun _ _ => True) s := by
  have horder : (Thread.atomic {} (Prog.read fun w => orderCases w events) : HandlerThread γ _).Safe
      caseWrites (fun ordered w => ∀ tasks, ordered = .ok tasks → AllApproved tasks w) s := by
    refine .atomic .true (fun ordered w w' haccess h tasks htasks =>
      stable_allApproved tasks w w' haccess (h tasks htasks)) trivial trivial fun w _ _ =>
        ⟨trivial, .quiet rfl rfl, ?_⟩
    rintro ordered ⟨⟩ tasks htasks task htask
    obtain ⟨hcase, happroved⟩ := orderCases_approved hop htasks task htask
    exact ⟨task.case, hcase, by rw [happroved]; rfl⟩
  unfold Interleaved.caseBatch
  refine horder.bind trivial fun ordered t _ hordered => ?_
  cases ordered with
  | error e => exact .raise
  | ok tasks =>
      have hstable := stable_allApproved (γ := γ) tasks
      show (Thread.lift (tasks.mapM fun task => ports.handlers.embedText task.text) >>= fun vectors =>
        Thread.atomic {} (vectorUpsert ports.handlers .case (caseVectors tasks vectors)) >>= fun _ =>
          Interleaved.indexCases ports tasks : HandlerThread γ _).Safe caseWrites _ t
      refine .seq hstable (.lift fun _ _ _ _ => trivial) trivial (hordered tasks rfl)
        fun vectors u _ hu => ?_
      refine .seq hstable (safe_quiet ?_) trivial hu fun _ v _ hv => safe_indexCases tasks hv
      exact leavesCases_callOutcome (upsertCollection_caseTables _ _)

/-- `handle_batch` -/
theorem safe_handleBatch {events : List IndexJobMessage} {s : World γ} :
    (Interleaved.handleBatch ports events).Safe caseWrites (fun _ _ => True) s := by
  unfold Interleaved.handleBatch
  cases htype : batchType events with
  | none => exact safe_handleEach events
  | some type =>
      cases type with
      | maintenanceTicket =>
          refine safe_quiet (LeavesCases.of_keeps fun w => keeps_ticketBatch ?_)
          exact fun hsame h => ⟨hsame.cases.trans h.1, hsame.caseEvents.trans h.2⟩
      | diagnosisCase => exact safe_caseBatch fun e he => (batchType_eq_some htype e he).2
      | manualDocument => exact safe_handleEach events
      | templateGraph => exact safe_handleEach events

theorem safe_finishAll {results : BatchResults} (items : List PendingMessage) {s : World γ} :
    (Interleaved.finishAll ports results items).Safe caseWrites (fun _ _ => True) s := by
  induction items generalizing s with
  | nil => exact .pure fun _ _ => trivial
  | cons item items ih =>
      unfold Interleaved.finishAll
      cases resultOf results item.event.jobId with
      | none => exact .raise
      | some result => exact safe_finishMessage.bind trivial fun _ _ _ _ => ih

/-- `_process`, by the length of the batch. -/
theorem safe_process (n : Nat) : ∀ (pending : List PendingMessage) {s : World γ},
    pending.length = n → (Interleaved.process ports pending).Safe caseWrites (fun _ _ => True) s := by
  induction n using Nat.strong_induction_on with
  | _ n ih =>
      rintro pending s hlength
      rw [Interleaved.process]
      have hbatch : (Interleaved.outcome (Interleaved.handleBatch ports
          (pending.map (·.event)))).Safe caseWrites (fun _ _ => True) s :=
        .handle .true (safe_handleBatch.bind trivial fun _ _ _ _ => .pure fun _ _ => trivial) trivial
          trivial fun _ _ _ _ => .pure fun _ _ => trivial
      refine hbatch.bind trivial fun result t _ _ => ?_
      cases result with
      | ok results => exact safe_finishAll pending
      | error e =>
          show (if e = .cancelled then _ else _ : HandlerThread γ Unit).Safe _ _ _
          split
          · exact .raise
          · rcases pending with _ | ⟨item, _ | ⟨item', items⟩⟩
            · exact .pure fun _ _ => trivial
            · exact safe_failMessage
            · rw [List.length_cons, List.length_cons] at hlength
              have htake : ((item :: item' :: items).take ((items.length + 2) / 2)).length < n := by
                simp only [List.length_take, List.length_cons]
                omega
              have hdrop : ((item :: item' :: items).drop ((items.length + 2) / 2)).length < n := by
                simp only [List.length_drop, List.length_cons]
                omega
              exact (ih _ htake _ rfl).bind trivial fun _ _ _ _ => ih _ hdrop _ rfl

/-- `drain` -/
theorem safe_drain {messages : List IndexJobMessage} :
    (Interleaved.drain ports messages).Safe caseWrites (fun _ _ => True) s := by
  have hgroups : ∀ (groups : List (List PendingMessage)) (t : World γ),
      (groups.forM fun group => Interleaved.ofHandler (Interleaved.process ports group) :
        WorkerThread γ PUnit).Safe caseWrites (fun _ _ => True) t := by
    intro groups
    induction groups with
    | nil => exact fun t => .pure fun _ _ => trivial
    | cons group groups ih =>
        exact fun t => (safe_ofHandler (safe_process _ group rfl)).bind trivial fun _ u _ _ => ih u
  unfold Interleaved.drain
  exact (safe_startAll messages).bind trivial fun pending t _ _ => hgroups _ t

end workers

/-! ## The system -/

section system

variable {s : World γ}

theorem receiveAll_caseTables (events : List IndexJobMessage) (w : World γ) :
    (receiveAll events w).cases = w.cases ∧ (receiveAll events w).caseEvents = w.caseEvents := by
  unfold receiveAll
  induction events generalizing w with
  | nil => exact ⟨rfl, rfl⟩
  | cons event events ih => exact ih (receive event w)

theorem safe_worker {events : List IndexJobMessage} {x : WorkerThread γ Unit}
    (h : ∀ t, x.Safe caseWrites (fun _ _ => True) t) :
    (Interleaved.worker events x).Safe caseWrites (fun _ _ => True) s := by
  unfold Interleaved.worker
  refine .seq .true (safe_quiet fun w => ?_) trivial trivial fun given t _ _ => ?_
  · by_cases hsub : events.Subperm w.queue
    · rw [if_pos hsub]
      exact receiveAll_caseTables events w
    · rw [if_neg hsub]
      exact ⟨rfl, rfl⟩
  · cases given with
    | false => exact .pure fun _ _ => trivial
    | true =>
        refine Thread.Safe.handle .true (h t) trivial trivial fun e u _ _ => ?_
        refine .seq .true (safe_quiet ?_) trivial trivial fun _ _ _ _ => .raise
        exact .write fun _ => ⟨rfl, rfl⟩

theorem safe_publish {outboxId : Nat} {outcome : PublishOutcome} :
    (Interleaved.publish outboxId outcome).Safe caseWrites (fun _ _ => True) s := by
  have hrequeue : ∀ (event : IndexJobMessage) (t : World γ), (Thread.atomic {}
      (Prog.write (requeue event)) : WorkerThread γ Unit).Safe caseWrites (fun _ _ => True) t := by
    refine fun _ _ => safe_quiet ?_
    exact .write fun _ => ⟨rfl, rfl⟩
  have hfailed : ∀ (id : Nat) (code : String) (t : World γ), (Thread.atomic {}
      (Prog.write (markPublishFailed id code)) : WorkerThread γ Unit).Safe caseWrites
        (fun _ _ => True) t := by
    refine fun _ _ _ => safe_quiet ?_
    exact .write fun _ => ⟨rfl, rfl⟩
  unfold Interleaved.publish
  refine (safe_quiet (.read _)).bind trivial fun found t _ _ => ?_
  cases found with
  | none => exact .pure fun _ _ => trivial
  | some row =>
      show (if row.publishStatus = .pending then _ else _ : WorkerThread γ Unit).Safe _ _ _
      split
      · cases outcome with
        | published =>
            refine (hrequeue _ t).bind trivial fun _ u _ _ => safe_quiet ?_
            exact .write fun _ => ⟨rfl, rfl⟩
        | failed => exact hfailed _ _ t
        | unmarked => exact (hrequeue _ t).bind trivial fun _ u _ _ => hfailed _ _ u
      · exact .pure fun _ _ => trivial

theorem safe_requestIndex {request : IndexJobCreate} {jobId : NewId} :
    (Interleaved.requestIndex request jobId).Safe caseWrites (fun _ _ => True) s := by
  unfold Interleaved.requestIndex
  split
  · exact .pure fun _ _ => trivial
  · refine safe_quiet fun w => ?_
    rcases transaction_cases _ w with ⟨e, hrun⟩ | ⟨a, w', hadd, hrun⟩
    · rw [hrun]
      exact ⟨rfl, rfl⟩
    · rw [hrun]
      split at hadd
      · next hjob =>
          cases hadd
          exact addJob_caseTables hjob
      · cases hadd

theorem safe_detached {ε α : Type} {x : Thread Access (World γ) ε α}
    (h : x.Safe caseWrites (fun _ _ => True) s) :
    (Interleaved.detached x).Safe caseWrites (fun _ _ => True) s :=
  .handle .true (h.bind trivial fun _ _ _ _ => .pure fun _ _ => trivial) trivial trivial
    fun _ _ _ _ => .pure fun _ _ => trivial

/-- **Everything that goes on keeps the contract.** -/
theorem safe_activity (settings : CaseSettings) (label : Label γ) :
    (Interleaved.activity settings label).Safe caseWrites (fun _ _ => True) s := by
  cases label with
  | api call r => exact safe_detached (safe_request settings call r)
  | requestIndex r jobId => exact safe_detached safe_requestIndex
  | ingest tickets documents chunks =>
      refine safe_quiet ?_
      exact .write fun _ => ⟨rfl, rfl⟩
  | retry jobId traceId =>
      refine safe_quiet (.write fun w => ?_)
      unfold Indexing.retry
      split
      · exact ⟨rfl, rfl⟩
      · split <;> exact ⟨rfl, rfl⟩
  | publish outboxId outcome => exact safe_detached safe_publish
  | consume ports event => exact safe_detached (safe_worker fun _ => safe_consume)
  | drain ports events => exact safe_detached (safe_worker fun _ => safe_drain)

/-- **What a step does to the cases**, in any state that is reached. -/
theorem writes_of_reachable {settings : CaseSettings}
    {ok : Threads Access (World γ) Empty Unit → Threads.Move (Label γ) → Prop}
    {p q : Threads Access (World γ) Empty Unit} {m : Threads.Move (Label γ)}
    (hreach : (interleaved settings).ReachableVia ok p) (hstep : (interleaved settings).step p m = some q) :
    q.store = p.store ∨ ∃ mark, p.access m = some mark ∧ CaseWrite p.store q.store mark.kind := by
  have hbody : ∀ (label : Label γ) (s : World γ), caseWrites.keeps s →
      (Interleaved.activity settings label).Safe caseWrites (fun _ _ => True) s :=
    fun label s _ => safe_activity settings label
  have hsafe := Threads.allSafe_of_reachable (C := caseWrites) (fun _ _ => trivial) hbody hreach
  exact (hsafe.step hbody hstep).2

/-- `P` holds of every stored case. -/
def EveryCase (P : DiagnosisCaseModel → Prop) (w : World γ) : Prop :=
  ∀ k row, w.getCase k = some row → P row

/-- **The rule for invariants of rows**: what holds of new drafts, and of a row after each write that
meets the condition, holds of every case in every state that is reached. -/
theorem everyCase_of_reachable {settings : CaseSettings} {P : DiagnosisCaseModel → Prop}
    {ok : Threads Access (World γ) Empty Unit → Threads.Move (Label γ) → Prop}
    (hnew : ∀ row, NewDraftRow row → P row)
    (hwrite : ∀ p m mark k row row' events, ok p m → p.access m = some mark →
      p.store.getCase k = some row → P row → RowWrite row row' events mark.kind → P row')
    {p : Threads Access (World γ) Empty Unit} (h : (interleaved settings).ReachableVia ok p) :
    EveryCase P p.store := by
  induction h with
  | init hinit =>
      intro k row hrow
      simp [World.getCase, hinit.1.1, Table.get] at hrow
  | @step p q m hreach hok hstep ih =>
      intro k row' hrow'
      rcases writes_of_reachable hreach hstep with hsame | ⟨mark, haccess, hcase⟩
      · rw [hsame] at hrow'
        exact ih k row' hrow'
      · rcases hcase.getCase_of hrow' with ⟨-, hdraft⟩ | ⟨row, hrow, rfl | ⟨events, hwritten⟩⟩
        · exact hnew row' hdraft
        · exact ih k row' hrow
        · exact hwrite p m mark k row row' events hok haccess hrow (ih k row hrow) hwritten

end system

end EnergyAgent.Cases
