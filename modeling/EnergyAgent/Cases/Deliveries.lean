import EnergyAgent.Cases.Consumers

/-!
# What becomes of a delivery

A delivery is answered when `consume` returns: the message is acknowledged, and the job is done or
queued with its message published once more. `start` counts the attempt first and compares it with the
limit then. A job that is not finished and has no attempt left is therefore never started again: its
message comes back for ever, and nothing moves the job, `RUNNING` as it may be.
-/

namespace EnergyAgent.Cases

open EnergyAgent.Lib EnergyAgent.Persistence EnergyAgent.Indexing

variable {γ : Type}

/-! ## What `consume` leaves behind -/

section consume

variable {ports : ConsumerPorts γ} {event : IndexJobMessage} {w w' : World γ} {job : IndexJobModel}

/-- The message is acknowledged, and its job is done or waits for the next attempt. -/
structure Answered (event : IndexJobMessage) (w w' : World γ) : Prop where
  acked : w'.unacked = w.unacked.erase event
  job : ∃ job, w'.getJob event.jobId = some job ∧
    (job.status.terminal = true ∨ job.status = .queued ∧ w'.queue = w.queue ++ [event])

/-- The message is still held, and the job is there. -/
structure Held (event : IndexJobMessage) (w w' : World γ) : Prop where
  unacked : w'.unacked = w.unacked
  queue : w'.queue = w.queue
  job : ∃ job, w'.getJob event.jobId = some job

/-- What is left is the acknowledgement. -/
structure Due (event : IndexJobMessage) (w w' : World γ) : Prop where
  unacked : w'.unacked = w.unacked
  job : ∃ job, w'.getJob event.jobId = some job ∧
    (job.status.terminal = true ∨ job.status = .queued ∧ w'.queue = w.queue ++ [event])

theorem Held.finish (h : Held event w w') (status : IndexJobStatus) :
    Held event w (finish event.jobId status w') := by
  obtain ⟨job, hjob⟩ := h.job
  refine ⟨h.unacked, h.queue, finishedJob status job, ?_⟩
  rw [getJob_finish, hjob]
  rfl

theorem Held.due (h : Held event w w') {status : IndexJobStatus}
    (hterminal : status.terminal = true) : Due event w (Indexing.finish event.jobId status w') := by
  obtain ⟨job, hjob⟩ := h.job
  refine ⟨h.unacked, finishedJob status job, ?_, Or.inl hterminal⟩
  rw [getJob_finish, hjob]
  rfl

theorem handlerInvariant_held (event : IndexJobMessage) (w : World γ) :
    HandlerInvariant (fun _ => True) (Held event w) := by
  refine ⟨fun hsame h => ?_, fun h => ?_, fun h hold => ?_⟩
  · obtain ⟨job, hjob⟩ := h.job
    exact ⟨hsame.unacked.trans h.unacked, hsame.queue.trans h.queue, job,
      (World.getJob_congr hsame.jobs).trans hjob⟩
  · intros
    exact ⟨h.unacked, h.queue, h.job⟩
  · obtain ⟨job, hjob⟩ := h.job
    have hkept := getJob_supersedeOld hold hjob
    rcases supersedeOld_cases hold with ⟨rfl, -⟩ | ⟨row, rec, -, -, hadd⟩
    · exact h
    · rcases addJob_cases hadd with ⟨-, rfl⟩ | ⟨-, -, -, rfl⟩
      · exact ⟨h.unacked, h.queue, job, hkept⟩
      · exact ⟨h.unacked, h.queue, job, hkept⟩

theorem triple_ack {outcome : Except PortError Unit} {P : World γ → Prop}
    {E : HandlerError → World γ → Prop} (hdue : ∀ w', P w' → Due event w w')
    (hE : ∀ e w', P w' → E e w') :
    Prog.Triple P (ackMessage outcome event) (fun _ => Answered event w) E := by
  refine .bind (Q := fun _ => P) (.lift (fun _ _ _ h => h) fun e _ w' h => hE e w' h) fun _ => ?_
  refine .write fun w' h => ⟨?_, (hdue w' h).job⟩
  show w'.unacked.erase event = _
  rw [(hdue w' h).unacked]

/-- The `try` block. When it raises, the message is still held, even if `finish` has committed. -/
theorem triple_tryHandle : Prog.Triple (Held event w) (tryHandle ports event)
    (fun _ => Answered event w) (fun _ => Held event w) := by
  have hhandle : Prog.Triple (Held event w) (handle ports.handlers event)
      (fun result w' => Held event w w' ∧ result.status.terminal = true) (fun _ => Held event w) :=
    .weaken (.and ((handlerInvariant_held event w).handle trivial) finishes_handle)
      (fun _ h => ⟨h, trivial⟩) (fun _ _ h => ⟨h.1.1, h.2⟩) fun _ _ h => h.1.1
  refine .bind hhandle fun result => ?_
  refine .bind (Q := fun _ w' => Held event w w' ∧ Due event w w') (.write fun w' h => ?_) fun _ => ?_
  · exact ⟨h.1.finish result.status, h.1.due h.2⟩
  · exact triple_ack (fun _ h => h.2) fun _ _ h => h.1

theorem Held.failed (h : Held event w w') (code message : String) (retry : Bool) :
    (Indexing.fail event.jobId code message retry w').unacked = w.unacked ∧
      (Indexing.fail event.jobId code message retry w').queue = w.queue ∧
      ∃ job, (Indexing.fail event.jobId code message retry w').getJob event.jobId = some job ∧
        job.status = if retry then .queued else .failed := by
  obtain ⟨job, hjob⟩ := h.job
  have hframe : (Indexing.fail event.jobId code message retry w').queue = w'.queue ∧
      (Indexing.fail event.jobId code message retry w').unacked = w'.unacked := by
    unfold Indexing.fail
    rw [hjob]
    cases retry with
    | true => exact ⟨rfl, rfl⟩
    | false => exact (failEntity_frame ..).2.2
  refine ⟨hframe.2.trans h.unacked, hframe.1.trans h.queue, failedJob code message retry job, ?_, rfl⟩
  exact getJob_fail hjob

/-- The `except Exception` branch: the message goes to the dead letters together with a failed job, or
is published once more. -/
theorem triple_failMessage {attemptCount : Nat} {maxAttempts : MaxAttempts} {e : HandlerError} :
    Prog.Triple (Held event w) (failMessage ports event attemptCount maxAttempts e)
      (fun _ => Answered event w) (fun _ _ => True) := by
  unfold failMessage
  cases deadLettered attemptCount maxAttempts e with
  | true =>
      refine .bind (Q := fun _ => Due event w) (.write fun w' h => ?_) fun _ => ?_
      · obtain ⟨hunacked, -, job, hjob, hstatus⟩ := h.failed e.code e.typeName false
        exact ⟨hunacked, job, hjob, Or.inl (by rw [hstatus]; rfl)⟩
      · refine .keeps_bind (keeps_callOutcome (fun _ h => h) _) (fun _ _ _ => trivial) fun _ => ?_
        exact triple_ack (fun _ h => h) fun _ _ _ => trivial
  | false =>
      refine .bind (Q := fun _ w' => w'.unacked = w.unacked ∧ w'.queue = w.queue ∧
        ∃ job, w'.getJob event.jobId = some job ∧ job.status = .queued) (.write fun w' h => ?_)
        fun _ => ?_
      · exact h.failed e.code e.typeName true
      · refine .bind (Q := fun _ => Due event w) ?_ fun _ =>
          triple_ack (fun _ h => h) fun _ _ _ => trivial
        -- only a publication that does not raise goes on to the acknowledgement
        unfold publishFailed callOutcome
        cases ports.publish event with
        | applied =>
            refine .write fun w' h => ?_
            obtain ⟨hunacked, hqueue, job, hjob, hstatus⟩ := h
            refine ⟨hunacked, job, hjob, Or.inr ⟨hstatus, ?_⟩⟩
            show w'.queue ++ [event] = _
            rw [hqueue]
        | raised e => exact .raise fun _ _ => trivial
        | appliedThenRaised e =>
            refine .bind (Q := fun _ _ => True) (.write fun _ _ => trivial) fun _ => ?_
            exact .raise fun _ _ => trivial

theorem triple_work {rec : IndexJobRecord} : Prog.Triple (Held event w) (work ports event rec)
    (fun _ => Answered event w) (fun _ _ => True) := by
  refine .handle triple_tryHandle fun e => ?_
  cases e with
  | cancelled => exact .raise fun _ _ => trivial
  | stale =>
      refine .bind (Q := fun _ => Due event w) (.write fun w' h => h.due rfl) fun _ => ?_
      exact triple_ack (fun _ h => h) fun _ _ _ => trivial
  | permanent code => exact triple_failMessage
  | failure code typeName => exact triple_failMessage

theorem ofHandler_eq_ok {α : Type} {x : Handler γ α} {a : α} (h : ofHandler x w = (.ok a, w')) :
    x w = (.ok a, w') := by
  unfold ofHandler at h
  cases hx : x w with
  | mk r w₁ =>
      rw [hx] at h
      cases r with
      | ok b => cases h; rfl
      | error e => cases h

/-- **A delivery that `consume` returns from is answered.** -/
theorem consume_answered (hjob : w.getJob event.jobId = some job)
    (h : consume ports event w = (.ok (), w')) : Answered event w w' := by
  obtain ⟨rec, w₁, hstart, hrest⟩ := Prog.bind_eq_ok h
  have hstart' := Prog.transaction_eq_ok hstart
  split at hstart'
  · next result hok =>
      cases hstart'
      rcases start_cases hok with
        ⟨hnone, -, -⟩ | ⟨row, r, hrow, rfl, ⟨hfinished, hr, rfl⟩ | ⟨hopen, hr, rfl⟩⟩
      · rw [hjob] at hnone
        cases hnone
      · rw [← hr] at hfinished
        simp only [if_pos hfinished] at hrest
        have hdone : r.row.status.terminal = true := by
          rw [IndexJobStatus.terminal, hfinished]
          rfl
        rw [← hr] at hrow
        refine (triple_ack (P := fun u => u = w₁) (E := fun _ _ => True) ?_
          fun _ _ _ => trivial).ok rfl (ofHandler_eq_ok hrest)
        rintro u rfl
        exact ⟨rfl, r.row, hrow, Or.inl hdone⟩
      · have hrunning : ¬ r.row.status.finished = true := by
          rw [hr]
          exact Bool.false_ne_true
        simp only [if_neg hrunning] at hrest
        have hheld : Held event w (w.updateJob event.jobId startedJob) := by
          refine ⟨rfl, rfl, startedJob row, ?_⟩
          rw [World.getJob_updateJob_self (f := startedJob) fun _ => rfl, hrow]
          rfl
        exact triple_work.ok hheld (ofHandler_eq_ok hrest)
  · cases hstart'

/-- `start` takes a job that is finished already, or has an attempt left. -/
theorem start_isOk_iff (hjob : w.getJob event.jobId = some job)
    (hattempts : job.attemptCount ≤ job.maxAttempts.val) :
    (∃ result, start event.jobId w = .ok result) ↔
      job.status.finished = true ∨ job.attemptCount < job.maxAttempts.val := by
  simp only [start, hjob]
  cases hfinished : job.status.finished with
  | true => simp [record_of_le hattempts, Except.map]
  | false =>
      by_cases hleft : job.attemptCount < job.maxAttempts.val
      · have hstarted : (startedJob job).attemptCount ≤ (startedJob job).maxAttempts.val := hleft
        simp [record_of_le hstarted, Except.map, hleft]
      · have hover : ¬ (startedJob job).attemptCount ≤ (startedJob job).maxAttempts.val := by
          show ¬ job.attemptCount + 1 ≤ job.maxAttempts.val
          omega
        simp [record, hover, Except.map, hleft]

theorem start_eq_error (hjob : w.getJob event.jobId = some job)
    (hattempts : job.attemptCount ≤ job.maxAttempts.val)
    (hstuck : ¬ (job.status.finished = true ∨ job.attemptCount < job.maxAttempts.val)) :
    ∃ e, start event.jobId w = .error e := by
  cases hstart : start event.jobId w with
  | error e => exact ⟨e, rfl⟩
  | ok result => exact absurd ((start_isOk_iff hjob hattempts).mp ⟨result, hstart⟩) hstuck

theorem consume_of_start_error {e : RepositoryError} (h : start event.jobId w = .error e) :
    consume ports event w = (.error (.start e), w) :=
  Prog.bind_of_error (startJob_of_error h)

/-- What `consume` raises later on is not what `start` raises. -/
theorem consume_of_start_ok {result : Option IndexJobRecord × World γ}
    (h : start event.jobId w = .ok result) (e : RepositoryError) :
    consume ports event w ≠ (.error (.start e), w') := by
  obtain ⟨rec, w₁⟩ := result
  have hconsume : consume ports event w = _ := Prog.bind_of_ok (startJob_of_ok h)
  have hhandler : ∀ x : Handler γ Unit, ofHandler x w₁ ≠ (.error (.start e), w') := by
    intro x hx
    unfold ofHandler at hx
    cases hrun : x w₁ with
    | mk r w₂ =>
        rw [hrun] at hx
        cases r <;> cases hx
  rw [hconsume]
  cases rec with
  | none => exact hhandler _
  | some rec =>
      by_cases hfinished : rec.row.status.finished = true
      · simp only [if_pos hfinished]
        exact hhandler _
      · simp only [if_neg hfinished]
        exact hhandler _

end consume

/-! ## No job is forgotten -/

/-- A message of the job waits: in the outbox, or on the queue. -/
def Waits (w : World γ) (k : String) : Prop :=
  (∃ row ∈ w.outbox, row.jobId = k ∧ row.publishStatus = .pending) ∨ ∃ m ∈ w.queue, m.jobId = k

def Delivery.carries (d : Delivery) : Bool := d.stage.any Stage.carries

/-- Every job that is not done has a message waiting, or is one of `D`. -/
structure Covered (D : String → Prop) (w : World γ) : Prop where
  attempts : ∀ k job, w.getJob k = some job → job.attemptCount ≤ job.maxAttempts.val
  outboxIds : (w.outbox.map (·.id)).Nodup
  payload : ∀ row ∈ w.outbox, row.payload.jobId = row.jobId
  message : ∀ k job, w.getJob k = some job → job.status.terminal = false → Waits w k ∨ D k

section covered

variable {D D' : String → Prop} {w w' : World γ}

/-- Messages move, and deliveries; the jobs stay as they are. -/
theorem Covered.reroute (h : Covered D w) (hjobs : w'.jobs = w.jobs) (houtbox : w'.outbox = w.outbox)
    (hqueue : ∀ m ∈ w.queue, m ∈ w'.queue ∨ D' m.jobId)
    (hD : ∀ k job, w.getJob k = some job → job.status.terminal = false → D k →
      D' k ∨ ∃ m ∈ w'.queue, m.jobId = k) : Covered D' w' where
  attempts k job hjob := h.attempts k job ((World.getJob_congr hjobs).symm.trans hjob)
  outboxIds := by
    rw [houtbox]
    exact h.outboxIds
  payload := by
    rw [houtbox]
    exact h.payload
  message k job hjob hopen := by
    have hold : w.getJob k = some job := (World.getJob_congr hjobs).symm.trans hjob
    rcases h.message k job hold hopen with (⟨row, hrow, hpending⟩ | ⟨m, hm, rfl⟩) | hk
    · exact Or.inl (Or.inl ⟨row, by rw [houtbox]; exact hrow, hpending⟩)
    · rcases hqueue m hm with hm' | hm'
      · exact Or.inl (Or.inr ⟨m, hm', rfl⟩)
      · exact Or.inr hm'
    · rcases hD k job hold hopen hk with hk' | hm
      · exact Or.inr hk'
      · exact Or.inl (Or.inr hm)

theorem Covered.mono (h : Covered D w) (hD : ∀ k, D k → D' k) : Covered D' w :=
  h.reroute rfl rfl (fun _ hm => Or.inl hm) fun k _ _ _ hk => Or.inl (hD k hk)

theorem Waits.append {k : String} {jobs : List IndexJobModel} {row : IndexOutboxModel}
    (h : Waits w k) : Waits { w with jobs := jobs, outbox := w.outbox ++ [row] } k := by
  rcases h with ⟨row', hrow', hpending⟩ | hm
  · exact Or.inl ⟨row', List.mem_append_left _ hrow', hpending⟩
  · exact Or.inr hm

theorem jobInvariant_covered (D : String → Prop) : JobInvariant (Covered (γ := γ) D) where
  congr h hjobs houtbox hqueue := by
    refine h.reroute hjobs houtbox (fun m hm => ?_) fun k _ _ _ hk => Or.inl hk
    rw [hqueue]
    exact Or.inl hm
  addJob {w w' request jobId rec} h hadd := by
    rcases addJob_cases hadd with ⟨-, rfl⟩ | ⟨-, hfree, -, rfl⟩
    · exact h
    · have hids := Table.nodup_append (r := newOutbox w.nextOutboxId "index.job.requested.v1"
        (request.message jobId)) h.outboxIds (getOutbox_nextOutboxId w)
      refine ⟨fun k job hjob => ?_, hids, fun row hrow => ?_, fun k job hjob hopen => ?_⟩
      · rcases Table.get_append_eq_some hjob with hold | ⟨-, -, rfl⟩
        · exact h.attempts k job hold
        · exact Nat.zero_le _
      · rcases List.mem_append.mp hrow with hold | hnew
        · exact h.payload row hold
        · rw [List.mem_singleton.mp hnew]
          rfl
      · rcases Table.get_append_eq_some hjob with hold | ⟨-, hk, rfl⟩
        · rcases h.message k job hold hopen with hwaits | hk
          · exact Or.inl hwaits.append
          · exact Or.inr hk
        · refine Or.inl (Or.inl ⟨_, List.mem_append_right _ (List.mem_singleton_self _), ?_, rfl⟩)
          exact hk

/-- One job changes. If it is open afterwards, a message of it must wait, or it must be one of `D`. -/
theorem Covered.updateJob (h : Covered D w) {k : String} {g : IndexJobModel → IndexJobModel}
    (hkey : ∀ job, (g job).jobId = job.jobId)
    (hattempts : ∀ job, w.getJob k = some job → (g job).attemptCount ≤ (g job).maxAttempts.val)
    (hmessage : ∀ job, w.getJob k = some job → (g job).status.terminal = false → Waits w k ∨ D k) :
    Covered D (w.updateJob k g) := by
  have hcases : ∀ k' job', (w.updateJob k g).getJob k' = some job' →
      ∃ job, w.getJob k' = some job ∧ ((k' = k ∧ job' = g job) ∨ (k' ≠ k ∧ job' = job)) := by
    intro k' job' hjob'
    exact Table.get_update_eq_some (fun r hr => (hkey r).trans hr) hjob'
  refine ⟨fun k' job' hjob' => ?_, h.outboxIds, h.payload, fun k' job' hjob' hopen => ?_⟩
  · obtain ⟨job, hjob, ⟨rfl, rfl⟩ | ⟨-, rfl⟩⟩ := hcases k' job' hjob'
    · exact hattempts job hjob
    · exact h.attempts k' job' hjob
  · obtain ⟨job, hjob, ⟨rfl, rfl⟩ | ⟨-, rfl⟩⟩ := hcases k' job' hjob'
    · exact hmessage job hjob hopen
    · exact h.message k' job' hjob hopen

theorem Covered.retry (h : Covered D w) (jobId traceId : String) :
    Covered D (Indexing.retry jobId traceId w) := by
  rcases retry_cases jobId traceId w with hsame | ⟨job, hjob, -, hretry⟩
  · rw [hsame]
    exact h
  · rw [hretry]
    have hid : job.jobId = jobId := (mem_of_getJob hjob).2
    -- the outbox row first, then the job that waits for it
    have hrow : Covered D { w with outbox := w.outbox ++
        [newOutbox w.nextOutboxId "index.job.retried.v1" (retryMessage job traceId)] } := by
      have hids := Table.nodup_append (r := newOutbox w.nextOutboxId "index.job.retried.v1"
        (retryMessage job traceId)) h.outboxIds (getOutbox_nextOutboxId w)
      refine ⟨h.attempts, hids, fun row hrow => ?_, fun k job hjob hopen => ?_⟩
      · rcases List.mem_append.mp hrow with hold | hnew
        · exact h.payload row hold
        · rw [List.mem_singleton.mp hnew]
          rfl
      · rcases h.message k job hjob hopen with hwaits | hk
        · exact Or.inl hwaits.append
        · exact Or.inr hk
    refine hrow.updateJob (fun _ => rfl) (fun _ _ => Nat.zero_le _) fun _ _ _ => ?_
    exact Or.inl (Or.inl ⟨_, List.mem_append_right _ (List.mem_singleton_self _), hid, rfl⟩)

/-- An outbox row changes. If it is not pending any more, its message must be on the queue. -/
theorem Covered.updateOutbox (h : Covered D w) {id : Nat} {u : IndexOutboxModel → IndexOutboxModel}
    (hu : ∀ row, (u row).id = row.id ∧ (u row).jobId = row.jobId ∧ (u row).payload = row.payload)
    (hsent : ∀ row ∈ w.outbox, row.id = id → row.publishStatus = .pending →
      (u row).publishStatus = .pending ∨ ∃ m ∈ w.queue, m.jobId = row.jobId) :
    Covered D (w.updateOutbox id u) where
  attempts := h.attempts
  outboxIds := by
    show (List.map _ (Table.update IndexOutboxModel.id w.outbox id u)).Nodup
    rw [Table.map_key_update (fun r hr => (hu r).1.trans hr)]
    exact h.outboxIds
  payload row' hrow' := by
    obtain ⟨row, hrow, rfl⟩ := List.mem_map.mp hrow'
    split
    · rw [(hu row).2.1, (hu row).2.2]
      exact h.payload row hrow
    · exact h.payload row hrow
  message k job hjob hopen := by
    rcases h.message k job hjob hopen with (⟨row, hrow, hid, hpending⟩ | hm) | hk
    · by_cases hrow' : row.id = id
      · rcases hsent row hrow hrow' hpending with hstill | ⟨m, hm, hmid⟩
        · refine Or.inl (Or.inl ⟨u row, ?_, (hu row).2.1.trans hid, hstill⟩)
          exact List.mem_map.mpr ⟨row, hrow, if_pos hrow'⟩
        · exact Or.inl (Or.inr ⟨m, hm, hmid.trans hid⟩)
      · exact Or.inl (Or.inl ⟨row, List.mem_map.mpr ⟨row, hrow, if_neg hrow'⟩, hid, hpending⟩)
    · exact Or.inl (Or.inr hm)
    · exact Or.inr hk

theorem Covered.publishRow (h : Covered D w) {row : IndexOutboxModel} (hrow : row ∈ w.outbox)
    (outcome : PublishOutcome) : Covered D (Indexing.publishRow row outcome w) := by
  have hsent : Covered D (requeue row.payload w) :=
    h.reroute rfl rfl (fun m hm => Or.inl (List.mem_append_left _ hm)) fun k _ _ _ hk => Or.inl hk
  have hmessage : row.payload ∈ (requeue row.payload w).queue :=
    List.mem_append_right _ (List.mem_singleton_self _)
  have hid : row.payload.jobId = row.jobId := h.payload row hrow
  cases outcome with
  | published =>
      refine (hsent.updateOutbox publishedRow_same ?_).updateJob
        (fun job => (sameJob_queuedJob job).1) (fun job hjob => ?_) fun _ _ _ => Or.inl (Or.inr ⟨row.payload, hmessage, hid⟩)
      · intro r hr hrid _
        obtain rfl : r = row := List.inj_on_of_nodup_map h.outboxIds hr hrow hrid
        exact Or.inr ⟨r.payload, hmessage, hid⟩
      · have hattempts := h.attempts row.jobId job hjob
        unfold queuedJob
        split
        · exact hattempts
        · exact hattempts
  | failed => exact h.updateOutbox (fun _ => ⟨rfl, rfl, rfl⟩) fun _ _ _ hpending => Or.inl hpending
  | unmarked =>
      exact hsent.updateOutbox (fun _ => ⟨rfl, rfl, rfl⟩) fun _ _ _ hpending => Or.inl hpending

end covered

/-! ## Every step covers the jobs -/

section advance

variable {ports : ConsumerPorts γ} {event : IndexJobMessage} {w : World γ}

theorem handlerStep_closes (point : HandlerPoint) (rec : IndexJobRecord)
    (hpoint : (Stage.handling rec point).Closes) :
    Prog.Triple (fun _ => True) (handlerStep ports.handlers event point)
      (fun point' _ => (Stage.handling rec point').Closes) (fun _ _ => True) := by
  have hany : ∀ {α : Type} {x : Handler γ α} {f : α → Handler γ HandlerPoint},
      (∀ a, Prog.Triple (fun _ => True) (f a) (fun point' _ => (Stage.handling rec point').Closes)
        fun _ _ => True) →
      Prog.Triple (fun _ => True) (x >>= f) (fun point' _ => (Stage.handling rec point').Closes)
        fun _ _ => True := fun hf => .bind (triple_any _) hf
  cases point with
  | begin =>
      by_cases htype : event.entityType = .diagnosisCase
      · simp only [handlerStep, if_pos htype]
        refine hany fun _ => hany fun case => .pure fun _ _ => ?_
        by_cases hop : event.operation = .tombstone
        · rw [if_pos hop]
          trivial
        · rw [if_neg hop]
          trivial
      · simp only [handlerStep, if_neg htype]
        exact .bind finishes_handle fun result => .pure fun _ hresult => hresult
  | checked case => exact hany fun _ => hany fun _ => .pure fun _ _ => trivial
  | embedded case text vector => exact hany fun _ => .pure fun _ _ => trivial
  | stored case text => exact hany fun _ => .pure fun _ _ => trivial
  | projected case text degraded => exact hany fun _ => .pure fun _ _ => trivial
  | activated case degraded => exact hany fun _ => .pure fun _ _ => caseResult_terminal degraded
  | removing case => exact hany fun _ => .pure fun _ _ => trivial
  | removed case => exact hany fun _ => .pure fun _ _ => trivial
  | unprojected degraded => exact hany fun _ => .pure fun _ _ => rfl
  | returned result => exact .pure fun _ _ => hpoint
  | raised e => exact .pure fun _ _ => trivial

theorem Next.closes_stay {stage : Stage} (h : stage.Closes) : (Next.stay stage).Closes := by
  intro stage' hstage
  cases hstage
  exact h

theorem closes_handleStep (rec : IndexJobRecord) (point : HandlerPoint)
    (hpoint : (Stage.handling rec point).Closes) :
    (handleStep ports event rec point w).1.Closes := by
  unfold handleStep
  cases hrun : handlerStep ports.handlers event point w with
  | mk r w' =>
      cases r with
      | ok point' => exact Next.closes_stay ((handlerStep_closes point rec hpoint).ok trivial hrun)
      | error e => exact Next.closes_stay trivial

theorem closes_advance (stage : Stage) (hcloses : stage.Closes) :
    (advance ports event stage w).1.Closes := by
  have hback : Next.back.Closes := by
    intro _ hstage
    cases hstage
  have hdone : Next.done.Closes := by
    intro _ hstage
    cases hstage
  cases stage with
  | delivered =>
      rw [advance]
      cases start event.jobId w with
      | error e => exact hback
      | ok result =>
          obtain ⟨rec, w'⟩ := result
          cases rec with
          | none => exact Next.closes_stay trivial
          | some rec =>
              dsimp only
              split
              · exact Next.closes_stay trivial
              · exact Next.closes_stay trivial
  | handling rec point =>
      cases point with
      | returned result => exact Next.closes_stay trivial
      | raised e =>
          cases e with
          | cancelled => exact hback
          | _ => exact Next.closes_stay trivial
      | _ => exact closes_handleStep rec _ hcloses
  | finished rec =>
      rw [advance]
      cases ports.ack event with
      | ok u => exact hdone
      | error e => exact Next.closes_stay trivial
  | publishing dead =>
      rw [advance]
      cases publishFailed (ports.publish event) dead event w with
      | mk r w' =>
          cases r with
          | ok u => exact Next.closes_stay trivial
          | error e => exact hback
  | acking =>
      rw [advance]
      cases ports.lastAck event with
      | ok u => exact hdone
      | error e => exact hback

/-- The other deliveries that carry, `E`, and the one at hand if it does. -/
def Besides (E : String → Prop) (event : IndexJobMessage) (carries : Bool) (k : String) : Prop :=
  E k ∨ (k = event.jobId ∧ carries = true)

variable {E : String → Prop} {carries : Bool}

/-- The delivery carries no longer, since its job is done. -/
theorem Covered.release (h : Covered (Besides E event carries) w)
    (hdone : ∀ job, w.getJob event.jobId = some job → job.status.terminal = true) :
    Covered (Besides E event false) w := by
  refine h.reroute rfl rfl (fun _ hm => Or.inl hm) fun k job hjob hopen hk => ?_
  rcases hk with hother | ⟨rfl, -⟩
  · exact Or.inl (Or.inl hother)
  · rw [hdone job hjob] at hopen
    cases hopen

theorem Covered.settle {D : String → Prop} (h : Covered D w) : Covered D (settle event w) :=
  (jobInvariant_covered D).congr h rfl rfl rfl

/-- The delivery carries no longer, since its message is back on the queue. -/
theorem Covered.requeue (h : Covered (Besides E event carries) w) :
    Covered (Besides E event false) (requeue event w) := by
  refine h.reroute rfl rfl (fun m hm => Or.inl (List.mem_append_left _ hm)) fun k _ _ _ hk => ?_
  rcases hk with hother | ⟨rfl, -⟩
  · exact Or.inl (Or.inl hother)
  · exact Or.inr ⟨event, List.mem_append_right _ (List.mem_singleton_self _), rfl⟩

theorem Covered.giveBack (h : Covered (Besides E event carries) w) :
    Covered (Besides E event false) (giveBack event w) := h.requeue.settle

theorem Covered.finish (h : Covered (Besides E event carries) w) {status : IndexJobStatus}
    (hterminal : status.terminal = true) :
    Covered (Besides E event false) (finish event.jobId status w) := by
  have hopen : ∀ job, (finishedJob status job).status.terminal = false → False := by
    intro job hjob
    rw [show (finishedJob status job).status = status from rfl, hterminal] at hjob
    cases hjob
  have hfinished : Covered (Besides E event carries) (Indexing.finish event.jobId status w) :=
    h.updateJob (fun _ => rfl) (fun job hjob => h.attempts _ job hjob) fun job _ hjob =>
      (hopen job hjob).elim
  refine hfinished.release fun job hjob => ?_
  rw [getJob_finish] at hjob
  obtain ⟨job', -, rfl⟩ := Option.map_eq_some_iff.mp hjob
  exact hterminal

theorem Covered.fail (h : Covered (Besides E event true) w) (code message : String) (retry : Bool) :
    Covered (Besides E event retry) (fail event.jobId code message retry w) := by
  unfold Indexing.fail
  cases hjob : w.getJob event.jobId with
  | none =>
      refine h.reroute rfl rfl (fun _ hm => Or.inl hm) fun k job hk _ hcarried => ?_
      rcases hcarried with hother | ⟨rfl, -⟩
      · exact Or.inl (Or.inl hother)
      · rw [hjob] at hk
        cases hk
  | some job =>
      have hfailed : Covered (Besides E event true)
          (w.updateJob event.jobId (failedJob code message retry)) :=
        h.updateJob (fun _ => rfl) (fun job hjob => h.attempts _ job hjob)
          fun _ _ _ => Or.inr (Or.inr ⟨rfl, rfl⟩)
      cases retry with
      | true => exact hfailed
      | false =>
          obtain ⟨hjobs, houtbox, hqueue, -⟩ := failEntity_frame job code
            (w.updateJob event.jobId (failedJob code message false))
          refine (jobInvariant_covered _).congr (hfailed.release fun job' hjob' => ?_) hjobs houtbox
            hqueue
          rw [World.getJob_updateJob_self (f := failedJob code message false) fun _ => rfl,
            hjob] at hjob'
          cases hjob'
          rfl

theorem carries_publishing (dead : Bool) : (Next.stay (.publishing dead)).carries = !dead := by
  cases dead <;> rfl

/-- A step of the handler leads back into the handler. -/
theorem covered_handleStep (rec : IndexJobRecord) (point : HandlerPoint)
    (h : Covered (Besides E event true) w) :
    Covered (Besides E event (handleStep ports event rec point w).1.carries)
      ((handleStep ports event rec point w).1.close event
        (handleStep ports event rec point w).2) := by
  have hkept : Covered (Besides E event true) (handleStep ports event rec point w).2 :=
    (jobInvariant_covered _).handleStep h
  unfold handleStep at hkept ⊢
  cases hstep : handlerStep ports.handlers event point w with
  | mk r w' =>
      rw [hstep] at hkept
      cases r <;> exact hkept

/-- The message is published: if it is not a dead letter, it is on the queue from then on. -/
theorem covered_publishing {dead : Bool} (h : Covered (Besides E event (!dead)) w) :
    Covered (Besides E event false) ((if dead then id else requeue event : World γ → World γ) w) := by
  cases dead with
  | true => exact h
  | false => exact h.requeue

/-- **One step of a delivery** leaves every job covered. -/
theorem covered_advance (stage : Stage) (hcloses : stage.Closes)
    (h : Covered (Besides E event stage.carries) w) :
    Covered (Besides E event (advance ports event stage w).1.carries)
      ((advance ports event stage w).1.close event (advance ports event stage w).2) := by
  cases stage with
  | delivered =>
      rw [advance]
      cases hstart : start event.jobId w with
      | error e => exact h.giveBack
      | ok result =>
          obtain ⟨rec, w'⟩ := result
          rcases start_cases hstart with
            ⟨hnone, rfl, rfl⟩ | ⟨row, rec, hrow, rfl, ⟨hfinished, hrec, rfl⟩ | ⟨hopen, hrec, rfl⟩⟩
          · refine h.release fun job hjob => ?_
            rw [hnone] at hjob
            cases hjob
          · have hdone := hfinished
            rw [← hrec] at hdone
            dsimp only
            rw [if_pos hdone]
            refine h.release fun job hjob => ?_
            rw [hrow] at hjob
            cases hjob
            rw [IndexJobStatus.terminal, hfinished]
            rfl
          · have hrunning : ¬ rec.row.status.finished = true := by
              rw [hrec]
              exact Bool.false_ne_true
            dsimp only
            rw [if_neg hrunning]
            refine h.updateJob (fun _ => rfl) (fun job hjob => ?_)
              fun _ _ _ => Or.inr (Or.inr ⟨rfl, rfl⟩)
            rw [hrow] at hjob
            cases hjob
            rw [← hrec]
            exact rec.attempts
  | handling rec point =>
      cases point with
      | returned result => exact h.finish hcloses
      | raised e =>
          cases e with
          | cancelled => exact h.giveBack
          | stale => exact h.finish rfl
          | permanent code =>
              show Covered (Besides E event (Next.stay (.publishing _)).carries) _
              rw [carries_publishing]
              exact h.fail ..
          | failure code typeName =>
              show Covered (Besides E event (Next.stay (.publishing _)).carries) _
              rw [carries_publishing]
              exact h.fail ..
      | _ => exact covered_handleStep rec _ h
  | finished rec =>
      rw [advance]
      cases ports.ack event with
      | ok u => exact h.settle
      | error e => exact h.mono fun k hk => hk.imp id fun hk => absurd hk.2 Bool.false_ne_true
  | publishing dead =>
      rw [advance]
      have hcarried : Covered (Besides E event (!dead)) w := by
        cases dead <;> exact h
      unfold publishFailed callOutcome
      cases ports.publish event with
      | applied => exact covered_publishing hcarried
      | raised e => exact h.giveBack
      | appliedThenRaised e => exact (covered_publishing hcarried).giveBack
  | acking =>
      rw [advance]
      cases ports.lastAck event with
      | ok u => exact h.settle
      | error e => exact h.giveBack

end advance

/-! ## The system -/

/-- Some delivery carries job `k`. -/
def Consumers.Carries (p : Consumers γ) (k : String) : Prop :=
  ∃ d ∈ p.deliveries, d.carries = true ∧ d.event.jobId = k

/-- Every open job has a message waiting or a delivery that carries it. -/
structure Tracked (p : Consumers γ) : Prop where
  closes : ∀ d ∈ p.deliveries, ∀ stage, d.stage = some stage → stage.Closes
  covered : Covered p.Carries p.world

section

variable {settings : CaseSettings} {p p' : Consumers γ} {move : ConsumerMove γ}

/-- Delivery `i` moves on. -/
theorem Tracked.moveOn (h : Tracked p) {i : Nat} {event : IndexJobMessage} {stage : Stage}
    (hd : p.deliveries[i]? = some ⟨event, some stage⟩) {next : Next} {w : World γ}
    (hcloses : next.Closes)
    (hcovered : ∀ E, Covered (Besides E event stage.carries) p.world →
      Covered (Besides E event next.carries) (next.close event w)) :
    Tracked (p.moveOn i event next w) := by
  have hi := (List.getElem?_eq_some_iff.mp hd).1
  -- the other deliveries that carry
  let others : String → Prop := fun k =>
    ∃ j d, j ≠ i ∧ p.deliveries[j]? = some d ∧ d.carries = true ∧ d.event.jobId = k
  have hbefore : Covered (Besides others event stage.carries) p.world := by
    refine h.covered.mono ?_
    rintro k ⟨d, hmem, hcarries, rfl⟩
    obtain ⟨j, hdj⟩ := List.getElem?_of_mem hmem
    by_cases hj : j = i
    · subst hj
      rw [hd] at hdj
      cases hdj
      exact Or.inr ⟨rfl, hcarries⟩
    · exact Or.inl ⟨j, d, hj, hdj, hcarries, rfl⟩
  constructor
  · intro d hmem
    rcases List.mem_or_eq_of_mem_set hmem with hold | rfl
    · exact h.closes d hold
    · exact hcloses
  · refine (hcovered others hbefore).mono ?_
    rintro k (⟨j, d, hj, hdj, hcarries, rfl⟩ | ⟨rfl, hcarries⟩)
    · refine ⟨d, List.mem_of_getElem? (i := j) ?_, hcarries, rfl⟩
      show (p.deliveries.set i _)[j]? = some d
      rw [List.getElem?_set_ne (Ne.symm hj)]
      exact hdj
    · exact ⟨⟨event, next.stage⟩, List.mem_set hi _, hcarries, rfl⟩

theorem Covered.elsewhere {D : String → Prop} {w w' : World γ} {label : Label γ}
    (h : Covered D w) (hlabel : label.ofWorker = false)
    (hstep : Cases.step settings w label = some w') : Covered D w' := by
  cases label with
  | consume ports event => cases hlabel
  | drain ports events => cases hlabel
  | api call request =>
      cases hstep
      exact ((jobInvariant_covered D).run request).snd h
  | ingest tickets documents chunks =>
      cases hstep
      exact (jobInvariant_covered D).congr h rfl rfl rfl
  | requestIndex request jobId =>
      simp only [Cases.step] at hstep
      split at hstep
      · cases hstep
      · split at hstep
        · next hadd =>
            cases hstep
            exact (jobInvariant_covered D).addJob h hadd
        · cases hstep
  | retry jobId traceId =>
      cases hstep
      exact h.retry jobId traceId
  | publish outboxId outcome =>
      simp only [Cases.step] at hstep
      split at hstep
      · cases hstep
      · next row hrow =>
          split at hstep
          · cases hstep
            exact h.publishRow (Table.get_eq_some hrow).1 outcome
          · cases hstep

/-- **The step lemma.** -/
theorem tracked_step (h : Tracked p) (hstep : p.step settings move = some p') : Tracked p' := by
  cases move with
  | elsewhere label =>
      simp only [Consumers.step] at hstep
      split at hstep
      · cases hstep
      · next hlabel =>
          obtain ⟨w, hw, rfl⟩ := Option.map_eq_some_iff.mp hstep
          exact ⟨h.closes, h.covered.elsewhere (by simpa using hlabel) hw⟩
  | deliver event =>
      simp only [Consumers.step] at hstep
      split at hstep
      · cases hstep
        refine ⟨fun d hmem stage hstage => ?_, h.covered.reroute rfl rfl (fun m hm => ?_) ?_⟩
        · rcases List.mem_append.mp hmem with hold | hnew
          · exact h.closes d hold stage hstage
          · rw [List.mem_singleton.mp hnew] at hstage
            cases hstage
            trivial
        · by_cases hm' : m = event
          · subst hm'
            refine Or.inr ⟨⟨m, some .delivered⟩, ?_, rfl, rfl⟩
            exact List.mem_append_right _ (List.mem_singleton_self _)
          · exact Or.inl ((List.mem_erase_of_ne hm').mpr hm)
        · rintro k job - - ⟨d, hmem, hcarries, hk⟩
          exact Or.inl ⟨d, List.mem_append_left _ hmem, hcarries, hk⟩
      · cases hstep
  | advance i ports =>
      simp only [Consumers.step] at hstep
      split at hstep
      · next event stage hd =>
          cases hstep
          have hcloses := h.closes _ (List.mem_of_getElem? hd) stage rfl
          exact h.moveOn hd (closes_advance stage hcloses) fun E hE =>
            covered_advance stage hcloses hE
      · cases hstep
  | die i =>
      simp only [Consumers.step] at hstep
      split at hstep
      · next event stage hd =>
          cases hstep
          refine h.moveOn hd (fun stage hstage => ?_) fun E hE => hE.giveBack
          cases hstage
      · cases hstep

theorem tracked_of_reachable (h : (consumers settings).Reachable p) : Tracked p := by
  refine h.invariant ?_ ?_
  · rintro p ⟨⟨-, -, hjobs, houtbox, -, -⟩, hdeliveries⟩
    have hnone : ∀ k job, p.world.getJob k ≠ some job := by
      simp [World.getJob, Table.get, hjobs]
    refine ⟨by simp [hdeliveries], ?_, by simp [houtbox], by simp [houtbox], ?_⟩
    · exact fun k job hjob => absurd hjob (hnone k job)
    · exact fun k job hjob => absurd hjob (hnone k job)
  · intro p move p' hp _ hstep
    exact tracked_step hp hstep

/-! ## Deliveries settle -/

/-- Whatever the providers and the broker do, a delivery of job `k` gets past `start`; when `consume`
returns, the message is acknowledged and the job is done or waits for its retry; and while the job is
running, a message of it waits or a delivery carries it. -/
structure Settles (p : Consumers γ) (k : String) : Prop where
  starts : ∀ (ports : ConsumerPorts γ) (event : IndexJobMessage) (e : RepositoryError) (w : World γ),
    event.jobId = k → consume ports event (receive event p.world) ≠ (.error (.start e), w)
  returns : ∀ (ports : ConsumerPorts γ) (event : IndexJobMessage) (w : World γ), event.jobId = k →
    consume ports event (receive event p.world) = (.ok (), w) →
    Answered event (receive event p.world) w
  carried : ∀ job, p.world.getJob k = some job → job.status = .running →
    Waits p.world k ∨ p.Carries k

/-- Ports that answer, without a graph. -/
def plainPorts : ConsumerPorts γ where
  handlers :=
    { embed := fun _ => .ok []
      vectorUpsert := fun _ _ => .applied
      vectorDelete := fun _ => .applied
      graph := none
      repository := true
      newJobId := fun _ => noId }
  publish := fun _ => .applied
  ack := fun _ => .ok ()
  lastAck := fun _ => .ok ()

/-- **Deliveries of a job settle** exactly as long as the job is finished or has an attempt left. -/
theorem delivery_settles_iff (h : (consumers settings).Reachable p) {k : String} {job : IndexJobModel}
    (hjob : p.world.getJob k = some job) :
    Settles p k ↔ job.status.finished = true ∨ job.attemptCount < job.maxAttempts.val := by
  have hcovered := (tracked_of_reachable h).covered
  have hattempts := hcovered.attempts k job hjob
  constructor
  · intro hsettles
    by_contra hstuck
    have hid : (retryMessage job "").jobId = k := (mem_of_getJob hjob).2
    have hreceived : (receive (retryMessage job "") p.world).getJob (retryMessage job "").jobId =
        some job := by
      rw [hid]
      exact hjob
    obtain ⟨e, he⟩ := start_eq_error hreceived hattempts hstuck
    exact hsettles.starts plainPorts _ e _ hid (consume_of_start_error he)
  · intro hready
    constructor
    · rintro ports event e w rfl
      obtain ⟨result, hstart⟩ :=
        (start_isOk_iff (w := receive event p.world) hjob hattempts).mpr hready
      exact consume_of_start_ok hstart e
    · rintro ports event w rfl hreturns
      exact consume_answered hjob hreturns
    · intro job' hjob' hrunning
      refine hcovered.message k job' hjob' ?_
      rw [hrunning]
      rfl

end

/-! ## Workers that die -/

/-- Consumer `i` takes the message, starts the job and dies. -/
def deadWorker (i : Nat) : List (ConsumerMove Unit) :=
  .deliver sentMessage :: advances i 1 answeringPorts ++ [.die i]

/-- The job is running, and `check` holds of the attempts it has had and may have. -/
def runningWith (k : String) (check : Nat → Nat → Bool) (p : Consumers Unit) : Bool :=
  (p.world.getJob k).any fun job =>
    job.status = .running && check job.attemptCount job.maxAttempts.val

/-- The third worker dies: the message is on the queue, and no consumer gets past `start` with it. -/
theorem running_job_stuck : ¬ ∀ (p : Consumers Unit) (k : String) (job : IndexJobModel),
    sampleConsumers.Reachable p → p.world.getJob k = some job →
    job.attemptCount ≤ job.maxAttempts.val → Settles p k := by
  intro hclaim
  have hrun : (sampleConsumers.run noConsumers
      (sentMoves ++ deadWorker 0 ++ deadWorker 1 ++ deadWorker 2)).any
        (runningWith "job-1" (· = ·)) = true := by decide +kernel
  obtain ⟨p, hp, hlast⟩ := (Option.any_eq_true _ _).mp hrun
  obtain ⟨job, hjob, hrest⟩ := (Option.any_eq_true _ _).mp hlast
  obtain ⟨hrunning, hattempts⟩ := Bool.and_eq_true_iff.mp hrest
  have hstatus : job.status = .running := of_decide_eq_true hrunning
  have hall : job.attemptCount = job.maxAttempts.val := of_decide_eq_true hattempts
  have hreached : sampleConsumers.Reachable p := .of_run (.init sampleConsumers_init) hp
  have hstuck : ¬ (job.status.finished = true ∨ job.attemptCount < job.maxAttempts.val) := by
    rw [hstatus, hall]
    simp [IndexJobStatus.finished]
  obtain ⟨e, he⟩ : ∃ e, start sentMessage.jobId (receive sentMessage p.world) = .error e :=
    start_eq_error hjob hall.le hstuck
  exact (hclaim p "job-1" job hreached hjob hall.le).starts answeringPorts sentMessage e _ rfl
    (consume_of_start_error he)

/-- After the first death there are attempts left. -/
theorem restarted_job_settles : ∃ p : Consumers Unit, runningWith "job-1" (· < ·) p = true ∧
    Settles p "job-1" := by
  have hrun : (sampleConsumers.run noConsumers (sentMoves ++ deadWorker 0)).any
      (runningWith "job-1" (· < ·)) = true := by decide +kernel
  obtain ⟨p, hp, hlast⟩ := (Option.any_eq_true _ _).mp hrun
  have hreached : (consumers (sampleSettings .rabbitmq)).Reachable p :=
    .of_run (.init sampleConsumers_init) hp
  refine ⟨p, hlast, ?_⟩
  obtain ⟨job, hjob, hrest⟩ := (Option.any_eq_true _ _).mp hlast
  obtain ⟨-, hleft⟩ := Bool.and_eq_true_iff.mp hrest
  exact (delivery_settles_iff hreached hjob).mpr (Or.inr (of_decide_eq_true hleft))

end EnergyAgent.Cases
