import EnergyAgent.Indexing.Consumer

/-!
# Consuming a message, one step at a time

`IndexConsumer.consume` gives up control at every `await`, and other consumers and API requests run
in between. Here it is cut at the points where that can be noticed: `HandlerPoint` says how far the
handler of a case is, `Stage` how far the whole delivery is, and `advance` takes one step.

`resume` is what a handler has still to do from a point on, `resumeDelivery` the same for a delivery.
`resume_begin` and `resumeDelivery_delivered` tie them to `handle` and `consume`, `resume_step` and
`resumeDelivery_step` to the steps: a delivery that nobody interrupts does what `consume` does.
-/

namespace EnergyAgent.Indexing

open EnergyAgent.Lib EnergyAgent.Persistence

variable {γ : Type}

/-! ## Handlers -/

/-- How far `_case` is. A constructor carries the values that the rest of the function uses. -/
inductive HandlerPoint
  | begin
  /-- An upsert or reindex has passed the status check. -/
  | checked (case : DiagnosisCaseModel)
  | embedded (case : DiagnosisCaseModel) (text : String) (vector : Embedding)
  /-- The vector is in the store. -/
  | stored (case : DiagnosisCaseModel) (text : String)
  | projected (case : DiagnosisCaseModel) (text : String) (degraded : Bool)
  /-- `_set_case_index` has committed; `_queue_superseded_case` is left. -/
  | activated (case : DiagnosisCaseModel) (degraded : Bool)
  /-- A tombstone has passed the status check. -/
  | removing (case : DiagnosisCaseModel)
  /-- The vector is out of the store. -/
  | removed (case : DiagnosisCaseModel)
  | unprojected (degraded : Bool)
  | returned (result : HandlerResult)
  | raised (e : HandlerError)

/-- One step of `handle`. The other entities are handled in one step: nothing else reads or writes
what they do. -/
def handlerStep (ports : IndexPorts γ) (event : IndexJobMessage) :
    HandlerPoint → Handler γ HandlerPoint
  | .begin =>
      if event.entityType = .diagnosisCase then do
        let found ← Prog.read (·.getCase event.entityId)
        let case ← Prog.lift (checkCase event found)
        pure (if event.operation = .tombstone then .removing case else .checked case)
      else do
        let result ← handle ports event
        pure (.returned result)
  | .checked case => do
      let text ← Prog.lift (caseText case)
      let vector ← Prog.lift (ports.embedText text)
      pure (.embedded case text vector)
  | .embedded case text vector => do
      vectorUpsert ports .case [caseVector case vector]
      pure (.stored case text)
  | .stored case text => do
      let degraded ← projectCase ports event case
      pure (.projected case text degraded)
  | .projected case text degraded => do
      Prog.write (setCaseIndex event.entityId (indexedStatus degraded) true (some text))
      pure (.activated case degraded)
  | .activated case degraded => do
      supersedeOriginal ports event case
      pure (.returned (caseResult degraded))
  | .removing case => do
      vectorDelete ports case.caseId
      pure (.removed case)
  | .removed case => do
      let degraded ← unprojectCase ports event case
      pure (.unprojected degraded)
  | .unprojected degraded => do
      Prog.write (setCaseIndex event.entityId .tombstoned false none)
      pure (.returned ⟨.tombstoned, degraded⟩)
  | .returned result => pure (.returned result)
  | .raised e => pure (.raised e)

/-- What is left of `handle` from a point on. -/
def resume (ports : IndexPorts γ) (event : IndexJobMessage) : HandlerPoint → Handler γ HandlerResult
  | .begin => handle ports event
  | .checked case => upsertCase ports event case
  | .embedded case text vector => do
      vectorUpsert ports .case [caseVector case vector]
      let degraded ← projectCase ports event case
      Prog.write (setCaseIndex event.entityId (indexedStatus degraded) true (some text))
      supersedeOriginal ports event case
      pure (caseResult degraded)
  | .stored case text => do
      let degraded ← projectCase ports event case
      Prog.write (setCaseIndex event.entityId (indexedStatus degraded) true (some text))
      supersedeOriginal ports event case
      pure (caseResult degraded)
  | .projected case text degraded => do
      Prog.write (setCaseIndex event.entityId (indexedStatus degraded) true (some text))
      supersedeOriginal ports event case
      pure (caseResult degraded)
  | .activated case degraded => do
      supersedeOriginal ports event case
      pure (caseResult degraded)
  | .removing case => tombstoneCase ports event case
  | .removed case => do
      let degraded ← unprojectCase ports event case
      Prog.write (setCaseIndex event.entityId .tombstoned false none)
      pure ⟨.tombstoned, degraded⟩
  | .unprojected degraded => do
      Prog.write (setCaseIndex event.entityId .tombstoned false none)
      pure ⟨.tombstoned, degraded⟩
  | .returned result => pure result
  | .raised e => Prog.raise e

theorem resume_begin (ports : IndexPorts γ) (event : IndexJobMessage) :
    resume ports event .begin = handle ports event := rfl

/-- **Small steps of a handler compose to the handler.** -/
theorem resume_step (ports : IndexPorts γ) (event : IndexJobMessage) (point : HandlerPoint) :
    resume ports event point = handlerStep ports event point >>= resume ports event := by
  cases point with
  | begin =>
      by_cases htype : event.entityType = .diagnosisCase
      · simp only [resume, handlerStep, if_pos htype, handle_of_case htype, handleCase,
          Prog.bind_assoc]
        refine congrArg _ (funext fun found => congrArg _ (funext fun case => ?_))
        by_cases hop : event.operation = .tombstone
        · simp only [if_pos hop, Prog.pure_bind, resume]
        · simp only [if_neg hop, Prog.pure_bind, resume]
      · simp only [resume, handlerStep, if_neg htype, Prog.bind_assoc, Prog.pure_bind,
          Prog.bind_pure]
  | raised e => rfl
  | _ => simp only [resume, handlerStep, upsertCase, tombstoneCase, Prog.bind_assoc, Prog.pure_bind]

/-! ## Deliveries -/

/-- How far `consume` is with a message. -/
inductive Stage
  | delivered
  /-- `repository.start` has committed, and the handler is at `point`; if it has raised, the
  `except` branch is next. -/
  | handling (job : IndexJobRecord) (point : HandlerPoint)
  /-- `repository.finish` has committed, and the acknowledgement inside the `try` is next. -/
  | finished (job : IndexJobRecord)
  /-- The message is to be published for a retry or to the dead letters. -/
  | publishing (dead : Bool)
  /-- Only the last acknowledgement is left. -/
  | acking

/-- What becomes of a delivery. -/
inductive Next
  | stay (stage : Stage)
  /-- `consume` returns, and the message has been acknowledged. -/
  | done
  /-- `consume` raises, and the broker takes the message back. -/
  | back

/-- The broker takes a message back. -/
def giveBack (event : IndexJobMessage) (w : World γ) : World γ :=
  { w with queue := w.queue ++ [event], unacked := w.unacked.erase event }

/-- The stage of a delivery that goes on. -/
def Next.stage : Next → Option Stage
  | .stay stage => some stage
  | .done | .back => none

/-- What the broker does with the message of a delivery that is over. -/
def Next.close (event : IndexJobMessage) : Next → World γ → World γ
  | .stay _ => id
  | .done => settle event
  | .back => giveBack event

/-- `start` has committed, and the write of `finish` or `fail` is still to come. -/
def Stage.atWork : Stage → Bool
  | .handling _ (.raised .cancelled) => false
  | .handling _ _ => true
  | _ => false

/-- The delivery goes on and is at work. -/
def Next.atWork (next : Next) : Bool := next.stage.any Stage.atWork

/-- The delivery is still to move its job: it has not been started, is at work, or is to publish the
message once more. -/
def Stage.carries : Stage → Bool
  | .delivered | .handling _ _ | .publishing false => true
  | _ => false

def Next.carries (next : Next) : Bool := next.stage.any Stage.carries

/-- What a handler has returned closes the job. -/
def Stage.Closes : Stage → Prop
  | .handling _ (.returned result) => result.status.terminal = true
  | _ => True

def Next.Closes (next : Next) : Prop := ∀ stage, next.stage = some stage → stage.Closes

@[simp] theorem Next.close_getJob (event : IndexJobMessage) (next : Next) (w : World γ) (k : String) :
    (next.close event w).getJob k = w.getJob k := by
  cases next <;> rfl

@[simp] theorem Next.close_cases (event : IndexJobMessage) (next : Next) (w : World γ) :
    (next.close event w).cases = w.cases := by
  cases next <;> rfl

/-- The `except` branches of `consume`, up to their database write. -/
def failStep (event : IndexJobMessage) (job : IndexJobRecord) (e : HandlerError) (w : World γ) :
    Next × World γ :=
  match e with
  | .cancelled => (.back, w)
  | .stale => (.stay .acking, finish event.jobId .stale w)
  | e =>
      (.stay (.publishing (deadLettered job.row.attemptCount job.row.maxAttempts e)),
        fail event.jobId e.code e.typeName
          (!deadLettered job.row.attemptCount job.row.maxAttempts e) w)

/-- One step of the handler inside a delivery. -/
def handleStep (ports : ConsumerPorts γ) (event : IndexJobMessage) (job : IndexJobRecord)
    (point : HandlerPoint) (w : World γ) : Next × World γ :=
  match handlerStep ports.handlers event point w with
  | (.ok point', w') => (.stay (.handling job point'), w')
  | (.error e, w') => (.stay (.handling job (.raised e)), w')

/-- One step of `consume`. -/
def advance (ports : ConsumerPorts γ) (event : IndexJobMessage) (stage : Stage) (w : World γ) :
    Next × World γ :=
  match stage with
  | .delivered =>
      match start event.jobId w with
      | .error _ => (.back, w)
      | .ok (none, w') => (.stay (.publishing true), w')
      | .ok (some job, w') =>
          if job.row.status.finished then (.stay .acking, w')
          else (.stay (.handling job .begin), w')
  | .handling job (.returned result) =>
      (.stay (.finished job), finish event.jobId result.status w)
  | .handling job (.raised e) => failStep event job e w
  | .handling job point => handleStep ports event job point w
  | .finished job =>
      match ports.ack event with
      | .ok () => (.done, w)
      | .error e => (.stay (.handling job (.raised e.val)), w)
  | .publishing dead =>
      match publishFailed (ports.publish event) dead event w with
      | (.ok (), w') => (.stay .acking, w')
      | (.error _, w') => (.back, w')
  | .acking =>
      match ports.lastAck event with
      | .ok () => (.done, w)
      | .error _ => (.back, w)

/-- What is left of `consume` from a stage on. -/
def resumeDelivery (ports : ConsumerPorts γ) (event : IndexJobMessage) : Stage → Worker γ Unit
  | .delivered => consume ports event
  | .handling job point => ofHandler (Prog.handle (do
      let result ← resume ports.handlers event point
      Prog.write (finish event.jobId result.status)
      ackMessage (ports.ack event) event) (exceptBranch ports event job))
  | .finished job => ofHandler (Prog.handle (ackMessage (ports.ack event) event)
      (exceptBranch ports event job))
  | .publishing dead => ofHandler (do
      publishFailed (ports.publish event) dead event
      ackMessage (ports.lastAck event) event)
  | .acking => ofHandler (ackMessage (ports.lastAck event) event)

theorem resumeDelivery_delivered (ports : ConsumerPorts γ) (event : IndexJobMessage) :
    resumeDelivery ports event .delivered = consume ports event := rfl

theorem handle_bind_of_ok {α β : Type} {x : Handler γ α} {f : α → Handler γ β}
    {h : HandlerError → Handler γ β} {w w' : World γ} {a : α} (hx : x w = (.ok a, w')) :
    Prog.handle (x >>= f) h w = Prog.handle (f a) h w' := by
  simp only [Prog.handle, Prog.bind_of_ok hx]

theorem handle_bind_of_error {α β : Type} {x : Handler γ α} {f : α → Handler γ β}
    {h : HandlerError → Handler γ β} {w w' : World γ} {e : HandlerError} (hx : x w = (.error e, w')) :
    Prog.handle (x >>= f) h w = h e w' := by
  simp only [Prog.handle, Prog.bind_of_error hx]

/-- The delivery at `stage` in `w` goes on as `next` in `w'` says. -/
def GoesOn (ports : ConsumerPorts γ) (event : IndexJobMessage) (stage : Stage) (w : World γ) :
    Next × World γ → Prop
  | (.stay stage', w') => resumeDelivery ports event stage w = resumeDelivery ports event stage' w'
  | (.done, w') => resumeDelivery ports event stage w = (.ok (), settle event w')
  | (.back, w') => ∃ e, resumeDelivery ports event stage w = (.error e, w')

theorem goesOn_handleStep (ports : ConsumerPorts γ) (event : IndexJobMessage) (job : IndexJobRecord)
    (point : HandlerPoint) (w : World γ) :
    GoesOn ports event (.handling job point) w (handleStep ports event job point w) := by
  unfold handleStep
  cases hstep : handlerStep ports.handlers event point w with
  | mk r w' =>
      cases r with
      | ok point' =>
          show ofHandler _ w = ofHandler _ w'
          simp only [ofHandler]
          rw [resume_step, Prog.bind_assoc, handle_bind_of_ok hstep]
      | error e =>
          show ofHandler _ w = ofHandler _ w'
          simp only [ofHandler]
          rw [resume_step, Prog.bind_assoc, handle_bind_of_error hstep]
          rfl

theorem goesOn_failStep (ports : ConsumerPorts γ) (event : IndexJobMessage) (job : IndexJobRecord)
    (e : HandlerError) (w : World γ) :
    GoesOn ports event (.handling job (.raised e)) w (failStep event job e w) := by
  cases e with
  | cancelled => exact ⟨_, rfl⟩
  | stale => rfl
  | permanent code => rfl
  | failure code typeName => rfl

/-- **Small steps of a delivery compose to `consume`.** -/
theorem resumeDelivery_step (ports : ConsumerPorts γ) (event : IndexJobMessage) (stage : Stage)
    (w : World γ) : GoesOn ports event stage w (advance ports event stage w) := by
  cases stage with
  | delivered =>
      simp only [advance]
      cases hstart : start event.jobId w with
      | error e =>
          refine ⟨.start e, ?_⟩
          simp [resumeDelivery, consume, startJob, Prog.transaction, Prog.bind_apply, hstart]
      | ok result =>
          obtain ⟨job, w'⟩ := result
          have hrun : startJob event.jobId w = (.ok job, w') := by
            simp [startJob, Prog.transaction, hstart]
          have hconsume : consume ports event w = _ := Prog.bind_of_ok hrun
          cases job with
          | none => exact hconsume
          | some job =>
              simp only at hconsume ⊢
              by_cases hfinished : job.row.status.finished = true
              · rw [if_pos hfinished] at hconsume ⊢
                exact hconsume
              · rw [if_neg hfinished] at hconsume ⊢
                exact hconsume
  | handling job point =>
      cases point with
      | returned result => rfl
      | raised e => exact goesOn_failStep ports event job e w
      | _ => exact goesOn_handleStep ports event job _ w
  | finished job =>
      simp only [advance]
      cases hack : ports.ack event with
      | ok u =>
          simp [GoesOn, resumeDelivery, ofHandler, Prog.handle, ackMessage, hack, ofPort,
            Prog.bind_apply]
      | error e =>
          simp [GoesOn, resumeDelivery, ofHandler, Prog.handle, ackMessage, hack, ofPort,
            Prog.bind_apply, resume]
  | publishing dead =>
      simp only [advance]
      cases hpublish : publishFailed (ports.publish event) dead event w with
      | mk r w' =>
          cases r with
          | ok u => simp [GoesOn, resumeDelivery, ofHandler, Prog.bind_apply, hpublish]
          | error e => exact ⟨.call e, by simp [resumeDelivery, ofHandler, Prog.bind_apply, hpublish]⟩
  | acking =>
      simp only [advance]
      cases hack : ports.lastAck event with
      | ok u =>
          simp [GoesOn, resumeDelivery, ofHandler, ackMessage, hack, ofPort, Prog.bind_apply]
      | error e =>
          exact ⟨.call e.val,
            by simp [resumeDelivery, ofHandler, ackMessage, hack, ofPort, Prog.bind_apply]⟩

end EnergyAgent.Indexing
