import EnergyAgent.Indexing.Batch
import Mathlib.Data.List.Dedup

/-!
# Delivering index messages

`OutboxPublisher`, `IndexConsumer.consume` and the batch drainer. A delivered message is in
`World.unacked` until the consumer acknowledges or rejects it; when the consumer raises instead, the
broker takes the message back (`requeueUnacked`).

The dead-letter queue is not modelled: nothing reads it. Database calls succeed except for the
validation and the keys the repository itself enforces; the handlers, the broker and the
acknowledgement may fail in any way.
-/

namespace EnergyAgent.Indexing

open EnergyAgent.Lib EnergyAgent.Persistence

variable {γ : Type}

/-! ## Settling messages -/

/-- What comes out of `consume` or `drain`. -/
inductive ConsumeError
  /-- `repository.start` raised. -/
  | start (e : RepositoryError)
  /-- A handler was cancelled, or the broker raised. -/
  | call (e : HandlerError)
  deriving DecidableEq, Repr

abbrev Worker (γ α : Type) := Prog (World γ) ConsumeError α

/-- The ports of a consumer: those of its handlers, and how the broker answers for a message.
`ack` is the acknowledgement after a success, `lastAck` any later one; one that raises was not sent. -/
structure ConsumerPorts (γ : Type) where
  handlers : IndexPorts γ
  publish : IndexJobMessage → CallOutcome
  ack : IndexJobMessage → Except PortError Unit
  lastAck : IndexJobMessage → Except PortError Unit

/-- The broker forgets a message that was acknowledged or rejected. -/
def settle (event : IndexJobMessage) (w : World γ) : World γ :=
  { w with unacked := w.unacked.erase event }

/-- A message put on the retry queue. -/
def requeue (event : IndexJobMessage) (w : World γ) : World γ :=
  { w with queue := w.queue ++ [event] }

/-- Messages that were delivered and not settled go back to the queue. -/
def requeueUnacked (w : World γ) : World γ :=
  { w with queue := w.queue ++ w.unacked, unacked := [] }

/-- Take a message from the queue. -/
def receive (event : IndexJobMessage) (w : World γ) : World γ :=
  { w with queue := w.queue.erase event, unacked := w.unacked ++ [event] }

/-- A handler's program inside a worker. -/
def ofHandler {α : Type} (x : Handler γ α) : Worker γ α := fun w =>
  match x w with
  | (.ok a, w') => (.ok a, w')
  | (.error e, w') => (.error (.call e), w')

/-- `message.ack()`. -/
def ackMessage (outcome : Except PortError Unit) (event : IndexJobMessage) : Handler γ Unit := do
  Prog.lift (ofPort outcome)
  Prog.write (settle event)

/-- `repository.start`. -/
def startJob (jobId : String) : Worker γ (Option IndexJobRecord) :=
  Prog.transaction (fun w => match start jobId w with
    | .ok result => .ok result
    | .error e => .error (.start e))

/-! ## Failures -/

/-- The error code a failure is recorded under. -/
def HandlerError.code : HandlerError → String
  | .stale => "INDEX_PROVIDER_UNAVAILABLE"
  | .permanent code => code
  | .failure code _ => code
  | .cancelled => "INDEX_PROVIDER_UNAVAILABLE"

/-- `type(exc).__name__`. -/
def HandlerError.typeName : HandlerError → String
  | .stale => "StaleIndexEventError"
  | .permanent _ => "PermanentIndexError"
  | .failure _ typeName => typeName
  | .cancelled => "CancelledError"

/-- `not isinstance(exc, PermanentIndexError)`. -/
def HandlerError.retryable : HandlerError → Bool
  | .permanent _ => false
  | _ => true

/-- The dead letter decision for a job record and an exception. -/
def deadLettered (attemptCount : Nat) (maxAttempts : MaxAttempts) (e : HandlerError) : Bool :=
  shouldDeadLetter attemptCount maxAttempts e.retryable

/-- The publication after a failure: to the retry queue, or to the dead letters. -/
def publishFailed (outcome : CallOutcome) (dead : Bool) (event : IndexJobMessage) :
    Handler γ Unit :=
  callOutcome outcome (if dead then id else requeue event)

/-- The `except Exception` branch of `consume`, and `_fail` of the drainer. -/
def failMessage (ports : ConsumerPorts γ) (event : IndexJobMessage) (attemptCount : Nat)
    (maxAttempts : MaxAttempts) (e : HandlerError) : Handler γ Unit := do
  let dead := deadLettered attemptCount maxAttempts e
  Prog.write (fail event.jobId e.code e.typeName (!dead))
  publishFailed (ports.publish event) dead event
  ackMessage (ports.lastAck event) event

/-! ## `IndexConsumer.consume` -/

/-- The `try` block of `consume`. -/
def tryHandle (ports : ConsumerPorts γ) (event : IndexJobMessage) : Handler γ Unit := do
  let result ← handle ports.handlers event
  Prog.write (finish event.jobId result.status)
  ackMessage (ports.ack event) event

/-- The `except` branches of `consume`. -/
def exceptBranch (ports : ConsumerPorts γ) (event : IndexJobMessage) (job : IndexJobRecord)
    (e : HandlerError) : Handler γ Unit :=
  match e with
  | .cancelled => Prog.raise .cancelled
  | .stale => do
      Prog.write (finish event.jobId .stale)
      ackMessage (ports.lastAck event) event
  | e => failMessage ports event job.row.attemptCount job.row.maxAttempts e

/-- The `try` statement of `consume`, for a job that was started. -/
def work (ports : ConsumerPorts γ) (event : IndexJobMessage) (job : IndexJobRecord) :
    Handler γ Unit :=
  Prog.handle (tryHandle ports event) (exceptBranch ports event job)

/-- `consume`, on a message whose body is a valid `IndexJobMessage`. A message of an unknown job goes
to the dead letters. -/
def consume (ports : ConsumerPorts γ) (event : IndexJobMessage) : Worker γ Unit := do
  let job ← startJob event.jobId
  match job with
  | none => ofHandler (do
      publishFailed (ports.publish event) true event
      ackMessage (ports.lastAck event) event)
  | some job =>
      if job.row.status.finished then ofHandler (ackMessage (ports.lastAck event) event)
      else ofHandler (work ports event job)

/-! ## The batch drainer -/

/-- `PendingMessage`. -/
structure PendingMessage where
  event : IndexJobMessage
  attemptCount : Nat
  maxAttempts : MaxAttempts

/-- The loop of `drain` that starts the jobs of a batch of messages. -/
def startAll (ports : ConsumerPorts γ) : List IndexJobMessage → Worker γ (List PendingMessage)
  | [] => pure []
  | event :: events => do
      let job ← startJob event.jobId
      match job with
      | none => do
          Prog.write (settle event)
          startAll ports events
      | some job =>
          if job.row.status.finished then do
            ofHandler (ackMessage (ports.lastAck event) event)
            startAll ports events
          else do
            let pending ← startAll ports events
            pure (⟨event, job.row.attemptCount, job.row.maxAttempts⟩ :: pending)

/-- The key of `groups`. -/
def PendingMessage.group (item : PendingMessage) : EntityType × IndexOperation :=
  (item.event.entityType, item.event.operation)

/-- `groups.values()`: the messages by entity type and operation, each group where its first message
stands. -/
def groups (pending : List PendingMessage) : List (List PendingMessage) :=
  ((pending.map PendingMessage.group).reverse.dedup.reverse).map
    (fun key => pending.filter (fun item => item.group = key))

/-- `results[job_id]`: the last entry under the key. -/
def resultOf (results : BatchResults) (jobId : String) : Option HandlerResult :=
  (results.reverse.find? (fun entry => entry.1 = jobId)).map (·.2)

/-- The loop of `_process` over the results of a batch. -/
def finishAll (ports : ConsumerPorts γ) (results : BatchResults) :
    List PendingMessage → Handler γ Unit
  | [] => pure ()
  | item :: items =>
      match resultOf results item.event.jobId with
      | none => Prog.raise (.uncoded "KeyError")
      | some result => do
          Prog.write (finish item.event.jobId result.status)
          ackMessage (ports.ack item.event) item.event
          finishAll ports results items

/-- `_process`: a batch that fails is split in halves until single messages fail. -/
def process (ports : ConsumerPorts γ) (pending : List PendingMessage) : Handler γ Unit := fun w =>
  match handleBatch ports.handlers (pending.map (·.event)) w with
  | (.ok results, w') => finishAll ports results pending w'
  | (.error e, w') =>
      if e = .cancelled then (.error e, w')
      else
        match pending with
        | [] => (.ok (), w')
        | [item] => failMessage ports item.event item.attemptCount item.maxAttempts e w'
        | item :: item' :: items => (do
            process ports ((item :: item' :: items).take ((items.length + 2) / 2))
            process ports ((item :: item' :: items).drop ((items.length + 2) / 2))) w'
termination_by pending.length
decreasing_by
  · simp only [List.length_take, List.length_cons]
    omega
  · simp only [List.length_drop, List.length_cons]
    omega

/-- One round of `drain`, on the messages it got from the queue. -/
def drain (ports : ConsumerPorts γ) (messages : List IndexJobMessage) : Worker γ Unit := do
  let pending ← startAll ports messages
  (groups pending).forM (fun group => ofHandler (process ports group))

/-! ## `OutboxPublisher` -/

/-- How the publication of one outbox row went. -/
inductive PublishOutcome
  /-- Sent and marked. -/
  | published
  /-- The broker refused it. -/
  | failed
  /-- Sent, but `mark_published` raised. -/
  | unmarked
  deriving DecidableEq, Repr

/-- `publish_once` on one pending row. -/
def publishRow (row : IndexOutboxModel) (outcome : PublishOutcome) (w : World γ) : World γ :=
  match outcome with
  | .published => markPublished row.id row.jobId (requeue row.payload w)
  | .failed => markPublishFailed row.id "INDEX_OUTBOX_PUBLISH_FAILED" w
  | .unmarked =>
      markPublishFailed row.id "INDEX_OUTBOX_PUBLISH_FAILED" (requeue row.payload w)

/-! ## The groups of a batch -/

/-- Sorting a list into the classes of a key loses and repeats nothing. -/
theorem perm_filter_classes {α κ : Type} [DecidableEq κ] (f : α → κ) (l : List α) :
    ∀ {keys : List κ}, keys.Nodup →
      (keys.map (fun key => l.filter (fun a => f a = key))).flatten.Perm
        (l.filter (fun a => f a ∈ keys))
  | [], _ => by simp
  | key :: keys, hnodup => by
    obtain ⟨hkey, hrest⟩ := List.nodup_cons.mp hnodup
    have ih := perm_filter_classes f l hrest
    rw [List.map_cons, List.flatten_cons]
    refine (List.Perm.append_left _ ih).trans ?_
    have hsplit := List.filter_append_perm (fun a => decide (f a = key))
      (l.filter (fun a => decide (f a ∈ key :: keys)))
    refine List.Perm.trans (List.Perm.of_eq ?_) hsplit
    rw [List.filter_filter, List.filter_filter]
    congr 1
    · refine List.filter_congr (fun a _ => ?_)
      by_cases h : f a = key <;> simp [h]
    · refine List.filter_congr (fun a _ => ?_)
      by_cases h : f a = key
      · simp [h, hkey]
      · simp [h]

theorem groups_perm (pending : List PendingMessage) : (groups pending).flatten.Perm pending := by
  unfold groups
  have hnodup : ((pending.map PendingMessage.group).reverse.dedup.reverse).Nodup :=
    List.nodup_reverse.mpr (List.nodup_dedup _)
  refine (perm_filter_classes PendingMessage.group pending hnodup).trans (List.Perm.of_eq ?_)
  refine List.filter_eq_self.mpr (fun item hitem => ?_)
  simp only [List.mem_reverse, List.mem_dedup, decide_eq_true_eq]
  exact List.mem_map_of_mem hitem

end EnergyAgent.Indexing
