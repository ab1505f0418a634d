import EnergyAgent.Agent.State

/-!
# `QueueDiagnosisEventEmitter`

The events of one streaming request: `emit` numbers them and puts them on a queue, `close` puts the
`None` behind them that `events` stops at. What the time of an event and its payload are is left
open (`τ`, `π`).
-/

namespace EnergyAgent.Agent

inductive SSEEventType
  | intentIdentified | dataFetchStarted | retrievalCompleted | needUserInput | draftGenerated
  | completed
  deriving DecidableEq, Repr

def SSEEventType.value : SSEEventType → String
  | .intentIdentified => "intent_identified"
  | .dataFetchStarted => "data_fetch_started"
  | .retrievalCompleted => "retrieval_completed"
  | .needUserInput => "need_user_input"
  | .draftGenerated => "draft_generated"
  | .completed => "completed"

structure SSEEvent (τ π : Type) where
  event : SSEEventType
  eventSequence : Nat
  timestamp : τ
  sessionId : String
  runId : String
  traceId : String
  phase : DiagnosisPhase
  payload : π
  deriving DecidableEq, Repr

structure QueueDiagnosisEventEmitter (τ π : Type) where
  queue : List (Option (SSEEvent τ π)) := []
  sequence : Nat := 0
  closed : Bool := false
  deriving DecidableEq, Repr

/-- `events`: what is taken from the queue before a `None`. -/
def queuedEvents {τ π : Type} : List (Option (SSEEvent τ π)) → List (SSEEvent τ π)
  | some event :: rest => event :: queuedEvents rest
  | none :: _ => []
  | [] => []

namespace QueueDiagnosisEventEmitter

variable {τ π : Type}

def emit (emitter : QueueDiagnosisEventEmitter τ π) (now : τ) (event : SSEEventType)
    (state : DiagnosisState) (payload : π) : QueueDiagnosisEventEmitter τ π :=
  if emitter.closed then emitter
  else { emitter with
    sequence := emitter.sequence + 1
    queue := emitter.queue ++ [some {
      event := event
      eventSequence := emitter.sequence + 1
      timestamp := now
      sessionId := state.sessionId
      runId := state.runId
      traceId := state.traceId
      phase := state.phase
      payload := payload }] }

def close (emitter : QueueDiagnosisEventEmitter τ π) : QueueDiagnosisEventEmitter τ π :=
  if emitter.closed then emitter
  else { emitter with closed := true, queue := emitter.queue ++ [none] }

def events (emitter : QueueDiagnosisEventEmitter τ π) : List (SSEEvent τ π) :=
  queuedEvents emitter.queue

/-- The emitter is open, and `sent` is what it has been given so far. -/
structure Sent (emitter : QueueDiagnosisEventEmitter τ π) (sent : List (SSEEvent τ π)) :
    Prop where
  isOpen : emitter.closed = false
  queue : emitter.queue = sent.map some
  sequence : emitter.sequence = sent.length
  numbered : sent.map SSEEvent.eventSequence = List.range' 1 sent.length

variable {emitter : QueueDiagnosisEventEmitter τ π} {sent : List (SSEEvent τ π)}

theorem sent_nil : Sent ({} : QueueDiagnosisEventEmitter τ π) [] := ⟨rfl, rfl, rfl, rfl⟩

/-- `emit` gives the event the next number. -/
theorem Sent.emit (h : emitter.Sent sent) (now : τ) (event : SSEEventType) (state : DiagnosisState)
    (payload : π) : (emitter.emit now event state payload).Sent (sent ++ [{
      event := event
      eventSequence := sent.length + 1
      timestamp := now
      sessionId := state.sessionId
      runId := state.runId
      traceId := state.traceId
      phase := state.phase
      payload := payload }]) := by
  have hemit : ¬ emitter.closed = true := by simp [h.isOpen]
  unfold QueueDiagnosisEventEmitter.emit
  rw [if_neg hemit]
  refine ⟨h.isOpen, ?_, ?_, ?_⟩
  · simp [h.queue, h.sequence]
  · simp [h.sequence]
  · rw [List.map_append, h.numbered, List.length_append, List.length_singleton,
      List.range'_1_concat, Nat.add_comm 1]
    rfl

theorem queuedEvents_sent (sent : List (SSEEvent τ π)) (rest : List (Option (SSEEvent τ π))) :
    queuedEvents (sent.map some ++ none :: rest) = sent := by
  induction sent with
  | nil => rfl
  | cons event sent ih => exact congrArg (event :: ·) ih

/-- What an emitter that has been closed hands out is what it has been given before. -/
theorem Sent.events_close (h : emitter.Sent sent) : emitter.close.events = sent := by
  have hopen : ¬ emitter.closed = true := by simp [h.isOpen]
  unfold close events
  rw [if_neg hopen, h.queue]
  exact queuedEvents_sent sent []

end QueueDiagnosisEventEmitter

end EnergyAgent.Agent
