import EnergyAgent.Agent.Events
import EnergyAgent.Agent.CallRules
import EnergyAgent.Agent.Workflow
import EnergyAgent.Lib.Runs

/-!
# What a stream tells

`stream_message` gives `diagnose` an emitter and closes it when `diagnose` is over. Here are the
programs of `diagnose` once more, with the emitter that they pass on; without it they are the
programs of `Execution` (`diagnose_erased`). An exception loses the emitter: what is asked for are
the streams of requests that return.

`Answered` lets the other requests change the store between any two calls.
-/

namespace EnergyAgent.Agent

open EnergyAgent.Lib

/-- The keyword arguments of `emit`. -/
inductive EventPayload
  | intent (intent : Option DiagnosisIntent)
  | template (templateId templateVersion : Option String)
  | evidenceRefs (evidenceRefs : List String)
  | clarificationQuestions (questions : List ClarificationQuestion)
  | empty
  | result (response : DiagnosisResponse)
  deriving DecidableEq

abbrev Emitter (τ : Type) := QueueDiagnosisEventEmitter τ EventPayload

section programs

variable {τ : Type} (settings : DedupSettings) (deps : Dependencies) (clock : Nat → τ)

/-- `emit`; `clock k` is the time at which the `k`-th event is put on the queue. -/
def put (emitter : Emitter τ) (event : SSEEventType) (state : DiagnosisState)
    (payload : EventPayload) : Emitter τ :=
  emitter.emit (clock emitter.sequence) event state payload

/-- What a node emits that turns `state` into `state'`. -/
def WorkflowNode.emit (emitter : Emitter τ) (state state' : DiagnosisState) :
    WorkflowNode → Emitter τ
  | .intentRouter => put clock emitter .intentIdentified state (.intent state'.intent)
  | .toolDispatcher => put clock emitter .dataFetchStarted state
      (.template state.diagnosisTemplateId state.diagnosisTemplateVersion)
  | .evidenceAggregator => put clock emitter .retrievalCompleted state
      (.evidenceRefs state'.evidenceRefs)
  | .clarificationGenerator => put clock emitter .needUserInput state
      (.clarificationQuestions state'.clarificationQuestions)
  | .responseGenerator => put clock emitter .draftGenerated state .empty
  | _ => emitter

def runGraphStreaming (interrupt : Interrupt) : (limit k : Nat) → WorkflowNode → DiagnosisState →
    ToolData → Emitter τ → Call settings (workflow deps) (DiagnosisState × Emitter τ)
  | 0, _, _, _, _, _ => .raise .recursionLimit
  | limit + 1, k, n, state, toolData, emitter => do
      awaitPoint settings interrupt k .node
      match ← @ask (workflow deps) settings (.node n state toolData) with
      | .failed => .raise .nodeFailed
      | .done state' toolData' _ => do
          let emitter := n.emit clock emitter state state'
          @logStep (workflow deps) settings interrupt k n state'
          awaitPoint settings interrupt k .done
          match n.next state' with
          | none => return (state', emitter)
          | some m => runGraphStreaming interrupt limit (k + 1) m state' toolData' emitter

/-- The end of `diagnose`: a completed run puts its response on the stream. -/
def finishStreaming (sessionId runId : String) (state : DiagnosisState) (emitter : Emitter τ) :
    Call settings (workflow deps) (DiagnosisResponse × Emitter τ) := do
  let response ← finishDiagnosis settings sessionId runId state
  return (response, if state.phase = .completed then
    put clock emitter .completed state (.result response) else emitter)

def runDiagnosisStreaming (payload : ChatRequest) (traceId : String) (interrupt : Interrupt)
    (session : SessionRow) (memory : Option SessionMemory) (runId : String) (emitter : Emitter τ) :
    Call settings (workflow deps) (DiagnosisResponse × Emitter τ) := do
  updateSession payload.sessionId { phase := some .init, runId := some runId }
  let initial ← liftExcept settings (initialState payload session memory runId traceId)
  let (state, emitter) ← Proc.handle
    (runGraphStreaming settings deps clock interrupt recursionLimit 0 .intentRouter initial {} emitter)
    (onWorkflowError settings payload.sessionId session runId)
  finishStreaming settings deps clock payload.sessionId runId state emitter

def diagnoseRunStreaming (payload : ChatRequest) (key : Option String) (traceId : String)
    (interrupt : Interrupt) (session : SessionRow) (memory : Option SessionMemory)
    (emitter : Emitter τ) : Call settings (workflow deps) (DiagnosisResponse × Emitter τ) := do
  let runId ← orRaise .dependencyUnavailable
    (← ask (.createRun (chatRun payload key session memory traceId)))
  runDiagnosisStreaming settings deps clock payload traceId interrupt session memory runId emitter

/-- The state that `_explain_previous` makes up for its event, without the parent of the run, which
no event carries. -/
def explanationState (payload : ChatRequest) (session : SessionRow) (memory : Option SessionMemory)
    (response : DiagnosisResponse) : DiagnosisState where
  sessionId := response.sessionId
  runId := response.runId
  traceId := response.traceId
  phase := .completed
  source := session.source
  userMessage := some payload.message
  followupMode := some "explain_previous_result"
  memoryRevision := (memory.map SessionMemory.memoryRevision).getD 1
  parentRunId := none
  intent := some .followupClarification
  diagnosisTemplateId := none
  diagnosisTemplateVersion := none
  alarmCategory := none
  deviceContext := none
  alarmContext := none
  plan := []
  toolResults := []
  evidence := response.evidence
  evidenceRefs := response.evidenceRefs
  candidateCauses := (response.result.map DiagnosisResult.candidateCauses).getD []
  userFeedback := []
  riskLevel := (response.result.map DiagnosisResult.riskLevel).getD .unknown
  degradedComponents := []
  finalResponse := response.result

/-- `_explain_previous`, which puts its response on the stream before it returns it. -/
def explainStreaming (payload : ChatRequest) (key : Option String) (traceId : String)
    (session : SessionRow) (memory : Option SessionMemory) (emitter : Emitter τ) :
    Call settings (workflow deps) (DiagnosisResponse × Emitter τ) := do
  let response ← explainPrevious settings payload key traceId memory
  return (response, put clock emitter .completed (explanationState payload session memory response)
    (.result response))

def diagnoseNewStreaming (payload : ChatRequest) (key : Option String) (traceId : String)
    (interrupt : Interrupt) (session : SessionRow) (emitter : Emitter τ) :
    Call settings (workflow deps) (DiagnosisResponse × Emitter τ) := do
  Proc.raiseIf (session.phase = .failed) .conflict
  let memory ← ask (.getMemory payload.sessionId)
  if session.phase = .completed then
    if chatMode payload ≠ "explain_previous_result" then .raise .conflict
    else explainStreaming settings deps clock payload key traceId session memory emitter
  else
    liftExcept settings (checkAnswers payload memory)
    diagnoseRunStreaming settings deps clock payload key traceId interrupt session memory emitter

def diagnoseStreaming (payload : ChatRequest) (key : Option String) (traceId : String)
    (interrupt : Interrupt) (emitter : Emitter τ) :
    Call settings (workflow deps) (DiagnosisResponse × Emitter τ) := do
  let session ← orRaise .resourceNotFound (← ask (.getSession payload.sessionId))
  match Text.truthy key with
  | none => diagnoseNewStreaming settings deps clock payload key traceId interrupt session emitter
  | some k => do
      match ← ask (.findIdempotent payload.sessionId k) with
      | none =>
          diagnoseNewStreaming settings deps clock payload key traceId interrupt session emitter
      | some existing => do
          Proc.raiseIf (existing.requestHash ≠ .chat payload.sessionId payload)
            .idempotencyConflict
          let response ← getSession settings payload.sessionId
          -- nothing is put on the stream of a replay
          return (response, emitter)

/-- `stream_message`: the emitter when its stream is over. -/
def streamMessage (payload : ChatRequest) (key : Option String) (traceId : String)
    (interrupt : Interrupt) : Call settings (workflow deps) (Emitter τ) := do
  let (_response, emitter) ← diagnoseStreaming settings deps clock payload key traceId interrupt {}
  return emitter.close

end programs

/-! ## Without the emitter -/

section erased

variable {τ : Type} (settings : DedupSettings) (deps : Dependencies) (clock : Nat → τ)

/-- The program without the emitter that it passes on. -/
abbrev erase {α : Type} (p : Call settings (workflow deps) (α × Emitter τ)) :
    Call settings (workflow deps) α := p >>= fun x => .ret x.1

theorem runGraph_erased (interrupt : Interrupt) (limit k : Nat) (n : WorkflowNode)
    (state : DiagnosisState) (toolData : ToolData) (emitter : Emitter τ) :
    erase settings deps
      (runGraphStreaming settings deps clock interrupt limit k n state toolData emitter) =
        @runGraph (workflow deps) settings interrupt limit k n state toolData := by
  induction limit generalizing k n state toolData emitter with
  | zero => rfl
  | succ limit ih =>
      simp only [erase, runGraphStreaming, runGraph, Proc.bind_assoc]
      congr 1
      funext _
      congr 1
      funext outcome
      cases outcome with
      | failed => rfl
      | done state' toolData' written =>
          simp only [Proc.bind_assoc]
          congr 1
          funext _
          congr 1
          funext _
          cases hnext : n.next state' with
          | none =>
              have hnext' : (workflow deps).next n state' = none := hnext
              simp only [hnext']
              rfl
          | some m =>
              have hnext' : (workflow deps).next n state' = some m := hnext
              simp only [hnext']
              exact ih ..

theorem finish_erased (sessionId runId : String) (state : DiagnosisState) (emitter : Emitter τ) :
    erase settings deps (finishStreaming settings deps clock sessionId runId state emitter) =
      finishDiagnosis settings sessionId runId state := by
  simp only [erase, finishStreaming, Proc.bind_assoc]
  exact Proc.bind_ret _

theorem onWorkflowError_erased (sessionId : String) (session : SessionRow) (runId : String)
    (e : ExecutionError) :
    erase settings deps (onWorkflowError settings sessionId session runId e :
      Call settings (workflow deps) (DiagnosisState × Emitter τ)) =
        onWorkflowError settings sessionId session runId e := by
  cases e <;> simp only [erase, onWorkflowError, Proc.bind_assoc, Proc.raise_bind]

/-- What follows the workflow does so in its own program. -/
theorem workflow_erased (sessionId : String) (session : SessionRow) (runId : String)
    (p : Call settings (workflow deps) (DiagnosisState × Emitter τ)) :
    erase settings deps (Proc.handle p (onWorkflowError settings sessionId session runId) >>=
        fun x => finishStreaming settings deps clock sessionId runId x.1 x.2) =
      Proc.handle (erase settings deps p) (onWorkflowError settings sessionId session runId) >>=
        finishDiagnosis settings sessionId runId := by
  have hhandle := Proc.handle_map p (onWorkflowError settings sessionId session runId) Prod.fst
  simp only [onWorkflowError_erased settings deps] at hhandle
  rw [← hhandle]
  simp only [erase, Proc.bind_assoc, Proc.ret_bind]
  congr 1
  funext x
  exact finish_erased settings deps clock sessionId runId x.1 x.2

theorem runDiagnosis_erased (payload : ChatRequest) (traceId : String) (interrupt : Interrupt)
    (session : SessionRow) (memory : Option SessionMemory) (runId : String) (emitter : Emitter τ) :
    erase settings deps (runDiagnosisStreaming settings deps clock payload traceId interrupt session
      memory runId emitter) =
        runDiagnosis settings payload traceId interrupt session memory runId := by
  simp only [erase, runDiagnosisStreaming, runDiagnosis, Proc.bind_assoc]
  congr 1
  funext _
  congr 1
  funext initial
  rw [← Proc.bind_assoc]
  exact (workflow_erased settings deps clock _ _ _ _).trans
    (congrArg (fun p => Proc.handle p _ >>= _) (runGraph_erased settings deps clock ..))

theorem explain_erased (payload : ChatRequest) (key : Option String) (traceId : String)
    (session : SessionRow) (memory : Option SessionMemory) (emitter : Emitter τ) :
    erase settings deps
      (explainStreaming settings deps clock payload key traceId session memory emitter) =
        explainPrevious settings payload key traceId memory := by
  simp only [erase, explainStreaming, Proc.bind_assoc]
  exact Proc.bind_ret _

theorem diagnoseNew_erased (payload : ChatRequest) (key : Option String) (traceId : String)
    (interrupt : Interrupt) (session : SessionRow) (emitter : Emitter τ) :
    erase settings deps
      (diagnoseNewStreaming settings deps clock payload key traceId interrupt session emitter) =
        diagnoseNew settings payload key traceId interrupt session := by
  simp only [erase, diagnoseNewStreaming, diagnoseNew, Proc.bind_assoc]
  congr 1
  funext _
  congr 1
  funext memory
  split
  · split
    · rfl
    · exact explain_erased settings deps clock payload key traceId session memory emitter
  · simp only [diagnoseRunStreaming, diagnoseRun, Proc.bind_assoc]
    congr 1
    funext _
    congr 1
    funext _
    congr 1
    funext runId
    exact runDiagnosis_erased settings deps clock payload traceId interrupt session memory runId
      emitter

/-- **A streaming request is the request**: it makes the calls of `diagnose` and returns what
`diagnose` returns. -/
theorem diagnose_erased (payload : ChatRequest) (key : Option String) (traceId : String)
    (interrupt : Interrupt) (emitter : Emitter τ) :
    erase settings deps
      (diagnoseStreaming settings deps clock payload key traceId interrupt emitter) =
        diagnose settings payload key traceId interrupt := by
  have hnew := fun session =>
    diagnoseNew_erased settings deps clock payload key traceId interrupt session emitter
  simp only [erase, diagnoseStreaming, diagnose, Proc.bind_assoc]
  congr 1
  funext _
  congr 1
  funext session
  cases Text.truthy key with
  | none => exact hnew session
  | some k =>
      simp only [Proc.bind_assoc]
      congr 1
      funext existing
      cases existing with
      | none => exact hnew session
      | some existing =>
          simp only [Proc.bind_assoc]
          congr 1
          funext _
          exact Proc.bind_ret _

end erased

/-! ## How a stream ends -/

/-- The events that say how a request ended. -/
def SSEEventType.Terminal (event : SSEEventType) : Prop :=
  event = .needUserInput ∨ event = .completed

instance (event : SSEEventType) : Decidable event.Terminal := inferInstanceAs (Decidable (_ ∨ _))

/-- The events are numbered from 1 without gaps, and the last one, and only that, says how the
request ended. -/
structure TellsHowItEnded {τ π : Type} (events : List (SSEEvent τ π)) : Prop where
  numbered : events.map SSEEvent.eventSequence = List.range' 1 events.length
  once : events.countP (fun e => decide e.event.Terminal) = 1
  last : ∃ e ∈ events.getLast?, e.event.Terminal

section endings

variable {τ : Type} {settings : DedupSettings} {deps : Dependencies} {clock : Nat → τ}

/-- What an open emitter has been given says nothing yet about the end. -/
def Going (emitter : Emitter τ) : Prop :=
  ∃ sent, emitter.Sent sent ∧ ∀ e ∈ sent, ¬ e.event.Terminal

/-- The last event that an open emitter has been given is the one that tells the end. -/
def Told (emitter : Emitter τ) : Prop :=
  ∃ sent e, emitter.Sent (sent ++ [e]) ∧ e.event.Terminal ∧ ∀ e' ∈ sent, ¬ e'.event.Terminal

theorem going_empty : Going ({} : Emitter τ) :=
  ⟨[], QueueDiagnosisEventEmitter.sent_nil, by simp⟩

theorem Going.put {emitter : Emitter τ} (h : Going emitter) {event : SSEEventType}
    (hevent : ¬ event.Terminal) (state : DiagnosisState) (payload : EventPayload) :
    Going (put clock emitter event state payload) := by
  obtain ⟨sent, hsent, hquiet⟩ := h
  refine ⟨_, hsent.emit _ _ _ _, fun e he => ?_⟩
  rcases List.mem_append.mp he with hold | hnew
  · exact hquiet e hold
  · rw [List.mem_singleton.mp hnew]
    exact hevent

theorem Going.tell {emitter : Emitter τ} (h : Going emitter) {event : SSEEventType}
    (hevent : event.Terminal) (state : DiagnosisState) (payload : EventPayload) :
    Told (Agent.put clock emitter event state payload) := by
  obtain ⟨sent, hsent, hquiet⟩ := h
  exact ⟨sent, _, hsent.emit _ _ _ _, hevent, hquiet⟩

theorem Told.events_close {emitter : Emitter τ} (h : Told emitter) :
    TellsHowItEnded emitter.close.events := by
  obtain ⟨sent, e, hsent, he, hquiet⟩ := h
  rw [hsent.events_close]
  refine ⟨hsent.numbered, ?_, e, by simp, he⟩
  have hbefore : sent.countP (fun e => decide e.event.Terminal) = 0 := by
    rw [List.countP_eq_zero]
    simpa using hquiet
  rw [List.countP_append, hbefore]
  simp [he]

/-- An empty stream tells nothing. -/
theorem not_tells_nil : ¬ TellsHowItEnded ([] : List (SSEEvent τ EventPayload)) :=
  fun h => by cases h.once

/-- The nodes before the last one say nothing about the end. -/
theorem Going.node {emitter : Emitter τ} (h : Going emitter) {n m : WorkflowNode}
    {state state' : DiagnosisState} (hnext : n.next state' = some m) :
    Going (n.emit clock emitter state state') := by
  cases n with
  | clarificationGenerator | memoryWriter => cases hnext
  | intentRouter | toolDispatcher | evidenceAggregator | responseGenerator =>
      exact h.put (by decide) _ _
  | _ => exact h

/-- How the workflow leaves the emitter: either the run waits for input, and the stream says so, or
the run is completed. -/
def AtEnd (state : DiagnosisState) (emitter : Emitter τ) : Prop :=
  (state.phase ≠ .completed ∧ Told emitter) ∨ (state.phase = .completed ∧ Going emitter)

theorem Going.last {emitter : Emitter τ} (h : Going emitter) {env : Environment} {n : WorkflowNode}
    {state state' : DiagnosisState} {toolData toolData' : ToolData}
    {written : Option DiagnosisResult}
    (hrun : n.run deps env state toolData = .done state' toolData' written)
    (hnext : n.next state' = none) : AtEnd state' (n.emit clock emitter state state') := by
  cases n with
  | clarificationGenerator =>
      simp only [WorkflowNode.run, clarificationGenerator] at hrun
      split at hrun
      · cases hrun
      · cases hrun
        exact Or.inl ⟨by simp, h.tell (Or.inl rfl) _ _⟩
  | memoryWriter =>
      cases hrun
      exact Or.inr ⟨rfl, h⟩
  | _ => cases hnext

theorem returns_runGraphStreaming (interrupt : Interrupt) (limit k : Nat) (n : WorkflowNode)
    (state : DiagnosisState) (toolData : ToolData) {emitter : Emitter τ} (h : Going emitter) :
    (runGraphStreaming settings deps clock interrupt limit k n state toolData emitter).Returns
      fun x => AtEnd x.1 x.2 := by
  induction limit generalizing k n state toolData emitter with
  | zero => exact trivial
  | succ limit ih =>
      refine .bind (Proc.returns_true _) fun _ _ outcome hanswer => ?_
      cases outcome with
      | failed => exact trivial
      | done state' toolData' written =>
          obtain ⟨env, hrun⟩ := run_of_answers hanswer
          change Proc.Returns _ (@logStep (workflow deps) settings interrupt k n state' >>= fun _ => _)
          refine .bind (Proc.returns_true _) fun _ _ => .bind (Proc.returns_true _) fun _ _ => ?_
          cases hnext : n.next state' with
          | none => exact h.last hrun hnext
          | some m => exact ih _ _ _ _ (h.node hnext)

/-- A completed run tells its end last of all. -/
theorem returns_finishStreaming (sessionId runId : String) {state : DiagnosisState}
    {emitter : Emitter τ} (h : AtEnd state emitter) :
    (finishStreaming settings deps clock sessionId runId state emitter).Returns
      fun x => Told x.2 := by
  refine .bind (Proc.returns_true _) fun response _ => ?_
  rcases h with ⟨hphase, htold⟩ | ⟨hphase, hgoing⟩
  · rw [if_neg hphase]
    exact htold
  · rw [if_pos hphase]
    exact hgoing.tell (Or.inr rfl) _ _

theorem returns_diagnoseNewStreaming (payload : ChatRequest) (key : Option String)
    (traceId : String) (interrupt : Interrupt) (session : SessionRow) {emitter : Emitter τ}
    (h : Going emitter) :
    (diagnoseNewStreaming settings deps clock payload key traceId interrupt session emitter).Returns
      fun x => Told x.2 := by
  refine .bind (Proc.returns_true _) fun _ _ => .bind (Proc.returns_true _) fun memory _ => ?_
  split
  · split
    · exact trivial
    · exact .bind (Proc.returns_true _) fun response _ => h.tell (Or.inr rfl) _ _
  · refine .bind (Proc.returns_true _) fun _ _ => .bind (Proc.returns_true _) fun _ _ =>
      .bind (Proc.returns_true _) fun runId _ => ?_
    refine .bind (Proc.returns_true _) fun _ _ => .bind (Proc.returns_true _) fun initial _ => ?_
    refine Proc.Returns.bind (.handle (returns_runGraphStreaming interrupt _ _ _ _ _ h)
      fun e => returns_onWorkflowError _ _ _ e) fun x hend => ?_
    exact returns_finishStreaming _ _ hend

/-- The call looks a key up. -/
def Op.LooksUp : Op (workflow deps) → Prop
  | .findIdempotent _ _ => True
  | _ => False

theorem uses_diagnoseNew_noLookup (payload : ChatRequest) (key : Option String) (traceId : String)
    (interrupt : Interrupt) (session : SessionRow) :
    (diagnoseNew settings payload key traceId interrupt session :
      Call settings (workflow deps) _).Uses fun op : Op (workflow deps) => ¬ op.LooksUp := by
  have hworkflow : WorkflowCalls payload.sessionId fun op : Op (workflow deps) => ¬ op.LooksUp :=
    ⟨fun _ _ _ => id, fun _ _ _ _ => id, fun _ _ _ => id, fun _ => id, fun _ _ _ _ => id⟩
  refine .bind (Proc.uses_raiseIf _ _) fun _ => .bind (uses_ask id) fun memory => ?_
  split
  · split
    · exact trivial
    · refine .bind ?_ fun _ => .bind (uses_ask id) fun _ => .bind (uses_ask id) fun _ =>
        .bind (uses_orRaise _ _) fun _ => .bind (uses_ask id) fun _ => trivial
      unfold previousResult
      cases memory.bind SessionMemory.finalResult with
      | some result => exact trivial
      | none => exact .bind (uses_ask id) fun _ => uses_orRaise _ _
  · exact .bind (uses_liftExcept _) fun _ => .bind (uses_ask id) fun _ =>
      .bind (uses_orRaise _ _) fun runId =>
        uses_runDiagnosis payload traceId interrupt hworkflow session memory runId

/-- The request is a replay: the lookup of its key has found a run of the session. -/
def Replayed (payload : ChatRequest) (key : Option String)
    (calls : List (backend settings (workflow deps)).Call) : Prop :=
  ∃ k existing, Text.truthy key = some k ∧
    ⟨.findIdempotent payload.sessionId k, some existing⟩ ∈ calls

/-- A request behind the lookup looks no key up and tells how it ends. -/
theorem answered_diagnoseNewStreaming {payload : ChatRequest} {key : Option String}
    {traceId : String} {interrupt : Interrupt} {session : SessionRow}
    {calls : List (backend settings (workflow deps)).Call}
    {x : DiagnosisResponse × Emitter τ}
    (h : (diagnoseNewStreaming settings deps clock payload key traceId interrupt session {}).Answered
      calls (.ok x)) : (∀ c ∈ calls, ¬ c.1.LooksUp) ∧ Told x.2 := by
  refine ⟨?_, h.returns (returns_diagnoseNewStreaming payload key traceId interrupt session
    going_empty)⟩
  have herased := h.bind_map Prod.fst
  rw [← erase, diagnoseNew_erased] at herased
  exact herased.uses (uses_diagnoseNew_noLookup payload key traceId interrupt session)

theorem answered_ask_bind {rt : Runtime} {α : Type} {op : Op rt} {f : Ans rt op → Call settings rt α}
    {calls : List (backend settings rt).Call} {r : Except ExecutionError α}
    (h : (ask op >>= f).Answered calls r) :
    ∃ a rest, (f a).Answered rest r ∧ calls = ⟨op, a⟩ :: rest :=
  Proc.answered_call h

/-- A replay puts nothing on its stream. -/
theorem answered_replay {payload : ChatRequest} {existing : RunRow}
    {calls : List (backend settings (workflow deps)).Call} {x : DiagnosisResponse × Emitter τ}
    (h : (do
      Proc.raiseIf (existing.requestHash ≠ .chat payload.sessionId payload) .idempotencyConflict
      let response ← getSession settings payload.sessionId
      return (response, {}) :
        Call settings (workflow deps) (DiagnosisResponse × Emitter τ)).Answered calls (.ok x)) :
    x.2 = {} := by
  have hreturns : Proc.Returns (fun x : DiagnosisResponse × Emitter τ => x.2 = {}) (do
      Proc.raiseIf (existing.requestHash ≠ .chat payload.sessionId payload) .idempotencyConflict
      let response ← getSession settings payload.sessionId
      return (response, {}) : Call settings (workflow deps) (DiagnosisResponse × Emitter τ)) :=
    .bind (Proc.returns_true _) fun _ _ => .bind (Proc.returns_true _) fun _ _ => rfl
  exact h.returns hreturns

/-- **Every stream tells how the request ended, unless the request is a replay.** -/
theorem stream_tells_iff {payload : ChatRequest} {key : Option String} {traceId : String}
    {interrupt : Interrupt} {calls : List (backend settings (workflow deps)).Call}
    {emitter : Emitter τ}
    (h : (streamMessage settings deps clock payload key traceId interrupt).Answered calls
      (.ok emitter)) :
    TellsHowItEnded emitter.events ↔ ¬ Replayed payload key calls := by
  obtain ⟨x, before, rest, hx, hclose, rfl⟩ := h.bind_ok
  obtain ⟨rfl, hemitter⟩ := Proc.answered_ret hclose
  obtain rfl := Except.ok.inj hemitter
  obtain ⟨found, calls, hfound, rfl⟩ := answered_ask_bind hx
  obtain ⟨session, none_, calls, hsession, hrest, rfl⟩ := hfound.bind_ok
  have hnone : none_ = [] := by
    cases found with
    | none => cases Proc.answered_raise hsession
    | some row => exact (Proc.answered_ret hsession).1
  subst hnone
  cases hkey : Text.truthy key with
  | none =>
      rw [hkey] at hrest
      refine iff_of_true (answered_diagnoseNewStreaming hrest).2.events_close ?_
      rintro ⟨k, existing, hsome, -⟩
      rw [hkey] at hsome
      cases hsome
  | some k =>
      rw [hkey] at hrest
      obtain ⟨existing, later, hlater, rfl⟩ := answered_ask_bind hrest
      cases existing with
      | none =>
          obtain ⟨hquiet, htold⟩ := answered_diagnoseNewStreaming hlater
          refine iff_of_true htold.events_close ?_
          rintro ⟨k', existing, -, hmem⟩
          simp at hmem
          exact hquiet _ hmem trivial
      | some existing =>
          have hempty := answered_replay hlater
          refine iff_of_false ?_ (not_not.mpr ⟨k, existing, hkey, by simp⟩)
          rw [hempty]
          exact not_tells_nil

end endings

/-! ## A request and its replay -/

/-- The question about the fan, asked with a key. -/
def fanStream : Call sampleSettings (workflow sampleDeps) (Emitter Nat) :=
  streamMessage sampleSettings sampleDeps id fanQuestion (some "key-1") "trace-2" none

def fanStore : Store := { emptyStore with sessions := [fanSession] }

/-- As many calls as `fanStream` needs, answered by the tools that know the fan. -/
def fanInputs (runId : String) : List (CallInput (workflow sampleDeps)) :=
  List.replicate 70 { sampleInput 1 "" runId with node := answeringEnvironment }

/-- What the request returns, with the store that it leaves. -/
def streamed (s : Store) (runId : String) : Option (Emitter Nat × Store) :=
  (fanStream.solo (fanInputs runId) s).bind fun (_, result, t) =>
    result.toOption.map fun emitter => (emitter, t)

theorem answered_of_streamed {s t : Store} {runId : String} {emitter : Emitter Nat}
    (h : streamed s runId = some (emitter, t)) : ∃ calls, fanStream.Answered calls (.ok emitter) := by
  obtain ⟨⟨calls, result, t'⟩, hsolo, hresult⟩ := Option.bind_eq_some_iff.mp h
  obtain ⟨emitter', hok, heq⟩ := Option.map_eq_some_iff.mp hresult
  cases heq
  cases result with
  | error e => cases hok
  | ok a =>
      cases hok
      have hruns : fanStream.Runs (fun _ => True) s calls (.ok emitter) t :=
        Proc.runs_of_solo (fun _ _ => trivial) hsolo
      exact ⟨calls, hruns.answered⟩

/-- The stream of the question. -/
theorem fan_stream_tells : ∃ calls emitter, fanStream.Answered calls (.ok emitter) ∧
    (TellsHowItEnded emitter.events ↔
      ¬ @Replayed sampleSettings sampleDeps fanQuestion (some "key-1") calls) := by
  have hends : (streamed fanStore "run-2").isSome := by decide +kernel
  obtain ⟨⟨emitter, t⟩, h⟩ := Option.isSome_iff_exists.mp hends
  obtain ⟨calls, hcalls⟩ := answered_of_streamed h
  exact ⟨calls, emitter, hcalls, stream_tells_iff hcalls⟩

/-- The question asked again with its key: nothing is on the stream. -/
theorem replay_tells_nothing :
    ¬ ∀ (settings : DedupSettings) (deps : Dependencies) (clock : Nat → Nat) (payload : ChatRequest)
      (key : Option String) (traceId : String) (interrupt : Interrupt)
      (calls : List (backend settings (workflow deps)).Call) (emitter : Emitter Nat),
      (streamMessage settings deps clock payload key traceId interrupt).Answered calls
        (.ok emitter) → TellsHowItEnded emitter.events := by
  intro hall
  have hends : ((streamed fanStore "run-2").bind fun x => streamed x.2 "run-3").map
      (fun x => x.1.events) = some [] := by decide +kernel
  obtain ⟨⟨emitter, t⟩, h, hempty⟩ := Option.map_eq_some_iff.mp hends
  obtain ⟨⟨first, u⟩, -, hreplay⟩ := Option.bind_eq_some_iff.mp h
  obtain ⟨calls, hcalls⟩ := answered_of_streamed hreplay
  have htells := hall _ _ _ _ _ _ _ _ _ hcalls
  rw [show emitter.events = [] from hempty] at htells
  exact not_tells_nil htells

end EnergyAgent.Agent
