import EnergyAgent.Agent.Repository

/-!
# `DiagnosisExecutionService`

`create_session`, `diagnose` with its cancel and exception paths, `get_session`, and the part of
`review_diagnosis` that touches the session, as programs of calls. The workflow is a parameter
(`Runtime`): its nodes may leave any state, and may raise.

`diagnose` runs under `try`: a `CancelledError` may arrive at any await inside the workflow
(`Interrupt` says at which), everywhere else a cancelled request just never goes on. Audit, the
timeline, the log of steps, metrics and the event stream are left out.
-/

namespace EnergyAgent.Agent

open EnergyAgent.Lib

inductive ExecutionError
  | resourceNotFound | idempotencyConflict | conflict
  | clarificationStale | clarificationAlreadyAnswered | unknownClarificationQuestion
  | dependencyUnavailable | integrityError | assertionError | validationError
  | cancelled | nodeFailed | recursionLimit
  | sessionNotReviewable | invalidEvidenceReference | rootCauseOverrideReasonRequired
  | reviewNotRecorded
  deriving DecidableEq, Repr

structure CreateSessionResponse where
  sessionId : String
  runId : String
  phase : DiagnosisPhase
  traceId : String
  merged : Bool := false
  duplicateCount : Nat := 1
  deriving DecidableEq, Repr

/-- `DiagnosisResponse`, without the fields of a review. -/
structure DiagnosisResponse where
  sessionId : String
  runId : String
  traceId : String
  phase : DiagnosisPhase
  intent : Option DiagnosisIntent := none
  result : Option DiagnosisResult := none
  evidence : List Evidence := []
  evidenceRefs : List String := []
  toolSummaries : List ToolResultSummary := []
  clarificationQuestions : List ClarificationQuestion := []
  degradedComponents : List String := []
  memoryRevision : Option Int := none
  deriving DecidableEq, Repr

/-- The await of a node at which a cancellation arrives: before the node, before its progress is
written to the session row, before the memory is saved, or after that. -/
inductive CancelPoint
  | node | update | save | done
  deriving DecidableEq, Repr

/-- Where the workflow is cancelled, if it is: at which point of its `k`-th node. -/
abbrev Interrupt := Option (Nat × CancelPoint)

inductive DiagnosisReviewResult
  | confirmed | rejected | needsMoreInfo
  deriving DecidableEq, Repr

def DiagnosisReviewResult.value : DiagnosisReviewResult → String
  | .confirmed => "confirmed"
  | .rejected => "rejected"
  | .needsMoreInfo => "needs_more_info"

/-- The part of a `DiagnosisReviewRequest` that decides about the session. -/
structure DiagnosisReviewRequest where
  reviewResult : DiagnosisReviewResult
  rootCause : Option String
  evidenceRefs : List String
  overrideReason : Option String
  deriving DecidableEq

section programs

variable {rt : Runtime} (settings : DedupSettings)

abbrev Call (rt : Runtime) := Proc (backend settings rt) ExecutionError

variable {settings}

def ask (op : Op rt) : Call settings rt (Ans rt op) :=
  Proc.call (B := backend settings rt) op .ret

def orRaise {α : Type} (e : ExecutionError) : Option α → Call settings rt α
  | some a => .ret a
  | none => .raise e

/-- `sessions.update`, which raises when there is no such session. -/
def updateSession (id : String) (update : SessionUpdate) : Call settings rt Unit := do
  let updated ← ask (.updateSession id update)
  Proc.raiseIf (updated = false) .resourceNotFound

variable (settings)

/-! ## `create_session` -/

/-- An alarm whose session is looked for: the key of its dedup row. -/
def dedupKeyOf (payload : CreateSessionRequest) : Option String :=
  match payload.source, Text.truthy payload.deviceId, Text.truthy payload.alarmId,
      Text.truthy payload.alarmName with
  | .alarm, some deviceId, some _, some alarmName => some (settings.key deviceId alarmName)
  | _, _, _, _ => none

/-- The memory of a new session. The contexts keep the keys whose value is given. -/
def initialMemory (payload : CreateSessionRequest) (sessionId runId traceId : String) :
    SessionMemory where
  sessionId := sessionId
  phase := .init
  runId := runId
  traceId := traceId
  deviceContext := if payload.siteId.isNone ∧ payload.deviceId.isNone then none
    else some { siteId := payload.siteId, deviceId := payload.deviceId }
  alarmContext := if payload.alarmId.isNone ∧ payload.alarmName.isNone then none
    else some { alarmId := payload.alarmId, alarmName := payload.alarmName }

def newSessionRow (payload : CreateSessionRequest) (traceId sessionId runId : String) :
    SessionRow where
  id := sessionId
  source := payload.source
  siteId := payload.siteId
  deviceId := payload.deviceId
  alarmId := payload.alarmId
  alarmName := payload.alarmName
  traceId := traceId
  runId := runId

def initRun (payload : CreateSessionRequest) (key : Option String)
    (traceId sessionId runId : String) : RunRow where
  id := runId
  sessionId := sessionId
  traceId := traceId
  idempotencyKey := key
  requestHash := .createSession payload
  status := "initialized"
  runType := .sessionInit

/-- `register`: the read, and the write that follows it. -/
def registerAlarm (key sessionId : String) : Call settings rt Unit := do
  let found ← ask (.registered key)
  let _time ← orRaise .integrityError (← ask (.register key sessionId found))
  return

/-- The alarm of the new session is registered. -/
def registerSession (payload : CreateSessionRequest) (sessionId : String) : Call settings rt Unit :=
  match dedupKeyOf settings payload with
  | some dedupKey => registerAlarm settings dedupKey sessionId
  | none => .ret ()

/-- The session, its first run and its memory; the alarm is registered last. -/
def createFresh (payload : CreateSessionRequest) (key : Option String) (traceId : String) :
    Call settings rt CreateSessionResponse := do
  let (sessionId, runId) ← ask (.createSession (newSessionRow payload traceId))
  let _run ← orRaise .dependencyUnavailable
    (← ask (.createRun fun _ => initRun payload key traceId sessionId runId))
  ask (.saveMemory (initialMemory payload sessionId runId traceId))
  registerSession settings payload sessionId
  return { sessionId := sessionId, runId := runId, phase := .init, traceId := traceId }

/-- The part of `create_session` behind the lookup of the key. -/
def createUnlessMerged (payload : CreateSessionRequest) (key : Option String) (traceId : String) :
    Call settings rt CreateSessionResponse :=
  match dedupKeyOf settings payload with
  | none => createFresh settings payload key traceId
  | some dedupKey => do
      let (found, _time) ← ask (.hit dedupKey)
      match found with
      | none => createFresh settings payload key traceId
      | some hit => do
          let existing ← orRaise .assertionError (← ask (.getSession hit.sessionId))
          return {
            sessionId := hit.sessionId
            runId := existing.runId
            phase := existing.phase
            traceId := existing.traceId
            merged := true
            duplicateCount := hit.hitCount }

def createSession (payload : CreateSessionRequest) (key : Option String) (traceId : String) :
    Call settings rt CreateSessionResponse :=
  match Text.truthy key with
  | none => createUnlessMerged settings payload key traceId
  | some k => do
      match ← ask (.findIdempotentGlobal k) with
      | none => createUnlessMerged settings payload key traceId
      | some existing => do
          Proc.raiseIf (existing.requestHash ≠ .createSession payload) .idempotencyConflict
          let session ← orRaise .assertionError (← ask (.getSession existing.sessionId))
          return {
            sessionId := existing.sessionId
            runId := existing.id
            phase := session.phase
            traceId := existing.traceId }

/-! ## `get_session` -/

def memoryResponse (sessionId : String) (memory : SessionMemory) : DiagnosisResponse where
  sessionId := sessionId
  runId := memory.runId
  traceId := memory.traceId
  phase := memory.phase
  intent := memory.intent
  result := memory.finalResult
  evidence := memory.evidence
  evidenceRefs := memory.evidenceRefs
  toolSummaries := memory.toolSummaries
  clarificationQuestions := memory.clarificationQuestions
  degradedComponents := memory.degradedComponents
  memoryRevision := some memory.memoryRevision

/-- The answer when the memory has expired. -/
def persistedResponse (session : SessionRow) (run : Option RunRow) (result : Option ResultRow) :
    DiagnosisResponse where
  sessionId := session.id
  runId := (run.map RunRow.id).getD session.runId
  traceId := (run.map RunRow.traceId).getD session.traceId
  phase := session.phase
  result := result.map ResultRow.result
  evidence := (result.map fun r => r.result.evidence).getD []
  evidenceRefs := (result.map fun r => r.result.evidence.map Evidence.evidenceId).getD []
  degradedComponents := (result.map fun r => r.result.degradedComponents).getD []

def getSession (sessionId : String) : Call settings rt DiagnosisResponse := do
  let session ← orRaise .resourceNotFound (← ask (.getSession sessionId))
  match ← ask (.getMemory sessionId) with
  | some memory => return memoryResponse sessionId memory
  | none => do
      let run ← ask (.latestRun sessionId)
      let result ← ask (.latestResult sessionId)
      return persistedResponse session run result

/-! ## `diagnose` -/

/-- `followup_mode`, or what the answers make of it. -/
def chatMode (payload : ChatRequest) : String :=
  match Text.truthy payload.followupMode with
  | some mode => mode
  | none => if payload.clarificationAnswers = [] then "new_information" else "answer_clarification"

/-- The questions that may be answered. -/
def pendingIds (memory : SessionMemory) : List String :=
  if memory.pendingQuestionIds = [] then memory.clarificationQuestions.map (·.questionId)
  else memory.pendingQuestionIds

/-- The check of the answers, one after the other; `seen` are the questions answered before. -/
def checkAnswer (memory : SessionMemory) : List String → List UserFeedback →
    Except ExecutionError Unit
  | _, [] => .ok ()
  | seen, answer :: rest =>
      if Text.isBlank answer.answer then .error .unknownClarificationQuestion
      else if answer.questionId ∈ memory.resolvedQuestionIds ∨ answer.questionId ∈ seen then
        .error .clarificationAlreadyAnswered
      else if answer.questionId ∉ pendingIds memory then .error .unknownClarificationQuestion
      else checkAnswer memory (answer.questionId :: seen) rest

/-- The checks of a request with clarification answers. -/
def checkAnswers (payload : ChatRequest) (memory : Option SessionMemory) :
    Except ExecutionError Unit :=
  if payload.clarificationAnswers = [] then .ok ()
  else match memory with
    | none => .error .conflict
    | some memory =>
        if ∃ r ∈ payload.expectedMemoryRevision, r ≠ memory.memoryRevision then
          .error .clarificationStale
        else checkAnswer memory [] payload.clarificationAnswers

/-- `DeviceContext.model_validate` of the memory's, or the session's own. -/
def initialDevice (session : SessionRow) (memory : Option SessionMemory) :
    Except ExecutionError (Option DeviceContext) :=
  match memory.bind SessionMemory.deviceContext with
  | some dump =>
      match dump.validate with
      | some context => .ok (some context)
      | none => .error .validationError
  | none => .ok ((Text.truthy session.deviceId).map fun deviceId =>
      ⟨session.siteId, deviceId, none, none, none⟩)

/-- `AlarmContext.model_validate` of the memory's, or the session's own. -/
def initialAlarm (session : SessionRow) (memory : Option SessionMemory) :
    Except ExecutionError (Option AlarmContext) :=
  match memory.bind SessionMemory.alarmContext with
  | some dump =>
      match dump.validate with
      | some context => .ok (some context)
      | none => .error .validationError
  | none => .ok ((Text.truthy session.alarmId).map fun alarmId =>
      ⟨alarmId, session.alarmName.getD "", none⟩)

/-- The state that the workflow starts from. -/
def initialState (payload : ChatRequest) (session : SessionRow) (memory : Option SessionMemory)
    (runId traceId : String) : Except ExecutionError DiagnosisState := do
  let device ← initialDevice session memory
  let alarm ← initialAlarm session memory
  return {
    sessionId := payload.sessionId
    runId := runId
    traceId := traceId
    source := session.source
    userMessage := some payload.message
    followupMode := some (chatMode payload)
    memoryRevision := (memory.map fun m => m.memoryRevision + 1).getD 1
    parentRunId := some ((memory.map SessionMemory.runId).getD session.runId)
    deviceContext := device
    alarmContext := alarm
    diagnosisTemplateId := memory.bind SessionMemory.diagnosisTemplateId
    diagnosisTemplateVersion := memory.bind SessionMemory.diagnosisTemplateVersion
    alarmCategory := memory.bind SessionMemory.alarmCategory
    plan := (memory.map SessionMemory.plan).getD []
    toolResults := (memory.map SessionMemory.toolSummaries).getD []
    evidence := (memory.map SessionMemory.evidence).getD []
    evidenceRefs := (memory.map SessionMemory.evidenceRefs).getD []
    candidateCauses := (memory.map SessionMemory.candidateCauses).getD []
    degradedComponents := (memory.map SessionMemory.degradedComponents).getD []
    userFeedback := (memory.map SessionMemory.userFeedbackHistory).getD [] ++
      payload.clarificationAnswers }

/-- `_memory_payload`. -/
def memoryPayload (state : DiagnosisState) (result : Option DiagnosisResult) : SessionMemory :=
  let resolved := state.userFeedback.map UserFeedback.questionId
  { sessionId := state.sessionId
    phase := state.phase
    runId := state.runId
    traceId := state.traceId
    deviceContext := state.deviceContext.map DeviceContext.dump
    alarmContext := state.alarmContext.map AlarmContext.dump
    intent := state.intent
    diagnosisTemplateId := state.diagnosisTemplateId
    diagnosisTemplateVersion := state.diagnosisTemplateVersion
    alarmCategory := state.alarmCategory
    plan := state.plan
    toolSummaries := state.toolResults
    evidence := state.evidence
    evidenceRefs := state.evidenceRefs
    candidateCauses := state.candidateCauses
    clarificationQuestions := state.clarificationQuestions
    finalResult := result
    degradedComponents := state.degradedComponents
    riskLevel := (result.map DiagnosisResult.riskLevel).getD state.riskLevel
    memoryRevision := state.memoryRevision
    parentRunId := state.parentRunId
    pendingQuestionIds := (state.clarificationQuestions.map (·.questionId)).filter (· ∉ resolved)
    resolvedQuestionIds := resolved
    userFeedbackHistory := state.userFeedback
    lastCompletedNode := some (if state.phase = .completed then "memory_writer"
      else "clarification_generator") }

/-- No context lacks a key that it is asked for. -/
structure SessionMemory.Restorable (memory : SessionMemory) : Prop where
  device : ∀ dump ∈ memory.deviceContext, dump.validate.isSome
  alarm : ∀ dump ∈ memory.alarmContext, dump.validate.isSome

/-- What the workflow stores can be read again. -/
theorem restorable_memoryPayload (state : DiagnosisState) (result : Option DiagnosisResult)
    (node : Option String) :
    SessionMemory.Restorable { memoryPayload state result with lastCompletedNode := node } := by
  constructor
  · intro dump hdump
    obtain ⟨context, -, rfl⟩ := Option.map_eq_some_iff.mp hdump
    rfl
  · intro dump hdump
    obtain ⟨context, -, rfl⟩ := Option.map_eq_some_iff.mp hdump
    rfl

/-- A cancellation that arrives at this await. -/
def awaitPoint (interrupt : Interrupt) (k : Nat) (point : CancelPoint) : Call settings rt Unit :=
  Proc.raiseIf (interrupt = some (k, point)) .cancelled

/-- The template that the run has been routed to. -/
def recordTemplate (progress : DiagnosisState) : Call settings rt Unit :=
  match Text.truthy progress.diagnosisTemplateId with
  | some _ => ask (.setTemplate progress.runId progress.diagnosisTemplateId
      progress.diagnosisTemplateVersion progress.alarmCategory)
  | none => .ret ()

/-- `log_step` after a node that returned. -/
def logStep (interrupt : Interrupt) (k : Nat) (n : rt.Node) (progress : DiagnosisState) :
    Call settings rt Unit := do
  Proc.raiseIf (¬ progress.Valid) .validationError
  recordTemplate settings progress
  awaitPoint settings interrupt k .update
  updateSession progress.sessionId { phase := some progress.phase, runId := some progress.runId }
  awaitPoint settings interrupt k .save
  ask (.saveMemory { memoryPayload progress none with lastCompletedNode := some (rt.name n) })

/-- `graph.ainvoke`: node after node, at most `limit` of them (LangGraph's recursion limit). -/
def runGraph (interrupt : Interrupt) : (limit k : Nat) → rt.Node → DiagnosisState → rt.ToolData →
    Call settings rt DiagnosisState
  | 0, _, _, _, _ => .raise .recursionLimit
  | limit + 1, k, n, state, toolData => do
      awaitPoint settings interrupt k .node
      match ← ask (.node n state toolData) with
      | .failed => .raise .nodeFailed
      | .done state' toolData' _ => do
          logStep settings interrupt k n state'
          awaitPoint settings interrupt k .done
          match rt.next n state' with
          | none => return state'
          | some m => runGraph interrupt limit (k + 1) m state' toolData'

def recursionLimit : Nat := 25

/-- The two `except` clauses: a cancelled run gives the session row back, any other exception ends
the session. -/
def onWorkflowError (sessionId : String) (session : SessionRow) (runId : String) {α : Type} :
    ExecutionError → Call settings rt α
  | .cancelled => do
      ask (.finishRun runId session.phase "cancelled")
      updateSession sessionId { phase := some session.phase, runId := some session.runId }
      .raise .cancelled
  | e => do
      ask (.finishRun runId .failed "failed")
      updateSession sessionId { phase := some .failed, runId := some runId }
      .raise e

/-- `_response`. -/
def finalResponse (state : DiagnosisState) : DiagnosisResponse where
  sessionId := state.sessionId
  runId := state.runId
  traceId := state.traceId
  phase := state.phase
  intent := state.intent
  result := state.finalResponse
  evidence := state.evidence
  evidenceRefs := state.evidenceRefs
  toolSummaries := state.toolResults
  clarificationQuestions := state.clarificationQuestions
  degradedComponents := state.degradedComponents
  memoryRevision := some state.memoryRevision

/-- What `diagnose` does with the state the workflow ends in. -/
def finishDiagnosis (sessionId runId : String) (state : DiagnosisState) :
    Call settings rt DiagnosisResponse := do
  ask (.setTemplate runId state.diagnosisTemplateId state.diagnosisTemplateVersion
    state.alarmCategory)
  ask (.finishRun runId state.phase
    (if state.phase = .completed then "completed" else "waiting_input"))
  updateSession sessionId
    { phase := some state.phase
      runId := some runId
      finalSummary := state.finalResponse.map DiagnosisResult.summary
      riskLevel := state.finalResponse.map DiagnosisResult.riskLevel }
  ask (.saveMemory (memoryPayload state state.finalResponse))
  return finalResponse state

/-- The run that `diagnose` records. -/
def chatRun (payload : ChatRequest) (key : Option String) (session : SessionRow)
    (memory : Option SessionMemory) (traceId runId : String) : RunRow where
  id := runId
  sessionId := payload.sessionId
  traceId := traceId
  idempotencyKey := key
  requestHash := .chat payload.sessionId payload
  parentRunId := some ((memory.map SessionMemory.runId).getD session.runId)
  runType := if payload.clarificationAnswers = [] then .diagnosis else .clarification

def liftExcept {α : Type} : Except ExecutionError α → Call settings rt α
  | .ok a => .ret a
  | .error e => .raise e

/-- `diagnose` once its run is recorded. -/
def runDiagnosis (payload : ChatRequest) (traceId : String) (interrupt : Interrupt)
    (session : SessionRow) (memory : Option SessionMemory) (runId : String) :
    Call settings rt DiagnosisResponse := do
  updateSession payload.sessionId { phase := some .init, runId := some runId }
  let initial ← liftExcept settings (initialState payload session memory runId traceId)
  let state ← Proc.handle
    (runGraph settings interrupt recursionLimit 0 rt.entry initial rt.noData)
    (onWorkflowError settings payload.sessionId session runId)
  finishDiagnosis settings payload.sessionId runId state

/-- `diagnose` from the creation of the run on. -/
def diagnoseRun (payload : ChatRequest) (key : Option String) (traceId : String)
    (interrupt : Interrupt) (session : SessionRow) (memory : Option SessionMemory) :
    Call settings rt DiagnosisResponse := do
  let runId ← orRaise .dependencyUnavailable
    (← ask (.createRun (chatRun payload key session memory traceId)))
  runDiagnosis settings payload traceId interrupt session memory runId

/-- The result that is explained: the memory's, or the last one that was persisted. -/
def previousResult (payload : ChatRequest) (memory : Option SessionMemory) :
    Call settings rt DiagnosisResult :=
  match memory.bind SessionMemory.finalResult with
  | some result => .ret result
  | none => do
      let persisted ← ask (.latestResult payload.sessionId)
      orRaise .conflict (persisted.map ResultRow.result)

/-- `_explain_previous`. -/
def explainPrevious (payload : ChatRequest) (key : Option String) (traceId : String)
    (memory : Option SessionMemory) : Call settings rt DiagnosisResponse := do
  let result ← previousResult settings payload memory
  let latest ← ask (.latestRun payload.sessionId)
  let parent := (memory.map SessionMemory.runId).getD ((latest.map RunRow.id).getD "")
  let runId ← orRaise .dependencyUnavailable (← ask (.createRun fun runId =>
    { id := runId
      sessionId := payload.sessionId
      traceId := traceId
      idempotencyKey := key
      requestHash := .chat payload.sessionId payload
      phase := .completed
      parentRunId := some parent
      runType := .explanation
      diagnosisTemplateId := memory.bind SessionMemory.diagnosisTemplateId
      diagnosisTemplateVersion := memory.bind SessionMemory.diagnosisTemplateVersion
      alarmCategory := memory.bind SessionMemory.alarmCategory }))
  ask (.finishRun runId .completed "completed")
  return {
    sessionId := payload.sessionId
    runId := runId
    traceId := traceId
    phase := .completed
    intent := some .followupClarification
    result := some result
    evidence := result.evidence
    evidenceRefs := result.evidence.map Evidence.evidenceId
    memoryRevision := memory.map SessionMemory.memoryRevision }

/-- `diagnose` behind the lookup of the key. -/
def diagnoseNew (payload : ChatRequest) (key : Option String) (traceId : String)
    (interrupt : Interrupt) (session : SessionRow) : Call settings rt DiagnosisResponse := do
  Proc.raiseIf (session.phase = .failed) .conflict
  let memory ← ask (.getMemory payload.sessionId)
  if session.phase = .completed then
    if chatMode payload ≠ "explain_previous_result" then .raise .conflict
    else explainPrevious settings payload key traceId memory
  else
    liftExcept settings (checkAnswers payload memory)
    diagnoseRun settings payload key traceId interrupt session memory

def diagnose (payload : ChatRequest) (key : Option String) (traceId : String)
    (interrupt : Interrupt) : Call settings rt DiagnosisResponse := do
  let session ← orRaise .resourceNotFound (← ask (.getSession payload.sessionId))
  match Text.truthy key with
  | none => diagnoseNew settings payload key traceId interrupt session
  | some k => do
      match ← ask (.findIdempotent payload.sessionId k) with
      | none => diagnoseNew settings payload key traceId interrupt session
      | some existing => do
          Proc.raiseIf (existing.requestHash ≠ .chat payload.sessionId payload)
            .idempotencyConflict
          getSession settings payload.sessionId

/-! ## `review_diagnosis` -/

/-- The part of `CaseApplicationService.review_diagnosis` that reads and writes the session;
`recorded` is whether the review recorder accepts the review. -/
def reviewDiagnosis (sessionId : String) (payload : DiagnosisReviewRequest) (recorded : Bool) :
    Call settings rt Unit := do
  let session ← ask (.getSession sessionId)
  let result ← ask (.latestResult sessionId)
  let session ← orRaise .sessionNotReviewable session
  let result ← orRaise .sessionNotReviewable result
  Proc.raiseIf (session.phase ≠ .completed ∧ session.phase ≠ .needUserInput) .sessionNotReviewable
  Proc.raiseIf (∃ ref ∈ payload.evidenceRefs,
    ref ∉ result.result.evidence.map Evidence.evidenceId) .invalidEvidenceReference
  Proc.raiseIf (payload.reviewResult = .confirmed ∧
    (∀ cause ∈ payload.rootCause, cause ∉ result.result.candidateCauses.map CandidateCause.cause) ∧
    (Text.truthy payload.overrideReason).isNone) .rootCauseOverrideReasonRequired
  Proc.raiseIf (recorded = false) .reviewNotRecorded
  match payload.reviewResult with
  | .confirmed => return
  | .needsMoreInfo =>
      updateSession sessionId
        { phase := some .needUserInput
          latestReviewStatus := some payload.reviewResult.value }
  | .rejected =>
      updateSession sessionId { latestReviewStatus := some payload.reviewResult.value }

/-! ## The requests -/

inductive Request
  | createSession (payload : CreateSessionRequest) (key : Option String) (traceId : String)
  | diagnose (payload : ChatRequest) (key : Option String) (traceId : String)
      (interrupt : Interrupt)
  | getSession (sessionId : String)
  | reviewDiagnosis (sessionId : String) (payload : DiagnosisReviewRequest) (recorded : Bool)
  /-- The memory of the session expires. -/
  | expire (sessionId : String)

inductive Reply
  | created (response : CreateSessionResponse)
  | answered (response : DiagnosisResponse)
  | unit
  deriving DecidableEq

def serve : Request → Call settings rt Reply
  | .createSession payload key traceId =>
      Agent.createSession settings payload key traceId >>= fun r => .ret (.created r)
  | .diagnose payload key traceId interrupt =>
      Agent.diagnose settings payload key traceId interrupt >>= fun r => .ret (.answered r)
  | .getSession sessionId => Agent.getSession settings sessionId >>= fun r => .ret (.answered r)
  | .reviewDiagnosis sessionId payload recorded =>
      Agent.reviewDiagnosis settings sessionId payload recorded >>= fun _ => .ret .unit
  | .expire sessionId => ask (.expireMemory sessionId) >>= fun _ => .ret .unit

abbrev AgentPool (rt : Runtime) := Pool (backend settings rt) Request ExecutionError Reply

abbrev AgentMove (rt : Runtime) := Move (backend settings rt) Request

/-- Nothing stored yet. -/
def Fresh (s : Store) : Prop :=
  s.sessions = [] ∧ s.runs = [] ∧ s.results = [] ∧ s.memories = [] ∧ s.dedup = []

/-- All interleavings of the requests. -/
def system (rt : Runtime) : TransitionSystem (AgentPool settings rt) (AgentMove settings rt) :=
  Pool.system Fresh (serve settings)

end programs

end EnergyAgent.Agent
