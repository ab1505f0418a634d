import Mathlib.Data.Rat.Defs

/-!
# The state of a diagnosis

The record that the workflow works on (`agent/state.py`), the parts it is made of
(`contracts/diagnosis_components.py`, `guardrails/contracts.py`), the session memory and the
structured result (`contracts/diagnosis.py`). Left out are the fields that no modelled function
reads: time stamps other than an alarm's trigger time, the time window, the prompt version, the
derived lists of the memory that nothing reads again, and the metadata of evidence.
-/

namespace EnergyAgent.Agent

inductive DiagnosisPhase
  | init | planReady | dataFetching | evidenceReady | needUserInput | draftReady | reviewing
  | completed | failed
  deriving DecidableEq, Repr

inductive SessionSource
  | alarm | chat
  deriving DecidableEq, Repr

inductive RiskLevel
  | low | medium | high | critical | unknown
  deriving DecidableEq, Repr

inductive DiagnosisIntent
  | faultDiagnosis | knowledgeQa | historyTicketQuery | followupClarification
  deriving DecidableEq, Repr

/-! ## Components -/

structure DeviceContext where
  siteId : Option String
  deviceId : String
  deviceType : Option String
  deviceModel : Option String
  manufacturer : Option String
  deriving DecidableEq, Repr

structure AlarmContext where
  alarmId : String
  alarmName : String
  triggerTime : Option Nat
  deriving DecidableEq, Repr

structure PlanStep where
  stepId : String
  goal : String
  tool : Option String
  deriving DecidableEq, Repr

structure ToolResultSummary where
  toolName : String
  status : String
  hasUsableData : Bool
  summary : Option String
  deriving DecidableEq, Repr

structure Evidence where
  evidenceId : String
  sourceType : String
  sourceId : String
  summary : String
  citation : String
  verified : Bool
  reliability : Rat
  relevance : Rat
  chunkId : Option String
  packageId : Option String
  needManualConfirmation : Bool
  deriving DecidableEq, Repr

structure CandidateCause where
  cause : String
  confidence : Rat
  supportingEvidence : List String
  contradictingEvidence : List String
  missingInformation : List String
  needManualConfirmation : Bool
  deriving DecidableEq, Repr

structure ClarificationQuestion where
  questionId : String
  question : String
  reason : String
  deriving DecidableEq, Repr

/-- A `UserFeedback`, which is also a `ClarificationAnswer`. -/
structure UserFeedback where
  questionId : String
  answer : String
  deriving DecidableEq, Repr

/-! ## Guardrails -/

/-- `execution_status` has one value, `not_executed`, and is left out. -/
structure RecommendedAction where
  actionId : String
  description : String
  riskLevel : RiskLevel
  requiresHumanConfirmation : Bool
  requiredRole : Option String
  evidenceRefs : List String
  deriving DecidableEq, Repr

inductive GuardrailStatus
  | passed | passedWithWarnings | needUserInput | blocked
  deriving DecidableEq, Repr

structure GuardrailDecision where
  status : GuardrailStatus
  violations : List String
  warnings : List String := []
  requiresHumanConfirmation : Bool := false
  blockedActions : List String := []
  checkedEvidenceRefs : List String := []
  deriving DecidableEq, Repr

/-! ## Result, state and memory -/

/-- `StructuredDiagnosisResult`. The workflow keeps it as a dictionary with these keys. -/
structure DiagnosisResult where
  summary : String
  candidateCauses : List CandidateCause
  evidence : List Evidence
  inspectionSteps : List String
  safetyNotes : List String
  missingInformation : List String
  recommendTicket : Bool
  riskLevel : RiskLevel
  warnings : List String
  degradedComponents : List String
  recommendedActions : List RecommendedAction
  guardrailDecision : Option GuardrailDecision
  deriving DecidableEq, Repr

structure DiagnosisState where
  sessionId : String
  runId : String
  traceId : String
  phase : DiagnosisPhase := .init
  source : SessionSource
  userMessage : Option String
  followupMode : Option String
  memoryRevision : Int
  parentRunId : Option String
  intent : Option DiagnosisIntent := none
  diagnosisTemplateId : Option String
  diagnosisTemplateVersion : Option String
  alarmCategory : Option String
  templateRouteBasis : Option String := none
  deviceContext : Option DeviceContext
  alarmContext : Option AlarmContext
  plan : List PlanStep
  toolResults : List ToolResultSummary
  evidence : List Evidence
  evidenceRefs : List String
  candidateCauses : List CandidateCause
  clarificationQuestions : List ClarificationQuestion := []
  userFeedback : List UserFeedback
  riskLevel : RiskLevel := .unknown
  warnings : List String := []
  errors : List String := []
  degradedComponents : List String
  finalResponse : Option DiagnosisResult := none
  recommendedActions : List RecommendedAction := []
  guardrailDecision : Option GuardrailDecision := none
  deriving DecidableEq, Repr

/-- What no node changes: whose run it is, and what came with the request. -/
structure DiagnosisState.SameRun (state state' : DiagnosisState) : Prop where
  sessionId : state'.sessionId = state.sessionId
  runId : state'.runId = state.runId
  traceId : state'.traceId = state.traceId
  memoryRevision : state'.memoryRevision = state.memoryRevision
  userFeedback : state'.userFeedback = state.userFeedback

theorem DiagnosisState.SameRun.trans {s t u : DiagnosisState} (h : s.SameRun t)
    (h' : t.SameRun u) : s.SameRun u where
  sessionId := h'.sessionId.trans h.sessionId
  runId := h'.runId.trans h.runId
  traceId := h'.traceId.trans h.traceId
  memoryRevision := h'.memoryRevision.trans h.memoryRevision
  userFeedback := h'.userFeedback.trans h.userFeedback

/-- `validate_phase_requirements`. -/
def DiagnosisState.Valid (state : DiagnosisState) : Prop :=
  ¬ (state.phase = .needUserInput ∧ state.clarificationQuestions = []) ∧
  ¬ (state.phase = .completed ∧ state.finalResponse = none)

instance (state : DiagnosisState) : Decidable state.Valid := inferInstanceAs (Decidable (_ ∧ _))

/-- A `device_context` as the memory stores it: the dictionary may lack any key. -/
structure DeviceDump where
  siteId : Option String
  deviceId : Option String
  deviceType : Option String := none
  deviceModel : Option String := none
  manufacturer : Option String := none
  deriving DecidableEq, Repr

/-- An `alarm_context` as the memory stores it. -/
structure AlarmDump where
  alarmId : Option String
  alarmName : Option String
  triggerTime : Option Nat := none
  deriving DecidableEq, Repr

def DeviceContext.dump (c : DeviceContext) : DeviceDump where
  siteId := c.siteId
  deviceId := some c.deviceId
  deviceType := c.deviceType
  deviceModel := c.deviceModel
  manufacturer := c.manufacturer

def AlarmContext.dump (c : AlarmContext) : AlarmDump where
  alarmId := some c.alarmId
  alarmName := some c.alarmName
  triggerTime := c.triggerTime

/-- `DeviceContext.model_validate`: the device id is required. -/
def DeviceDump.validate (d : DeviceDump) : Option DeviceContext :=
  d.deviceId.map fun deviceId =>
    ⟨d.siteId, deviceId, d.deviceType, d.deviceModel, d.manufacturer⟩

/-- `AlarmContext.model_validate`: the alarm's id and name are required. -/
def AlarmDump.validate (d : AlarmDump) : Option AlarmContext :=
  match d.alarmId, d.alarmName with
  | some alarmId, some alarmName => some ⟨alarmId, alarmName, d.triggerTime⟩
  | _, _ => none

/-- `SessionMemoryPayload`. -/
structure SessionMemory where
  sessionId : String
  phase : DiagnosisPhase
  runId : String
  traceId : String
  deviceContext : Option DeviceDump
  alarmContext : Option AlarmDump
  intent : Option DiagnosisIntent := none
  diagnosisTemplateId : Option String := none
  diagnosisTemplateVersion : Option String := none
  alarmCategory : Option String := none
  plan : List PlanStep := []
  toolSummaries : List ToolResultSummary := []
  evidence : List Evidence := []
  evidenceRefs : List String := []
  candidateCauses : List CandidateCause := []
  clarificationQuestions : List ClarificationQuestion := []
  finalResult : Option DiagnosisResult := none
  degradedComponents : List String := []
  riskLevel : RiskLevel := .unknown
  memoryRevision : Int := 1
  parentRunId : Option String := none
  pendingQuestionIds : List String := []
  resolvedQuestionIds : List String := []
  userFeedbackHistory : List UserFeedback := []
  lastCompletedNode : Option String := none
  deriving DecidableEq, Repr

end EnergyAgent.Agent
