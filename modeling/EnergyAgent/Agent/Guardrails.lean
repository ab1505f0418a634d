import EnergyAgent.Agent.Templates

/-!
# Guardrails

`guardrails/input.py`, `planning.py`, `generation.py` and `output.py`, with the service that puts
them together. `Patterns` are the regular expressions that are searched for, and `str.lower`.
-/

namespace EnergyAgent.Agent

open EnergyAgent.Lib

/-- What the regular expressions find in a text. -/
structure Patterns where
  lower : String → String
  /-- `_QUERY.search` -/
  query : String → Bool
  /-- `_contains_high_risk_command` -/
  highRiskCommand : String → Bool
  /-- `_INJECTION.search` -/
  injection : String → Bool
  /-- `HIGH_RISK_PATTERN.search` -/
  highRiskAction : String → Bool
  /-- `_extract_entity_ids`: the device id and the alarm id. -/
  extractEntityIds : String → Option String × Option String

/-! ## The four checks -/

/-- `[\x00-\x08\x0b\x0c\x0e-\x1f\x7f]` -/
def isControl (c : Char) : Bool :=
  let n := c.toNat
  n ≤ 0x08 || n == 0x0b || n == 0x0c || (0x0e ≤ n && n ≤ 0x1f) || n == 0x7f

/-- `[A-Za-z0-9][A-Za-z0-9_.:-]{0,127}`, the full match. -/
def isEntityId (id : String) : Bool :=
  match id.toList with
  | [] => false
  | c :: cs => c.isAlphanum && cs.length ≤ 127 &&
      cs.all fun c => c.isAlphanum || c == '_' || c == '.' || c == ':' || c == '-'

/-- A violation or a warning, if there is one. -/
def report (c : Prop) [Decidable c] (name : String) : List String := if c then [name] else []

@[simp] theorem report_eq_nil {c : Prop} [Decidable c] {name : String} :
    report c name = [] ↔ ¬ c := by
  unfold report
  split <;> simp_all

def checkInput (patterns : Patterns) (message : String) (deviceId alarmId : Option String)
    (clarificationCount : Nat) : GuardrailDecision :=
  let violations :=
    report (Text.isBlank message) "EMPTY_MESSAGE" ++
    report (8000 < message.length) "MESSAGE_TOO_LONG" ++
    report (message.toList.any isControl) "ILLEGAL_CONTROL_CHARACTER" ++
    report (3 < clarificationCount) "TOO_MANY_CLARIFICATIONS" ++
    report (∃ id ∈ Text.truthy deviceId, isEntityId id = false) "INVALID_DEVICE_ID" ++
    report (∃ id ∈ Text.truthy alarmId, isEntityId id = false) "INVALID_ALARM_ID" ++
    report (patterns.query message) "CLIENT_QUERY_LANGUAGE_BLOCKED" ++
    report (patterns.highRiskCommand message) "HIGH_RISK_DEVICE_COMMAND_BLOCKED"
  let warnings := report (patterns.injection message) "PROMPT_INJECTION_DETECTED"
  { status := if violations ≠ [] then .blocked
      else if warnings ≠ [] then .passedWithWarnings else .passed
    violations := violations
    warnings := warnings }

def writeTools : List String := ["create_or_update_ticket", "write_review_result"]

def checkPlan (plan : List PlanStep) (allowedTools : List String) (validTemplate : Bool) :
    GuardrailDecision :=
  let tools := plan.filterMap fun step => Text.truthy step.tool
  let violations :=
    report (validTemplate = false) "UNREGISTERED_TEMPLATE" ++
    report (16 < plan.length) "PLAN_STEP_LIMIT_EXCEEDED" ++
    report (8 < tools.length) "TOOL_CALL_LIMIT_EXCEEDED" ++
    report (∃ tool ∈ tools, tool ∉ allowedTools) "TOOL_NOT_ALLOWLISTED" ++
    report (∃ tool ∈ tools, tool ∈ writeTools) "WRITE_TOOL_AUTOMATION_BLOCKED"
  { status := if violations ≠ [] then .blocked else .passed
    violations := violations }

/-- What `check_generation` has to say about one cause. -/
def causeViolation (known : List String) (cause : CandidateCause) : Option String :=
  if cause.supportingEvidence = [] then some "UNSUPPORTED_STRONG_CLAIM"
  else if ∃ ref ∈ cause.supportingEvidence, ref ∉ known then some "UNKNOWN_EVIDENCE_REFERENCE"
  else if ∀ ref ∈ cause.supportingEvidence, Text.startsWith ref "graph:" then
    some "GRAPH_ONLY_STRONG_CLAIM"
  else none

def checkGeneration (candidates : List CandidateCause) (evidence : List Evidence) :
    GuardrailDecision :=
  let known := evidence.map Evidence.evidenceId
  let violations := candidates.filterMap (causeViolation known)
  { status := if violations ≠ [] then .blocked else .passed
    violations := sortedSet violations
    checkedEvidenceRefs := sortedSet known }

/-- `evidence_source_by_ref`: of two pieces of evidence with one id the last one counts. -/
def sourceOf (evidence : List Evidence) (ref : String) : Option String :=
  (evidence.reverse.find? fun e => e.evidenceId = ref).map Evidence.sourceType

/-- The types of the sources that an action can rest on. -/
def sourceTypes (evidence : List Evidence) (refs : List String) : List String :=
  ((refs.filterMap (sourceOf evidence)).filter (· ∉ ["graph", "device", "alarm"])).dedup

/-- An action of high or critical risk without what it needs. -/
def unsafeAction (evidence : List Evidence) (safetyNotes : List String)
    (action : RecommendedAction) : Bool :=
  (action.riskLevel = .high ∨ action.riskLevel = .critical) ∧
    (action.requiresHumanConfirmation = false ∨
      (sourceTypes evidence action.evidenceRefs).length < 2 ∨ safetyNotes = [])

def checkOutput (summary : String) (actions : List RecommendedAction) (evidence : List Evidence)
    (safetyNotes : List String) : GuardrailDecision :=
  let blocked := actions.filter (unsafeAction evidence safetyNotes)
  let violations := blocked.map (fun _ => "HIGH_RISK_ACTION_UNSAFE") ++
    report (Text.isBlank summary) "EMPTY_SUMMARY"
  { status := if violations ≠ [] then .blocked else .passed
    violations := sortedSet violations
    blockedActions := blocked.map RecommendedAction.actionId
    requiresHumanConfirmation := actions.any RecommendedAction.requiresHumanConfirmation }

/-- `classify_action`. -/
def classifyAction (patterns : Patterns) (description : String) : RiskLevel :=
  if patterns.highRiskAction description then .high else .low

/-! ## `GuardrailService` -/

namespace DiagnosisState

def checkInput (patterns : Patterns) (state : DiagnosisState) : GuardrailDecision :=
  Agent.checkInput patterns (state.userMessage.getD "")
    (state.deviceContext.map DeviceContext.deviceId)
    (state.alarmContext.map AlarmContext.alarmId) state.userFeedback.length

def checkPlan (state : DiagnosisState) (allowedTools : List String) : GuardrailDecision :=
  Agent.checkPlan state.plan allowedTools
    ((Text.truthy state.diagnosisTemplateId).isSome ∧
      (Text.truthy state.diagnosisTemplateVersion).isSome)

def checkOutput (state : DiagnosisState) : GuardrailDecision :=
  Agent.checkOutput ((state.finalResponse.map DiagnosisResult.summary).getD "")
    state.recommendedActions state.evidence
    ((state.finalResponse.map DiagnosisResult.safetyNotes).getD [])

def evaluate (state : DiagnosisState) (candidates : List CandidateCause) : GuardrailDecision :=
  let generation := checkGeneration candidates state.evidence
  let output := state.checkOutput
  let violations := sortedSet (generation.violations ++ output.violations)
  let warnings := sortedSet (generation.warnings ++ output.warnings)
  { status := if violations ≠ [] then .blocked
      else if warnings ≠ [] then .passedWithWarnings else .passed
    violations := violations
    warnings := warnings
    blockedActions := output.blockedActions
    requiresHumanConfirmation := output.requiresHumanConfirmation
    checkedEvidenceRefs := generation.checkedEvidenceRefs }

def supportedCandidates (state : DiagnosisState) : List CandidateCause :=
  state.candidateCauses.filter fun c => (checkGeneration [c] state.evidence).status ≠ .blocked

end DiagnosisState

/-- A plan is blocked for a reason. -/
theorem checkPlan_blocked {plan : List PlanStep} {allowedTools : List String} {validTemplate : Bool} :
    (checkPlan plan allowedTools validTemplate).status = .blocked ↔
      (checkPlan plan allowedTools validTemplate).violations ≠ [] := by
  have hstatus : (checkPlan plan allowedTools validTemplate).status =
      if (checkPlan plan allowedTools validTemplate).violations ≠ [] then .blocked
      else .passed := rfl
  rw [hstatus]
  split <;> simp [*]

def unsafeGenerationViolations : List String :=
  ["UNSUPPORTED_STRONG_CLAIM", "UNKNOWN_EVIDENCE_REFERENCE", "GRAPH_ONLY_STRONG_CLAIM"]

def sanitizeResponse (response : DiagnosisResult) (decision : GuardrailDecision)
    (supported : List CandidateCause) : DiagnosisResult :=
  if ∀ v ∈ unsafeGenerationViolations, v ∉ decision.violations then response
  else
    { response with
      summary := if supported ≠ [] then response.summary
        else "现有证据不足以安全输出候选根因，请补充现场信息或转人工复核。"
      candidateCauses := supported
      recommendedActions := if supported ≠ [] then response.recommendedActions else []
      recommendTicket := if supported ≠ [] then response.recommendTicket else true
      warnings := sortedSet (response.warnings ++ ["UNSUPPORTED_CANDIDATES_REMOVED"]) }

end EnergyAgent.Agent
