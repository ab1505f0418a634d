import EnergyAgent.Agent.Guardrails
import EnergyAgent.Agent.Repository

/-!
# The nodes of the diagnosis workflow

`agent/nodes/diagnosis.py`, node by node. What the tools and the model answer is the environment's
choice: any status, any data, any reply that fits its schema. A payload that a node cannot read
(`KeyError`, `ValidationError`) is `none` where the node reads it, and the node raises.
-/

namespace EnergyAgent.Agent

open EnergyAgent.Lib

/-! ## Tools and model -/

inductive ToolStatus
  | ok | partialSuccess | notFound | timeout | degraded | failed
  deriving DecidableEq, Repr

def ToolStatus.value : ToolStatus → String
  | .ok => "OK"
  | .partialSuccess => "PARTIAL_SUCCESS"
  | .notFound => "NOT_FOUND"
  | .timeout => "TIMEOUT"
  | .degraded => "DEGRADED"
  | .failed => "FAILED"

/-- A `ToolResult`; `usable` is `_has_usable_tool_data` of its data. -/
structure ToolResult (δ : Type) where
  success : Bool
  status : ToolStatus
  data : Option δ
  usable : Bool

structure DeviceProfile where
  siteId : String
  deviceId : String
  deviceType : String
  deviceModel : String
  manufacturer : String
  status : String

structure AlarmDetail where
  alarmId : String
  alarmName : String
  alarmLevel : String
  triggerTime : Option Nat

/-- A row of `ranked_evidence`. -/
structure RankedRow where
  sourceType : Option String
  sourceId : String
  citation : String
  contentSummary : String
  verified : Bool
  sourceReliability : Rat
  relevanceToAlarm : Rat
  chunkId : Option String
  packageId : Option String

/-- The dictionary that a search returns; `ranked = none` when one of its rows cannot be read. -/
structure SearchPackage where
  degradedComponents : List String
  ranked : Option (List RankedRow)

structure GraphRelation where
  alarmName : Option String
  faultCause : String
  component : Option String
  supportCount : Int

/-- The dictionary of the graph; `relations = none` when a row cannot be read. -/
structure GraphPackage where
  relations : Option (List GraphRelation)

/-- `tool_data`. -/
structure ToolData where
  device : Option (ToolResult DeviceProfile) := none
  alarm : Option (ToolResult AlarmDetail) := none
  /-- The metrics with their trends. -/
  timeseries : Option (ToolResult (List (String × String))) := none
  manuals : Option (ToolResult SearchPackage) := none
  tickets : Option (ToolResult SearchPackage) := none
  graph : Option (ToolResult GraphPackage) := none

/-- What the tools and the model answer. Without a gateway, and when it falls back, the model has no
reply. -/
structure Environment where
  device : ToolResult DeviceProfile
  alarm : ToolResult AlarmDetail
  timeseries : ToolResult (List (String × String))
  manuals : ToolResult SearchPackage
  tickets : ToolResult SearchPackage
  graph : ToolResult GraphPackage
  /-- `ClarificationEnvelope` -/
  clarification : Option (List ClarificationQuestion)
  /-- `CandidateCauseEnvelope` -/
  causes : Option (List CandidateCause)
  response : Option DiagnosisResult

/-- `DiagnosisNodeDependencies`; `toolNames` are the executor's. -/
structure Dependencies where
  patterns : Patterns
  templates : TemplateRegistry
  toolNames : List String

/-- `_tool_summary`. -/
def toolSummary {δ : Type} (name : String) (result : ToolResult δ) : ToolResultSummary where
  toolName := name
  status := result.status.value
  hasUsableData := result.usable
  summary := some (name ++ ":" ++ result.status.value)

abbrev Outcome := NodeOutcome ToolData

/-- A node that leaves the tool data alone and writes nothing. -/
def NodeOutcome.update (state : DiagnosisState) (toolData : ToolData) : Outcome :=
  .done state toolData none

section nodes

variable (deps : Dependencies) (env : Environment) (state : DiagnosisState) (toolData : ToolData)

/-! ## Routing, parsing and planning -/

def intentRouter : Outcome :=
  .update { state with
    intent := some (if state.userFeedback ≠ [] then .followupClarification else .faultDiagnosis) }
    toolData

def guardrailInputQuestion : ClarificationQuestion where
  questionId := "guardrail_input"
  question := "请仅描述设备现象，并移除命令、查询语句或非法字符。"
  reason := "输入未通过安全校验"

def missingEntityQuestion : ClarificationQuestion where
  questionId := "missing_entity"
  question := "请补充可核验的设备编号和告警编号，例如：设备 PCS-001，告警 ALARM-001。"
  reason := "诊断需要可追溯的设备与告警实体"

/-- The device and the alarm of the state, or those that its texts name. -/
def parsedEntities : Option DeviceContext × Option AlarmContext :=
  let text := Text.join " " (state.userMessage.getD "" :: state.userFeedback.map UserFeedback.answer)
  let (deviceId, alarmId) := deps.patterns.extractEntityIds text
  (state.deviceContext.or ((Text.truthy deviceId).map fun id => ⟨none, id, none, none, none⟩),
    state.alarmContext.or ((Text.truthy alarmId).map fun id => ⟨id, "", none⟩))

def entityParser : Outcome :=
  let inputDecision := state.checkInput deps.patterns
  if inputDecision.status = .blocked then
    .update { state with
      phase := .needUserInput
      clarificationQuestions := [guardrailInputQuestion]
      errors := inputDecision.violations
      warnings := inputDecision.warnings
      guardrailDecision := some inputDecision } toolData
  else match parsedEntities deps state with
    | (some device, some alarm) =>
        .update { state with
          deviceContext := some device
          alarmContext := some alarm
          warnings := state.warnings ++ inputDecision.warnings
          guardrailDecision := some inputDecision } toolData
    | _ =>
        .update { state with
          phase := .needUserInput
          clarificationQuestions := [missingEntityQuestion]
          errors := ["设备或告警实体缺失"] } toolData

/-- `planning_allowed_tools`. -/
def planningAllowedTools : List String := deps.toolNames ++ ["query_graph_relations"]

def guardrailPlanQuestion (violations : List String) : ClarificationQuestion where
  questionId := "guardrail_plan"
  question := "诊断计划未通过安全校验，请由人工审核。"
  reason := Text.join "; " violations

def clarificationApplier : Outcome :=
  let plannedState := { state with
    phase := .evidenceReady
    clarificationQuestions := []
    errors := [] }
  let decision := plannedState.checkPlan (planningAllowedTools deps)
  if decision.status = .blocked then
    .update { plannedState with
      guardrailDecision := some decision
      phase := .needUserInput
      errors := state.errors ++ decision.violations
      clarificationQuestions := [guardrailPlanQuestion decision.violations] } toolData
  else .update { plannedState with guardrailDecision := some decision } toolData

/-- The steps that every plan starts with. -/
def standardPlan : List PlanStep :=
  [⟨"S1", "查询设备画像", some "get_device_profile"⟩,
    ⟨"S2", "查询告警详情", some "get_alarm_detail"⟩,
    ⟨"S3", "查询最近时序窗口", some "query_timeseries_window"⟩,
    ⟨"S4", "检索设备手册", some "search_manual_chunks"⟩,
    ⟨"S5", "检索已审核相似工单", some "search_similar_tickets"⟩,
    ⟨"S6", "查询图谱补充关系", some "query_graph_relations"⟩]

def templatePlan (template : DiagnosisTemplate) : List PlanStep :=
  standardPlan ++ template.planSteps.zipIdx.map fun (goal, index) =>
    ⟨"T" ++ toString (index + 1), goal, none⟩

def templateRouteQuestion (reason : String) : ClarificationQuestion where
  questionId := "template_route"
  question := "请补充标准设备类型和准确告警名称。"
  reason := reason

/-- The plan for a routed template. -/
def planFor (template : DiagnosisTemplate) (basis : String) : DiagnosisState :=
  let plan := templatePlan template
  let plannedState := { state with
    diagnosisTemplateId := some template.templateId
    diagnosisTemplateVersion := some template.templateVersion
    plan := plan }
  let decision := plannedState.checkPlan (planningAllowedTools deps)
  let routed := { plannedState with
    alarmCategory := some template.alarmCategory
    guardrailDecision := some decision }
  if decision.status = .blocked then { routed with errors := decision.violations }
  else { routed with templateRouteBasis := some basis, phase := .planReady }

def planBuilder : Outcome :=
  match state.alarmContext with
  | none => .failed
  | some alarm =>
      match deps.templates.route deps.patterns.lower (state.deviceContext.bind (·.deviceType))
          (some alarm.alarmName) none state.userMessage with
      | .error reason =>
          .update { state with
            phase := .needUserInput
            clarificationQuestions := [templateRouteQuestion reason]
            errors := [reason] } toolData
      | .ok (template, basis) => .update (planFor deps state template basis) toolData

/-! ## Tools -/

/-- The device of the state, as the profile has it. -/
def profiledDevice : Option (Option DeviceContext) :=
  if env.device.success then
    env.device.data.map fun d =>
      some ⟨some d.siteId, d.deviceId, some d.deviceType, some d.deviceModel, some d.manufacturer⟩
  else some state.deviceContext

def detailedAlarm : Option (Option AlarmContext) :=
  if env.alarm.success then
    env.alarm.data.map fun d => some ⟨d.alarmId, d.alarmName, d.triggerTime⟩
  else some state.alarmContext

/-- `assert state.device_context and state.alarm_context`. -/
def hasEntities : Bool := state.deviceContext.isSome && state.alarmContext.isSome

def toolDispatcher : Outcome :=
  if hasEntities state then
    match profiledDevice env state, detailedAlarm env state with
    | some device, some alarm =>
        .update { state with
          phase := .dataFetching
          toolResults := state.toolResults ++
            [toolSummary "get_device_profile" env.device, toolSummary "get_alarm_detail" env.alarm]
          deviceContext := device
          alarmContext := alarm }
          { toolData with device := some env.device, alarm := some env.alarm }
    | _, _ => .failed
  else .failed

/-- The template of the state, if it names one that is registered. -/
def stateTemplate : Option DiagnosisTemplate :=
  (Text.truthy state.diagnosisTemplateId).bind deps.templates.get

def timeseriesFetcher : Outcome :=
  if state.deviceContext.isSome ∧ (stateTemplate deps state).isSome then
    let degraded := env.timeseries.status = .timeout ∨ env.timeseries.status = .degraded ∨
      env.timeseries.status = .failed
    .update { state with
      toolResults := state.toolResults ++ [toolSummary "query_timeseries_window" env.timeseries]
      degradedComponents :=
        if degraded then state.degradedComponents ++ ["influxdb"] else state.degradedComponents }
      { toolData with timeseries := some env.timeseries }
  else .failed

/-- The state after one of the two searches. -/
def searched (name : String) (result : ToolResult SearchPackage) : DiagnosisState :=
  { state with
    toolResults := state.toolResults ++ [toolSummary name result]
    degradedComponents := sortedSet (state.degradedComponents ++
      (result.data.map SearchPackage.degradedComponents).getD []) }

def ticketFetcher : Outcome :=
  if hasEntities state then
    .update (searched state "search_similar_tickets" env.tickets)
      { toolData with tickets := some env.tickets }
  else .failed

def docRetriever : Outcome :=
  if hasEntities state then
    .update (searched state "search_manual_chunks" env.manuals)
      { toolData with manuals := some env.manuals }
  else .failed

def graphFetcher : Outcome :=
  if hasEntities state then
    .update { state with
      toolResults := state.toolResults ++ [toolSummary "query_graph_relations" env.graph]
      degradedComponents := sortedSet (state.degradedComponents ++
        if env.graph.status = .degraded then ["neo4j"] else []) }
      { toolData with graph := some env.graph }
  else .failed

/-! ## Evidence -/

/-- What a successful tool contributes; `none` when its payload cannot be read. -/
def contribution {δ : Type} (result : Option (ToolResult δ)) (read : δ → Option (List Evidence)) :
    Option (List Evidence) :=
  match result with
  | some result => if result.success then result.data.bind read else some []
  | none => some []

/-- The same for a tool whose payload is skipped when it is no dictionary. -/
def dictContribution {δ : Type} (result : Option (ToolResult δ))
    (read : δ → Option (List Evidence)) : Option (List Evidence) :=
  match result with
  | some result => if result.success then (result.data.map read).getD (some []) else some []
  | none => some []

def deviceEvidence (d : DeviceProfile) : Evidence where
  evidenceId := "device:" ++ d.deviceId
  sourceType := "device"
  sourceId := d.deviceId
  summary := d.deviceType ++ " " ++ d.deviceModel ++ "，状态 " ++ d.status
  citation := "[设备: " ++ d.deviceId ++ "]"
  verified := true
  reliability := 1
  relevance := 1
  chunkId := none
  packageId := none
  needManualConfirmation := false

def alarmEvidence (d : AlarmDetail) : Evidence where
  evidenceId := "alarm:" ++ d.alarmId
  sourceType := "alarm"
  sourceId := d.alarmId
  summary := d.alarmName ++ "，等级 " ++ d.alarmLevel
  citation := "[告警: " ++ d.alarmId ++ "]"
  verified := true
  reliability := 1
  relevance := 1
  chunkId := none
  packageId := none
  needManualConfirmation := false

def timeseriesEvidence (deviceId runId : String) (trends : List (String × String)) : Evidence :=
  let rising := (trends.filter fun t => t.2 = "rising").map Prod.fst
  { evidenceId := "timeseries:" ++ deviceId ++ ":" ++ runId
    sourceType := "timeseries"
    sourceId := deviceId
    summary := "上升指标: " ++ (if rising = [] then "无" else Text.join ", " rising) ++
      "；统计摘要已裁剪"
    citation := "[时序: device=" ++ deviceId ++ ", window=" ++ runId ++ "]"
    verified := true
    reliability := 19 / 20
    relevance := 19 / 20
    chunkId := none
    packageId := none
    needManualConfirmation := false }

def rankedEvidence (defaultType : String) (row : RankedRow) : Evidence :=
  let sourceType := row.sourceType.getD defaultType
  { evidenceId := sourceType ++ ":" ++ row.sourceId ++
      ((Text.truthy row.chunkId).map (":" ++ ·)).getD ""
    sourceType := sourceType
    sourceId := row.sourceId
    summary := String.ofList (row.contentSummary.toList.take 500)
    citation := row.citation
    verified := row.verified
    reliability := row.sourceReliability
    relevance := row.relevanceToAlarm
    chunkId := Text.truthy row.chunkId
    packageId := Text.truthy row.packageId
    needManualConfirmation := false }

def graphEvidence (alarm : AlarmContext) (row : GraphRelation) : Evidence :=
  let alarmName := row.alarmName.getD alarm.alarmName
  { evidenceId := "graph:" ++ alarmName ++ ":" ++ row.faultCause
    sourceType := "graph"
    sourceId := alarmName ++ "->" ++ row.faultCause
    summary := alarmName ++ " 可能关联 " ++ row.faultCause ++ "；部件 " ++
      (Text.truthy row.component).getD "未知" ++ "；审核案例支撑 " ++ toString row.supportCount
    citation := "[图谱: " ++ alarmName ++ " -> " ++ row.faultCause ++ "]"
    verified := false
    reliability := min (3 / 5 + (min row.supportCount 2 : Int) * (1 / 20 : Rat)) (7 / 10)
    relevance := 13 / 20
    chunkId := none
    packageId := none
    needManualConfirmation := true }

def searchEvidence (defaultType : String) (result : Option (ToolResult SearchPackage)) :
    Option (List Evidence) :=
  dictContribution result fun package => package.ranked.map (·.map (rankedEvidence defaultType))

def timeseriesContribution : Option (List Evidence) :=
  match state.deviceContext with
  | none => some []
  | some context => contribution toolData.timeseries fun trends =>
      some [timeseriesEvidence context.deviceId state.runId trends]

/-- At most two relations count; they need the alarm of the state. -/
def graphContribution : Option (List Evidence) :=
  dictContribution toolData.graph fun package =>
    state.alarmContext.bind fun alarm =>
      package.relations.map fun relations => (relations.take 2).map (graphEvidence alarm)

/-- The evidence of all tools, or `none` when some payload cannot be read. -/
def collectedEvidence : Option (List Evidence) := do
  let device ← contribution toolData.device fun d => some [deviceEvidence d]
  let alarm ← contribution toolData.alarm fun d => some [alarmEvidence d]
  let timeseries ← timeseriesContribution state toolData
  let manuals ← searchEvidence "manual" toolData.manuals
  let tickets ← searchEvidence "ticket" toolData.tickets
  let graph ← graphContribution state toolData
  return device ++ alarm ++ timeseries ++ manuals ++ tickets ++ graph

def evidenceAggregator : Outcome :=
  match collectedEvidence state toolData with
  | none => .failed
  | some evidence =>
      -- a dictionary keyed by the id: the place of the first, the value of the last
      let values := evidence.foldl (Table.upsert Evidence.evidenceId) []
      .update { state with
        phase := .evidenceReady
        evidence := values
        evidenceRefs := values.map Evidence.evidenceId } toolData

/-- What the evidence lacks. -/
def evidenceGaps : List String :=
  let types := state.evidence.map Evidence.sourceType
  report ("device" ∉ types) "设备画像缺失" ++
  report ("alarm" ∉ types) "告警详情缺失" ++
  report ("timeseries" ∉ types ∧ state.userFeedback = []) "关键时序不可用" ++
  report (∀ t ∈ types, t ∉ ["manual", "ticket", "case"]) "手册和已审核工单证据缺失"

def gapDetector : Outcome := .update { state with errors := evidenceGaps state } toolData

/-! ## Questions, causes and the result -/

/-- The gap is one of the time series. -/
def aboutTimeseries (gap : String) : Bool := Text.contains gap "时序"

/-- The question that the `index`-th gap (from 0) asks. -/
def gapQuestion (template : Option DiagnosisTemplate) (gap : String) (index : Nat) :
    ClarificationQuestion where
  questionId := "gap_" ++ toString (index + 1)
  question :=
    match template with
    | some t =>
        if aboutTimeseries gap then
          t.clarificationRules.getD (min index (t.clarificationRules.length - 1)) ""
        else "请补充对应设备或现场检查信息。"
    | none => "请补充对应设备或现场检查信息。"
  reason := gap

/-- The questions before the model is asked. -/
def draftQuestions (template : Option DiagnosisTemplate) : List ClarificationQuestion :=
  if state.clarificationQuestions ≠ [] then state.clarificationQuestions
  else (state.errors.take 3).zipIdx.map fun (gap, index) => gapQuestion template gap index

/-- The model is asked for better questions. -/
def asksModel (template : Option DiagnosisTemplate) : Bool :=
  draftQuestions state template ≠ [] ∧ state.clarificationQuestions = [] ∧
    ¬ (template.isSome ∧ state.errors.any aboutTimeseries)

def clarificationQuestionsOf (template : Option DiagnosisTemplate) : List ClarificationQuestion :=
  if asksModel state template then
    (env.clarification.map (·.take 3)).getD (draftQuestions state template)
  else draftQuestions state template

def clarificationGenerator : Outcome :=
  -- `templates.get` raises for an id that is not registered
  if (Text.truthy state.diagnosisTemplateId).isSome ∧ (stateTemplate deps state).isNone then .failed
  else
    .done { state with
      phase := .needUserInput
      clarificationQuestions := clarificationQuestionsOf env state (stateTemplate deps state) }
      toolData state.finalResponse

def reasonGenerator : Outcome :=
  match stateTemplate deps state with
  | none => .failed
  | some template =>
      let feedback := Text.join " " (state.userFeedback.map UserFeedback.answer)
      let causes := evaluateCandidateRules deps.patterns.lower template state.evidence feedback
      let enhanced := if causes ≠ [] then env.causes.getD causes else causes
      .update { state with phase := .draftReady, candidateCauses := enhanced.take 4 } toolData

/-- The actions that the template's inspection steps amount to. -/
def draftActions (template : DiagnosisTemplate) : List RecommendedAction :=
  template.inspectionSteps.zipIdx.map fun (description, index) =>
    let risk := classifyAction deps.patterns description
    { actionId := "action-" ++ toString (index + 1)
      description := description
      riskLevel := risk
      requiresHumanConfirmation := risk = .high ∨ risk = .critical
      requiredRole := if risk = .high ∨ risk = .critical then some "operator" else none
      evidenceRefs := (state.evidence.filter fun e =>
        e.sourceType ∉ ["graph", "device", "alarm"]).map Evidence.evidenceId }

/-- The result as the rules draft it. -/
def draftResult (template : DiagnosisTemplate) : DiagnosisResult where
  summary := if state.candidateCauses ≠ [] then
      "已基于设备、告警、时序与知识证据形成候选诊断，需按顺序现场确认。"
    else "当前证据不足以形成候选根因，建议人工接管。"
  candidateCauses := state.candidateCauses
  evidence := state.evidence
  inspectionSteps := template.inspectionSteps
  safetyNotes := template.safetyNotes
  missingInformation :=
    sortedSet (state.candidateCauses.flatMap CandidateCause.missingInformation)
  recommendTicket := state.candidateCauses = [] ∨ state.degradedComponents ≠ []
  riskLevel := .medium
  warnings := state.warnings
  degradedComponents := sortedSet state.degradedComponents
  recommendedActions := draftActions deps state template
  guardrailDecision := none

def responseGenerator : Outcome :=
  match stateTemplate deps state with
  | none => .failed
  | some template =>
      .update { state with
        finalResponse := some (env.response.getD (draftResult deps state template))
        recommendedActions := draftActions deps state template } toolData

/-- The decision of `rule_checker`, and what it leaves of the result. -/
def ruleDecision : GuardrailDecision :=
  let supported := state.supportedCandidates
  let decision := state.evaluate
    (if supported.length ≠ state.candidateCauses.length then supported else state.candidateCauses)
  if supported = [] then
    { decision with
      status := .needUserInput
      violations := decision.violations ++ ["NO_VERIFIABLE_ROOT_CAUSE"] }
  else decision

def checkedResponse (response : DiagnosisResult) : DiagnosisResult :=
  { sanitizeResponse response (state.evaluate state.candidateCauses) state.supportedCandidates with
    guardrailDecision := some (ruleDecision state) }

def ruleChecker : Outcome :=
  match state.finalResponse with
  -- `response_generator`, the only way here, has set it
  | none => .failed
  | some response =>
      let decision := ruleDecision state
      let checked := { state with
        candidateCauses := state.supportedCandidates
        guardrailDecision := some decision
        finalResponse := some (checkedResponse state response) }
      if decision.status = .blocked ∨ decision.status = .needUserInput then
        .update { checked with errors := state.errors ++ decision.violations } toolData
      else .update { checked with phase := .reviewing } toolData

def memoryWriter : Outcome :=
  .done { state with phase := .completed } toolData state.finalResponse

end nodes

end EnergyAgent.Agent
