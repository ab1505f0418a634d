import EnergyAgent.Agent.Execution
import EnergyAgent.Agent.Nodes

/-!
# The diagnosis workflow

`build_diagnosis_graph`: the nodes with their edges, as a `Runtime` of the diagnosis service.
-/

namespace EnergyAgent.Agent

open EnergyAgent.Lib

inductive WorkflowNode
  | intentRouter | entityParser | clarificationApplier | planBuilder | toolDispatcher
  | timeseriesFetcher | ticketFetcher | docRetriever | graphFetcher | evidenceAggregator
  | gapDetector | clarificationGenerator | reasonGenerator | responseGenerator | ruleChecker
  | memoryWriter
  deriving DecidableEq, Repr

namespace WorkflowNode

def name : WorkflowNode → String
  | .intentRouter => "intent_router"
  | .entityParser => "entity_parser"
  | .clarificationApplier => "clarification_applier"
  | .planBuilder => "plan_builder"
  | .toolDispatcher => "tool_dispatcher"
  | .timeseriesFetcher => "timeseries_fetcher"
  | .ticketFetcher => "ticket_fetcher"
  | .docRetriever => "doc_retriever"
  | .graphFetcher => "graph_fetcher"
  | .evidenceAggregator => "evidence_aggregator"
  | .gapDetector => "gap_detector"
  | .clarificationGenerator => "clarification_generator"
  | .reasonGenerator => "reason_generator"
  | .responseGenerator => "response_generator"
  | .ruleChecker => "rule_checker"
  | .memoryWriter => "memory_writer"

/-- The nodes that execute a tool. -/
def executesTool : WorkflowNode → Bool
  | .toolDispatcher | .timeseriesFetcher | .ticketFetcher | .docRetriever | .graphFetcher => true
  | _ => false

def run (deps : Dependencies) (env : Environment) (state : DiagnosisState) (toolData : ToolData) :
    WorkflowNode → Outcome
  | .intentRouter => Agent.intentRouter state toolData
  | .entityParser => Agent.entityParser deps state toolData
  | .clarificationApplier => Agent.clarificationApplier deps state toolData
  | .planBuilder => Agent.planBuilder deps state toolData
  | .toolDispatcher => Agent.toolDispatcher env state toolData
  | .timeseriesFetcher => Agent.timeseriesFetcher deps env state toolData
  | .ticketFetcher => Agent.ticketFetcher env state toolData
  | .docRetriever => Agent.docRetriever env state toolData
  | .graphFetcher => Agent.graphFetcher env state toolData
  | .evidenceAggregator => Agent.evidenceAggregator state toolData
  | .gapDetector => Agent.gapDetector state toolData
  | .clarificationGenerator => Agent.clarificationGenerator deps env state toolData
  | .reasonGenerator => Agent.reasonGenerator deps env state toolData
  | .responseGenerator => Agent.responseGenerator deps env state toolData
  | .ruleChecker => Agent.ruleChecker state toolData
  | .memoryWriter => Agent.memoryWriter state toolData

/-- The run answers clarification questions over evidence that is still there. -/
def isFollowup (state : DiagnosisState) : Prop :=
  state.followupMode = some "answer_clarification" ∧ state.evidence ≠ []

instance (state : DiagnosisState) : Decidable (isFollowup state) :=
  inferInstanceAs (Decidable (_ ∧ _))

/-- The edges; `none` is `END`. -/
def next (state : DiagnosisState) : WorkflowNode → Option WorkflowNode
  | .intentRouter => some (if isFollowup state then .clarificationApplier else .entityParser)
  | .clarificationApplier => some .gapDetector
  | .entityParser =>
      some (if state.phase = .needUserInput then .clarificationGenerator else .toolDispatcher)
  | .toolDispatcher => some .planBuilder
  | .planBuilder =>
      some (if state.phase = .needUserInput ∨ state.errors ≠ [] then .clarificationGenerator
        else .timeseriesFetcher)
  | .timeseriesFetcher => some .ticketFetcher
  | .ticketFetcher => some .docRetriever
  | .docRetriever => some .graphFetcher
  | .graphFetcher => some .evidenceAggregator
  | .evidenceAggregator => some .gapDetector
  | .gapDetector => some (if state.errors ≠ [] then .clarificationGenerator else .reasonGenerator)
  | .clarificationGenerator => none
  | .reasonGenerator => some .responseGenerator
  | .responseGenerator => some .ruleChecker
  | .ruleChecker => some (if state.errors ≠ [] then .clarificationGenerator else .memoryWriter)
  | .memoryWriter => none

end WorkflowNode

/-- The nodes write neither the identity of the run nor what came with the request. -/
theorem WorkflowNode.sameRun {deps : Dependencies} {env : Environment} {n : WorkflowNode}
    {state state' : DiagnosisState} {toolData toolData' : ToolData}
    {written : Option DiagnosisResult}
    (h : n.run deps env state toolData = .done state' toolData' written) :
    state.SameRun state' := by
  cases n with
  | intentRouter | gapDetector | memoryWriter =>
      cases h
      exact ⟨rfl, rfl, rfl, rfl, rfl⟩
  | entityParser =>
      simp only [run, Agent.entityParser] at h
      repeat' split at h
      all_goals cases h; exact ⟨rfl, rfl, rfl, rfl, rfl⟩
  | clarificationApplier =>
      simp only [run, Agent.clarificationApplier] at h
      split at h
      all_goals cases h; exact ⟨rfl, rfl, rfl, rfl, rfl⟩
  | planBuilder =>
      simp only [run, Agent.planBuilder] at h
      repeat' split at h
      · cases h
      · cases h
        exact ⟨rfl, rfl, rfl, rfl, rfl⟩
      · cases h
        simp only [planFor]
        split
        all_goals exact ⟨rfl, rfl, rfl, rfl, rfl⟩
  | toolDispatcher =>
      simp only [run, Agent.toolDispatcher] at h
      repeat' split at h
      all_goals cases h
      exact ⟨rfl, rfl, rfl, rfl, rfl⟩
  | timeseriesFetcher =>
      simp only [run, Agent.timeseriesFetcher] at h
      split at h
      all_goals cases h
      exact ⟨rfl, rfl, rfl, rfl, rfl⟩
  | ticketFetcher =>
      simp only [run, Agent.ticketFetcher] at h
      split at h
      all_goals cases h
      exact ⟨rfl, rfl, rfl, rfl, rfl⟩
  | docRetriever =>
      simp only [run, Agent.docRetriever] at h
      split at h
      all_goals cases h
      exact ⟨rfl, rfl, rfl, rfl, rfl⟩
  | graphFetcher =>
      simp only [run, Agent.graphFetcher] at h
      split at h
      all_goals cases h
      exact ⟨rfl, rfl, rfl, rfl, rfl⟩
  | evidenceAggregator =>
      simp only [run, Agent.evidenceAggregator] at h
      split at h
      all_goals cases h
      exact ⟨rfl, rfl, rfl, rfl, rfl⟩
  | clarificationGenerator =>
      simp only [run, Agent.clarificationGenerator] at h
      split at h
      all_goals cases h
      exact ⟨rfl, rfl, rfl, rfl, rfl⟩
  | reasonGenerator =>
      simp only [run, Agent.reasonGenerator] at h
      split at h
      all_goals cases h
      exact ⟨rfl, rfl, rfl, rfl, rfl⟩
  | responseGenerator =>
      simp only [run, Agent.responseGenerator] at h
      split at h
      all_goals cases h
      exact ⟨rfl, rfl, rfl, rfl, rfl⟩
  | ruleChecker =>
      simp only [run, Agent.ruleChecker] at h
      repeat' split at h
      all_goals cases h
      all_goals exact ⟨rfl, rfl, rfl, rfl, rfl⟩

/-- `build_diagnosis_graph`. -/
def workflow (deps : Dependencies) : Runtime where
  Node := WorkflowNode
  ToolData := ToolData
  NodeInput := Environment
  entry := .intentRouter
  noData := {}
  name := WorkflowNode.name
  run n state toolData env := n.run deps env state toolData
  next n state := n.next state
  sameRun := WorkflowNode.sameRun

/-! ## A small service to run -/

/-- Texts as they are, in which nothing is found. -/
def samplePatterns : Patterns where
  lower := id
  query _ := false
  highRiskCommand _ := false
  injection _ := false
  highRiskAction _ := false
  extractEntityIds _ := (none, none)

/-- The template `pcs_fan_abnormal_v1`, with one of its rules. -/
def sampleTemplate : DiagnosisTemplate where
  templateId := "pcs_fan_abnormal_v1"
  templateVersion := "1.1.0"
  deviceType := "PCS"
  deviceAliases := ["储能变流器", "储能柜"]
  alarmCategory := "fan"
  alarmPatterns := ["风扇异常", "风扇故障", "风扇告警"]
  alarmAliases := ["fan abnormal", "风机异常"]
  planSteps := ["核验风扇告警", "对比指令与反馈", "检索历史案例", "现场检查"]
  candidateRules := [{
    cause := "风扇机械卡滞"
    evidenceTerms := ["卡滞", "异响", "不转"]
    missingInformation := ["断电后检查叶轮"] }]
  clarificationRules := ["风扇是否实际转动", "是否存在异响"]
  inspectionSteps := ["检查风扇供电"]
  safetyNotes := ["涉及停机、断电或回路切换时，必须由授权人员人工确认并执行。"]
  asks := by simp

def sampleDeps : Dependencies where
  patterns := samplePatterns
  templates := ⟨[sampleTemplate], by simp⟩
  toolNames := ["get_device_profile", "get_alarm_detail", "query_timeseries_window",
    "search_manual_chunks", "search_similar_tickets"]

/-- A tool that is not available. -/
def unavailable {δ : Type} : ToolResult δ := ⟨false, .degraded, none, false⟩

/-- No tool is available, and the model does not reply. -/
def sampleEnvironment : Environment :=
  ⟨unavailable, unavailable, unavailable, unavailable, unavailable, unavailable, none, none, none⟩

/-- A tool that finds this. -/
def found {δ : Type} (data : δ) : ToolResult δ := ⟨true, .ok, some data, true⟩

/-- The tools know the device, its alarm and a passage of its manual. -/
def answeringEnvironment : Environment where
  device := found ⟨"site-1", "pcs-1", "PCS", "X100", "acme", "running"⟩
  alarm := found ⟨"alarm-1", "风扇异常", "major", none⟩
  timeseries := found [("fan_speed", "rising")]
  manuals := found ⟨[], some [⟨some "manual", "manual-1", "[手册]", "风扇卡滞", true, 1, 1, none,
    none⟩]⟩
  tickets := unavailable
  graph := unavailable
  clarification := none
  causes := none
  response := none

/-- A session about the alarm of a device, and a question in it. -/
def fanSession : SessionRow where
  id := "session-1"
  source := .chat
  siteId := some "site-1"
  deviceId := some "pcs-1"
  alarmId := some "alarm-1"
  alarmName := some "风扇异常"
  traceId := "trace-1"
  runId := "run-1"

def fanQuestion : ChatRequest := ⟨"session-1", "风扇异常", [], none, none⟩

/-- The state that the run about the fan starts from. -/
def fanInitial : DiagnosisState :=
  ((initialState fanQuestion fanSession none "run-2" "trace-2").toOption).get rfl

theorem fanInitial_eq :
    initialState fanQuestion fanSession none "run-2" "trace-2" = .ok fanInitial := rfl

def sampleSettings : DedupSettings where
  window := 100
  normalizeAlarmCategory := id

abbrev SamplePool := AgentPool sampleSettings (workflow sampleDeps)

abbrev SampleMove := AgentMove sampleSettings (workflow sampleDeps)

abbrev sampleSystem : TransitionSystem SamplePool SampleMove :=
  system sampleSettings (workflow sampleDeps)

def emptyStore : Store := ⟨[], [], [], [], [], [], 0⟩

/-- Nothing stored, nobody waiting. -/
def emptyPool : SamplePool := ⟨⟨emptyStore, []⟩, []⟩

theorem emptyPool_init : sampleSystem.init emptyPool :=
  ⟨⟨rfl, rfl, rfl, rfl, rfl⟩, rfl, rfl⟩

/-- The inputs of a call at time `now` that draws the ids. -/
def sampleInput (now : Nat) (sessionId runId : String) : CallInput (workflow sampleDeps) :=
  ⟨now, sessionId, runId, "", sampleEnvironment⟩

/-- A session for a chat. -/
def chatPayload : CreateSessionRequest := ⟨.chat, none, none, none, none, nofun⟩

/-- A question in it. -/
def sampleQuestion : ChatRequest := ⟨"session-1", "fan", [], none, none⟩

/-- Request `i` makes one call after the other. -/
def calls (i : Nat) (xs : List (CallInput (workflow sampleDeps))) : List SampleMove :=
  xs.map fun x => .step i x

end EnergyAgent.Agent
