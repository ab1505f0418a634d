import EnergyAgent.Agent.Delivery
import EnergyAgent.Lib.Json

/-!
# `rule_checker` on any response

The workflow model keeps the response as a record, since `response_generator` has filled it in. The
node itself takes whatever `final_response` holds: `None`, or a dictionary with any keys, values
of any type under them. Here is the node over such dictionaries, and the verdict it comes to.

The verdict is written three times: as the decision of the state, as the entry
`guardrail_decision` of the response, and as the errors that the edge behind the node looks at.
-/

namespace EnergyAgent.Agent

open EnergyAgent.Lib

/-! ## Dictionaries -/

/-- A `dict[str, object]`. -/
abbrev ResponseDict := List (String × Json)

namespace ResponseDict

/-- `response.get(name, default)` -/
def get (response : ResponseDict) (name : String) (default : Json) : Json :=
  (Json.field response name).getD default

/-- `response[name] = value`, also as an entry of `{**response, name: value}`. -/
def set : ResponseDict → String → Json → ResponseDict
  | [], name, value => [(name, value)]
  | (key, old) :: rest, name, value =>
      if key = name then (name, value) :: rest else (key, old) :: set rest name value

theorem field_set (response : ResponseDict) (name : String) (value : Json) :
    Json.field (response.set name value) name = some value := by
  induction response with
  | nil => simp [set, Json.field]
  | cons entry rest ih =>
      unfold set
      split
      · simp [Json.field]
      · next hne => simpa [Json.field, hne] using ih

end ResponseDict

def GuardrailStatus.text : GuardrailStatus → String
  | .passed => "PASSED"
  | .passedWithWarnings => "PASSED_WITH_WARNINGS"
  | .needUserInput => "NEED_USER_INPUT"
  | .blocked => "BLOCKED"

def dumpStrings (items : List String) : Json := .arr (items.map .str)

/-- `model_dump(mode="json")` of a decision; the two fields that no check sets keep their
defaults. -/
def GuardrailDecision.dump (decision : GuardrailDecision) : Json :=
  .obj [("status", .str decision.status.text), ("violations", dumpStrings decision.violations),
    ("warnings", dumpStrings decision.warnings), ("risk_level", .str "low"),
    ("requires_human_confirmation", .bool decision.requiresHumanConfirmation),
    ("blocked_actions", dumpStrings decision.blockedActions),
    ("checked_evidence_refs", dumpStrings decision.checkedEvidenceRefs),
    ("decision_version", .str "guardrail.v1")]

/-- `model_dump(mode="json")` of a cause. -/
def CandidateCause.dump (cause : CandidateCause) : Json :=
  .obj [("cause", .str cause.cause), ("confidence", .float (.finite cause.confidence)),
    ("supporting_evidence", dumpStrings cause.supportingEvidence),
    ("contradicting_evidence", dumpStrings cause.contradictingEvidence),
    ("missing_information", dumpStrings cause.missingInformation),
    ("need_manual_confirmation", .bool cause.needManualConfirmation)]

/-! ## The checks -/

section

-- `str` of a value that is not a text
variable (render : Json → String)

/-- `str(value)` -/
def pyStr : Json → String
  | .str s => s
  | value => render value

/-- The texts of a value that is a list, `[str(item) for item in value]`; no texts otherwise. -/
def textsOf (value : Json) : List String := ((value.asList).getD []).map (pyStr render)

/-- `check_output` of the service. -/
def checkOutputOf (state : DiagnosisState) (response : ResponseDict) : GuardrailDecision :=
  checkOutput (pyStr render (response.get "summary" (.str ""))) state.recommendedActions
    state.evidence (textsOf render (response.get "safety_notes" (.arr [])))

/-- The decision `evaluate` makes of the two it asks for. -/
def combineDecisions (generation output : GuardrailDecision) : GuardrailDecision :=
  let violations := sortedSet (generation.violations ++ output.violations)
  let warnings := sortedSet (generation.warnings ++ output.warnings)
  { status := if violations ≠ [] then .blocked
      else if warnings ≠ [] then .passedWithWarnings else .passed
    violations := violations
    warnings := warnings
    blockedActions := output.blockedActions
    requiresHumanConfirmation := output.requiresHumanConfirmation
    checkedEvidenceRefs := generation.checkedEvidenceRefs }

/-- `evaluate`. -/
def evaluateDict (state : DiagnosisState) (response : ResponseDict)
    (candidates : List CandidateCause) : GuardrailDecision :=
  combineDecisions (checkGeneration candidates state.evidence) (checkOutputOf render state response)

/-- `sanitize_response`. -/
def sanitizeDict (response : ResponseDict) (decision : GuardrailDecision)
    (supported : List CandidateCause) : ResponseDict :=
  if ∀ v ∈ unsafeGenerationViolations, v ∉ decision.violations then response
  else
    let warnings := textsOf render (response.get "warnings" (.arr []))
    let summary := if supported ≠ [] then pyStr render (response.get "summary" (.str ""))
      else "现有证据不足以安全输出候选根因，请补充现场信息或转人工复核。"
    let actions := if supported ≠ [] then response.get "recommended_actions" (.arr []) else .arr []
    let ticket := if supported ≠ [] then response.get "recommend_ticket" (.bool false)
      else .bool true
    ((((response.set "summary" (.str summary)).set "candidate_causes"
      (.arr (supported.map CandidateCause.dump))).set "recommended_actions" actions).set
      "recommend_ticket" ticket).set "warnings"
        (dumpStrings (sortedSet (warnings ++ ["UNSUPPORTED_CANDIDATES_REMOVED"])))

/-- The state that `rule_checker` leaves, and its response. -/
structure RuleChecked where
  state : DiagnosisState
  finalResponse : ResponseDict

/-- The end of `rule_checker`: the decision becomes errors, or the run goes on. -/
def concludeRuleChecker (state : DiagnosisState) (supported : List CandidateCause)
    (decision : GuardrailDecision) (response : ResponseDict) : RuleChecked :=
  if decision.status = .blocked ∨ decision.status = .needUserInput then
    { state := { state with
        candidateCauses := supported
        errors := state.errors ++ decision.violations
        guardrailDecision := some decision }
      finalResponse := response }
  else
    { state := { state with
        candidateCauses := supported
        phase := .reviewing
        guardrailDecision := some decision }
      finalResponse := response }

/-- `rule_checker`; the response of the state is `response`. -/
def ruleCheckerDict (state : DiagnosisState) (response : Option ResponseDict) : RuleChecked :=
  let original := response.getD []
  let decision := evaluateDict render state original state.candidateCauses
  let supported := state.supportedCandidates
  let response := sanitizeDict render original decision supported
  let decision := if supported.length ≠ state.candidateCauses.length then
      evaluateDict render state original supported else decision
  let response := response.set "guardrail_decision" decision.dump
  if supported = [] then
    let decision := { decision with
      status := .needUserInput
      violations := decision.violations ++ ["NO_VERIFIABLE_ROOT_CAUSE"] }
    let response := response.set "guardrail_decision" decision.dump
    concludeRuleChecker state supported decision response
  else concludeRuleChecker state supported decision response

/-- The decision `rule_checker` comes to. -/
def verdict (state : DiagnosisState) (response : ResponseDict) : GuardrailDecision :=
  let supported := state.supportedCandidates
  let decision := evaluateDict render state response
    (if supported.length ≠ state.candidateCauses.length then supported else state.candidateCauses)
  if supported = [] then
    { decision with
      status := .needUserInput
      violations := decision.violations ++ ["NO_VERIFIABLE_ROOT_CAUSE"] }
  else decision

end

/-! ## The verdict -/

section verdict

variable {render : Json → String} {state : DiagnosisState} {response : ResponseDict}

/-- The node ends with one decision, and the response carries a copy of it. -/
theorem ruleCheckerDict_eq (render : Json → String) (state : DiagnosisState)
    (response : Option ResponseDict) :
    ∃ checked, ruleCheckerDict render state response = concludeRuleChecker state
        state.supportedCandidates (verdict render state (response.getD [])) checked ∧
      Json.field checked "guardrail_decision" =
        some (verdict render state (response.getD [])).dump := by
  have hpush : ∀ c : Prop, ∀ [Decidable c], ∀ causes causes' : List CandidateCause,
      (if c then evaluateDict render state (response.getD []) causes
        else evaluateDict render state (response.getD []) causes') =
      evaluateDict render state (response.getD []) (if c then causes else causes') := by
    intro c _ causes causes'
    split <;> rfl
  unfold ruleCheckerDict verdict
  dsimp only
  rw [hpush]
  by_cases hnone : state.supportedCandidates = []
  · rw [if_pos hnone, if_pos hnone]
    exact ⟨_, rfl, ResponseDict.field_set ..⟩
  · rw [if_neg hnone, if_neg hnone]
    exact ⟨_, rfl, ResponseDict.field_set ..⟩

theorem combineDecisions_violations_eq_nil {generation output : GuardrailDecision} :
    (combineDecisions generation output).violations = [] ↔
      generation.violations = [] ∧ output.violations = [] := by
  show sortedSet (_ ++ _) = [] ↔ _
  rw [sortedSet_eq_nil, List.append_eq_nil_iff]

theorem combineDecisions_blocks {generation output : GuardrailDecision} :
    (combineDecisions generation output).status = .blocked ∨
        (combineDecisions generation output).status = .needUserInput ↔
      (combineDecisions generation output).violations ≠ [] := by
  have hstatus : (combineDecisions generation output).status =
      if (combineDecisions generation output).violations ≠ [] then .blocked
      else if (combineDecisions generation output).warnings ≠ [] then .passedWithWarnings
      else .passed := rfl
  rw [hstatus]
  by_cases hsome : (combineDecisions generation output).violations = []
  · by_cases hwarnings : (combineDecisions generation output).warnings = []
    · simp [hsome, hwarnings]
    · simp [hsome, hwarnings]
  · simp [hsome]

/-- The verdict stops the run for a reason. -/
theorem verdict_blocks : (verdict render state response).status = .blocked ∨
      (verdict render state response).status = .needUserInput ↔
    (verdict render state response).violations ≠ [] := by
  unfold verdict
  dsimp only
  split
  · simp
  · exact combineDecisions_blocks

/-- The causes of the second check are the supported ones, whether or not it is made. -/
theorem checkedCauses_eq : (if state.supportedCandidates.length ≠ state.candidateCauses.length then
      state.supportedCandidates else state.candidateCauses) = state.supportedCandidates := by
  split
  · rfl
  · next hlength =>
      exact (List.filter_sublist.eq_of_length (not_not.mp hlength)).symm

/-- Some cause passes on its own, and the output passes. -/
def Completes (render : Json → String) (state : DiagnosisState) (response : ResponseDict) : Prop :=
  (∃ cause ∈ state.candidateCauses, (checkGeneration [cause] state.evidence).violations = []) ∧
    (checkOutputOf render state response).violations = []

theorem passes_iff {cause : CandidateCause} : (checkGeneration [cause] state.evidence).violations = [] ↔
    (checkGeneration [cause] state.evidence).status ≠ .blocked := by
  have hstatus : (checkGeneration [cause] state.evidence).status =
      if [cause].filterMap (causeViolation (state.evidence.map Evidence.evidenceId)) ≠ [] then
        .blocked else .passed := rfl
  have hviolations : (checkGeneration [cause] state.evidence).violations =
      sortedSet ([cause].filterMap (causeViolation (state.evidence.map Evidence.evidenceId))) := rfl
  rw [hstatus, hviolations, sortedSet_eq_nil]
  split <;> simp_all

theorem supportedCandidates_eq : state.supportedCandidates =
    state.candidateCauses.filter (fun cause =>
      (checkGeneration [cause] state.evidence).violations = []) := by
  unfold DiagnosisState.supportedCandidates
  refine List.filter_congr (fun cause _ => ?_)
  simp only [passes_iff]

/-- **What the verdict comes down to.** -/
theorem verdict_violations_eq_nil :
    (verdict render state response).violations = [] ↔ Completes render state response := by
  have hsome : state.supportedCandidates ≠ [] ↔
      ∃ cause ∈ state.candidateCauses, (checkGeneration [cause] state.evidence).violations = [] := by
    simp [supportedCandidates_eq]
  have hgrounded : (checkGeneration state.supportedCandidates state.evidence).violations = [] :=
    checkGeneration_violations_eq_nil.mpr (fun cause hc => (mem_supportedCandidates.mp hc).2)
  unfold verdict Completes
  dsimp only
  rw [checkedCauses_eq, ← hsome]
  split
  · next hnone => simp [hnone]
  · next hne =>
      rw [evaluateDict, combineDecisions_violations_eq_nil]
      simp [hgrounded, hne]

/-- **The rule checker decides completion.** From a state without errors the run goes on to
`memory_writer` exactly when some cause passes on its own and the output passes. Then the decision
reports nothing and the causes are those that pass, in their order; else the run goes to
`clarification_generator` with a decision that gives a reason. The response says the same. -/
theorem rule_checker_decides (render : Json → String) (state : DiagnosisState)
    (response : Option ResponseDict) (herrors : state.errors = []) :
    ∃ decision,
      (ruleCheckerDict render state response).state.guardrailDecision = some decision ∧
      Json.field (ruleCheckerDict render state response).finalResponse "guardrail_decision" =
        some decision.dump ∧
      (WorkflowNode.ruleChecker.next (ruleCheckerDict render state response).state =
        some .memoryWriter ↔ Completes render state (response.getD [])) ∧
      (Completes render state (response.getD []) →
        decision.violations = [] ∧
        (ruleCheckerDict render state response).state.candidateCauses =
          state.candidateCauses.filter (fun cause =>
            (checkGeneration [cause] state.evidence).violations = [])) ∧
      (¬ Completes render state (response.getD []) →
        WorkflowNode.ruleChecker.next (ruleCheckerDict render state response).state =
          some .clarificationGenerator ∧
        decision.violations ≠ [] ∧
        (decision.status = .blocked ∨ decision.status = .needUserInput)) := by
  obtain ⟨checked, hrun, hcopy⟩ := ruleCheckerDict_eq render state response
  have hnext : ∀ state : DiagnosisState, WorkflowNode.ruleChecker.next state =
      some (if state.errors ≠ [] then .clarificationGenerator else .memoryWriter) := fun _ => rfl
  rw [hrun, ← verdict_violations_eq_nil, ← supportedCandidates_eq]
  by_cases hpassed : (verdict render state (response.getD [])).violations = []
  · have hgoes := mt verdict_blocks.mp (not_not_intro hpassed)
    rw [concludeRuleChecker, if_neg hgoes]
    exact ⟨_, rfl, hcopy, by simp [hnext, herrors, hpassed], fun _ => ⟨hpassed, rfl⟩,
      fun h => absurd hpassed h⟩
  · have hstops := verdict_blocks.mpr hpassed
    rw [concludeRuleChecker, if_pos hstops]
    exact ⟨_, rfl, hcopy, by simp [hnext, herrors, hpassed], fun h => absurd h hpassed,
      fun _ => ⟨by simp [hnext, herrors, hpassed], hpassed, hstops⟩⟩

end verdict

/-- A state with one piece of evidence and a cause that cites it. -/
def groundedState : DiagnosisState :=
  { fanInitial with
    evidence := [{
      evidenceId := "manual:1"
      sourceType := "manual"
      sourceId := "doc-1"
      summary := "风扇卡滞的处理"
      citation := "手册第 3 章"
      verified := true
      reliability := 1
      relevance := 1
      chunkId := none
      packageId := none
      needManualConfirmation := false }]
    candidateCauses := [{
      cause := "风扇机械卡滞"
      confidence := 1 / 2
      supportingEvidence := ["manual:1"]
      contradictingEvidence := []
      missingInformation := []
      needManualConfirmation := true }] }

/-- Its run goes on as soon as the response has a summary. -/
theorem rule_checker_decides_grounded :
    WorkflowNode.ruleChecker.next (ruleCheckerDict (fun _ => "") groundedState
      (some [("summary", .str "风扇卡滞")])).state = some .memoryWriter := by
  obtain ⟨decision, -, -, hnext, -⟩ := rule_checker_decides (fun _ => "") groundedState
    (some [("summary", .str "风扇卡滞")]) rfl
  exact hnext.mpr ⟨⟨_, List.mem_singleton.mpr rfl, by decide⟩, by decide⟩

/-! ## The node of the workflow -/

/-- The dictionary holds what the checks read of the record. -/
structure Reads (dict : ResponseDict) (response : DiagnosisResult) : Prop where
  summary : Json.field dict "summary" = some (.str response.summary)
  safetyNotes : Json.field dict "safety_notes" = some (dumpStrings response.safetyNotes)

theorem textsOf_dumpStrings (render : Json → String) (items : List String) :
    textsOf render (dumpStrings items) = items := by
  simp only [textsOf, dumpStrings, Json.asList, Option.getD_some, List.map_map]
  exact List.map_id items

theorem Reads.checkOutput {dict : ResponseDict} {response : DiagnosisResult}
    (h : Reads dict response) (render : Json → String) {state : DiagnosisState}
    (hresponse : state.finalResponse = some response) :
    checkOutputOf render state dict = state.checkOutput := by
  unfold checkOutputOf DiagnosisState.checkOutput ResponseDict.get
  rw [h.summary, h.safetyNotes, hresponse]
  simp only [Option.getD_some, Option.map_some, textsOf_dumpStrings]
  rfl

/-- On a response that the workflow writes, the node of the workflow comes to the same verdict and
leaves the same state. -/
theorem ruleChecker_eq (render : Json → String) {state : DiagnosisState} {toolData : ToolData}
    {dict : ResponseDict} {response : DiagnosisResult} (h : Reads dict response)
    (hresponse : state.finalResponse = some response) :
    ruleChecker state toolData = .update
      { (ruleCheckerDict render state (some dict)).state with
        finalResponse := some (checkedResponse state response) } toolData := by
  have hverdict : verdict render state dict = ruleDecision state := by
    unfold verdict ruleDecision evaluateDict
    rw [h.checkOutput render hresponse]
    rfl
  obtain ⟨checked, hrun, -⟩ := ruleCheckerDict_eq render state (some dict)
  rw [Option.getD_some, hverdict] at hrun
  unfold ruleChecker
  rw [hresponse, hrun, concludeRuleChecker]
  dsimp only
  split <;> rfl

end EnergyAgent.Agent
