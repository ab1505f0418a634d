import EnergyAgent.Agent.Walk
import EnergyAgent.Lib.Effect

/-!
# How a run of the workflow ends

A run is to end with a result, or with one to three questions that can be told apart. Every node
finds the state that the nodes before it leave (`Ready`), so it does its part, unless what it is
given does not fit (`Visit.Fits`): a payload that cannot be read, a template that is not
registered, or a list of questions from the model that is empty or repeats an id.
`endsUsable_iff_fits` says that there is no other way for a run to go wrong.
-/

namespace EnergyAgent.Agent

open EnergyAgent.Lib

/-- The state tells its reader what to do: there is a result, or there are questions. -/
def DiagnosisState.Usable (state : DiagnosisState) : Prop :=
  (state.phase = .completed ∧ state.finalResponse ≠ none) ∨
    (state.phase = .needUserInput ∧ state.clarificationQuestions ≠ [] ∧
      state.clarificationQuestions.length ≤ 3 ∧
      (state.clarificationQuestions.map (·.questionId)).Nodup)

/-- The run ends without an exception, in a usable state. -/
def EndsUsable : Except ExecutionError DiagnosisState → Prop
  | .ok state => state.Usable
  | .error _ => False

instance (state : DiagnosisState) : Decidable state.Usable := inferInstanceAs (Decidable (_ ∨ _))

instance : (result : Except ExecutionError DiagnosisState) → Decidable (EndsUsable result)
  | .ok state => inferInstanceAs (Decidable state.Usable)
  | .error _ => isFalse id

section endings

variable (deps : Dependencies) (env : Environment)

/-- What a node is given fits: the payloads of the successful tools can be read, a template that is
looked up is registered, and the questions of the model, if it is asked, are some and distinct. -/
def Visit.Fits (v : Visit) : Prop :=
  match v.node with
  | .toolDispatcher => (profiledDevice env v.state).isSome ∧ (detailedAlarm env v.state).isSome
  | .evidenceAggregator => (collectedEvidence v.state v.toolData).isSome
  | .timeseriesFetcher | .reasonGenerator | .responseGenerator => (stateTemplate deps v.state).isSome
  | .clarificationGenerator =>
      ((Text.truthy v.state.diagnosisTemplateId).isSome → (stateTemplate deps v.state).isSome) ∧
        (asksModel v.state (stateTemplate deps v.state) → ∀ reply ∈ env.clarification,
          reply ≠ [] ∧ ((reply.take 3).map (·.questionId)).Nodup)
  | _ => True

/-- The state that a node finds. -/
def Ready (state : DiagnosisState) : WorkflowNode → Prop
  | .intentRouter | .entityParser | .clarificationApplier =>
      state.phase = .init ∧ state.clarificationQuestions = [] ∧ state.errors = []
  | .toolDispatcher =>
      hasEntities state ∧ state.clarificationQuestions = [] ∧ state.errors = []
  | .planBuilder =>
      hasEntities state ∧ state.clarificationQuestions = [] ∧ state.errors = [] ∧
        state.phase = .dataFetching
  | .timeseriesFetcher | .ticketFetcher | .docRetriever | .graphFetcher =>
      hasEntities state ∧ state.clarificationQuestions = [] ∧ state.phase = .planReady
  | .evidenceAggregator => state.clarificationQuestions = []
  | .gapDetector =>
      state.clarificationQuestions.length ≤ 1 ∧
        (state.phase = .evidenceReady ∨
          (state.phase = .needUserInput ∧ state.clarificationQuestions ≠ []))
  | .clarificationGenerator =>
      state.clarificationQuestions.length ≤ 1 ∧
        (state.clarificationQuestions = [] → state.errors ≠ [])
  | .reasonGenerator => state.clarificationQuestions.length ≤ 1
  | .responseGenerator => state.clarificationQuestions.length ≤ 1 ∧ state.phase = .draftReady
  | .ruleChecker =>
      state.clarificationQuestions.length ≤ 1 ∧ state.phase = .draftReady ∧
        state.finalResponse ≠ none
  | .memoryWriter => state.finalResponse ≠ none

/-- What a node does that fits: it leaves the state that the next node wants, or a usable one. -/
def Leads (n : WorkflowNode) (state : DiagnosisState) (toolData : ToolData) : Prop :=
  ∃ state' toolData' written, n.run deps env state toolData = .done state' toolData' written ∧
    state'.Valid ∧
    match n.next state' with
    | none => state'.Usable
    | some m => Ready state' m

/-- What a node does that does not fit: it raises, or leaves a state that is not valid, or ends the
run in one that is not usable. -/
def GoesWrong (n : WorkflowNode) (state : DiagnosisState) (toolData : ToolData) : Prop :=
  n.run deps env state toolData = .failed ∨
    ∃ state' toolData' written, n.run deps env state toolData = .done state' toolData' written ∧
      (¬ state'.Valid ∨ (n.next state' = none ∧ ¬ state'.Usable))

variable {deps env}

/-! ## The questions -/

/-- The ids of the questions about three gaps are distinct. -/
theorem gapQuestions_nodup (template : Option DiagnosisTemplate) (gaps : List String)
    (h : gaps.length ≤ 3) :
    (((gaps.zipIdx.map fun (gap, index) => gapQuestion template gap index)).map
      (·.questionId)).Nodup := by
  match gaps, h with
  | [], _ => exact List.nodup_nil
  | [_], _ => exact List.nodup_singleton _
  | [_, _], _ =>
      show ["gap_" ++ toString 1, "gap_" ++ toString 2].Nodup
      decide
  | [_, _, _], _ =>
      show ["gap_" ++ toString 1, "gap_" ++ toString 2, "gap_" ++ toString 3].Nodup
      decide

/-- The questions before the model is asked are some, few and distinct. -/
theorem draftQuestions_usable {state : DiagnosisState} (template : Option DiagnosisTemplate)
    (h : Ready state .clarificationGenerator) :
    draftQuestions state template ≠ [] ∧ (draftQuestions state template).length ≤ 3 ∧
      ((draftQuestions state template).map (·.questionId)).Nodup := by
  obtain ⟨hlength, herrors⟩ := h
  unfold draftQuestions
  by_cases hquestions : state.clarificationQuestions = []
  · rw [if_neg (by simpa using hquestions)]
    have htake : (state.errors.take 3).length ≤ 3 := List.length_take_le _ _
    refine ⟨?_, ?_, gapQuestions_nodup template _ htake⟩
    · have := herrors hquestions
      simp [this]
    · simp
  · rw [if_pos hquestions]
    refine ⟨hquestions, by omega, ?_⟩
    match state.clarificationQuestions, hlength with
    | [], _ => exact List.nodup_nil
    | [_], _ => exact List.nodup_singleton _

/-- The questions that are asked are some, few and distinct exactly if the model's are, when it is
asked. -/
theorem clarificationQuestionsOf_usable {state : DiagnosisState}
    (template : Option DiagnosisTemplate) (h : Ready state .clarificationGenerator) :
    (clarificationQuestionsOf env state template ≠ [] ∧
        (clarificationQuestionsOf env state template).length ≤ 3 ∧
        ((clarificationQuestionsOf env state template).map (·.questionId)).Nodup) ↔
      (asksModel state template → ∀ reply ∈ env.clarification,
        reply ≠ [] ∧ ((reply.take 3).map (·.questionId)).Nodup) := by
  have hdraft := draftQuestions_usable template h
  unfold clarificationQuestionsOf
  cases hasks : asksModel state template with
  | false => simpa using hdraft
  | true =>
      cases env.clarification with
      | none => simpa using hdraft
      | some reply => simp

/-! ## One node -/

section nodes

variable {state : DiagnosisState} {toolData : ToolData}

theorem leads_intentRouter (h : Ready state .intentRouter) :
    Leads deps env .intentRouter state toolData := by
  refine ⟨_, _, _, rfl, ?_, ?_⟩
  · obtain ⟨hphase, -, -⟩ := h
    simp [DiagnosisState.Valid, hphase]
  · show Ready _ (if WorkflowNode.isFollowup _ then WorkflowNode.clarificationApplier else .entityParser)
    by_cases hfollowup : WorkflowNode.isFollowup { state with
        intent := some (if state.userFeedback ≠ [] then .followupClarification
          else .faultDiagnosis) }
    · rw [if_pos hfollowup]
      exact h
    · rw [if_neg hfollowup]
      exact h

theorem leads_entityParser (h : Ready state .entityParser) :
    Leads deps env .entityParser state toolData := by
  obtain ⟨hphase, hquestions, herrors⟩ := h
  unfold Leads WorkflowNode.run Agent.entityParser
  dsimp only
  split
  · refine ⟨_, _, _, rfl, by simp [DiagnosisState.Valid], ?_⟩
    simp [WorkflowNode.next, Ready]
  · split
    · refine ⟨_, _, _, rfl, by simp [DiagnosisState.Valid, hphase], ?_⟩
      simp [WorkflowNode.next, Ready, hphase, hquestions, herrors, hasEntities]
    · refine ⟨_, _, _, rfl, by simp [DiagnosisState.Valid], ?_⟩
      simp [WorkflowNode.next, Ready]

theorem leads_clarificationApplier : Leads deps env .clarificationApplier state toolData := by
  unfold Leads WorkflowNode.run Agent.clarificationApplier
  dsimp only
  split
  · refine ⟨_, _, _, rfl, by simp [DiagnosisState.Valid], ?_⟩
    simp [WorkflowNode.next, Ready]
  · refine ⟨_, _, _, rfl, by simp [DiagnosisState.Valid], ?_⟩
    simp [WorkflowNode.next, Ready]

/-- The device and the alarm stay, whether their details are found or not. -/
theorem entities_of_dispatched {device : Option DeviceContext} {alarm : Option AlarmContext}
    (h : hasEntities state) (hdevice : profiledDevice env state = some device)
    (halarm : detailedAlarm env state = some alarm) :
    device.isSome ∧ alarm.isSome := by
  simp only [hasEntities, Bool.and_eq_true] at h
  obtain ⟨hdevice', halarm'⟩ := h
  constructor
  · unfold profiledDevice at hdevice
    split at hdevice
    · obtain ⟨d, -, rfl⟩ := Option.map_eq_some_iff.mp hdevice
      rfl
    · cases hdevice
      exact hdevice'
  · unfold detailedAlarm at halarm
    split at halarm
    · obtain ⟨d, -, rfl⟩ := Option.map_eq_some_iff.mp halarm
      rfl
    · cases halarm
      exact halarm'

theorem leads_toolDispatcher (h : Ready state .toolDispatcher)
    (hdevice : (profiledDevice env state).isSome) (halarm : (detailedAlarm env state).isSome) :
    Leads deps env .toolDispatcher state toolData := by
  obtain ⟨hentities, hquestions, herrors⟩ := h
  obtain ⟨device, hdevice⟩ := Option.isSome_iff_exists.mp hdevice
  obtain ⟨alarm, halarm⟩ := Option.isSome_iff_exists.mp halarm
  unfold Leads WorkflowNode.run Agent.toolDispatcher
  rw [if_pos hentities, hdevice, halarm]
  refine ⟨_, _, _, rfl, by simp [DiagnosisState.Valid], ?_⟩
  have hsome := entities_of_dispatched hentities hdevice halarm
  simp [WorkflowNode.next, Ready, hquestions, herrors, hasEntities, hsome]

theorem failed_toolDispatcher (h : Ready state .toolDispatcher)
    (hunread : ¬ ((profiledDevice env state).isSome ∧ (detailedAlarm env state).isSome)) :
    WorkflowNode.run deps env state toolData .toolDispatcher = .failed := by
  show Agent.toolDispatcher env state toolData = .failed
  unfold Agent.toolDispatcher
  rw [if_pos h.1]
  split
  · next device alarm hdevice halarm => simp [hdevice, halarm] at hunread
  · rfl

/-- What the guardrail says about the plan for a routed template. -/
def planDecision (deps : Dependencies) (template : DiagnosisTemplate) : GuardrailDecision :=
  checkPlan (templatePlan template) (planningAllowedTools deps)
    ((Text.truthy (some template.templateId)).isSome ∧
      (Text.truthy (some template.templateVersion)).isSome)

/-- The plan for a routed template is refused, with the violations as errors, or stands. -/
theorem planFor_cases (deps : Dependencies) (state : DiagnosisState) (template : DiagnosisTemplate)
    (basis : String) :
    ((planDecision deps template).status = .blocked ∧ planFor deps state template basis =
        { state with
          diagnosisTemplateId := some template.templateId
          diagnosisTemplateVersion := some template.templateVersion
          plan := templatePlan template
          alarmCategory := some template.alarmCategory
          guardrailDecision := some (planDecision deps template)
          errors := (planDecision deps template).violations }) ∨
      ((planDecision deps template).status ≠ .blocked ∧ planFor deps state template basis =
        { state with
          diagnosisTemplateId := some template.templateId
          diagnosisTemplateVersion := some template.templateVersion
          plan := templatePlan template
          alarmCategory := some template.alarmCategory
          guardrailDecision := some (planDecision deps template)
          templateRouteBasis := some basis
          phase := .planReady }) := by
  by_cases hblocked : (planDecision deps template).status = .blocked
  · exact Or.inl ⟨hblocked, if_pos hblocked⟩
  · exact Or.inr ⟨hblocked, if_neg hblocked⟩

theorem leads_planBuilder (h : Ready state .planBuilder) :
    Leads deps env .planBuilder state toolData := by
  obtain ⟨hentities, hquestions, herrors, hphase⟩ := h
  have halarm : state.alarmContext.isSome := by
    simp only [hasEntities, Bool.and_eq_true] at hentities
    exact hentities.2
  obtain ⟨alarm, halarm⟩ := Option.isSome_iff_exists.mp halarm
  unfold Leads WorkflowNode.run Agent.planBuilder
  rw [halarm]
  dsimp only
  split
  · refine ⟨_, _, _, rfl, by simp [DiagnosisState.Valid], ?_⟩
    simp [WorkflowNode.next, Ready]
  · next template basis hroute =>
      rcases planFor_cases deps state template basis with
        ⟨hblocked, hplan⟩ | ⟨-, hplan⟩
      · refine ⟨_, _, _, rfl, ?_, ?_⟩
        · rw [hplan]
          simp [DiagnosisState.Valid, hphase]
        · have hviolations : (planDecision deps template).violations ≠ [] :=
            checkPlan_blocked.mp hblocked
          rw [hplan]
          simp [WorkflowNode.next, Ready, hquestions, hviolations]
      · refine ⟨_, _, _, rfl, ?_, ?_⟩
        · rw [hplan]
          simp [DiagnosisState.Valid]
        · rw [hplan]
          have hdevice : state.deviceContext.isSome := by
            simp only [hasEntities, Bool.and_eq_true] at hentities
            exact hentities.1
          simp [WorkflowNode.next, Ready, hquestions, herrors, hasEntities, halarm, hdevice]

theorem leads_timeseriesFetcher (h : Ready state .timeseriesFetcher)
    (htemplate : (stateTemplate deps state).isSome) :
    Leads deps env .timeseriesFetcher state toolData := by
  obtain ⟨hentities, hquestions, hphase⟩ := h
  have hdevice : state.deviceContext.isSome := by
    simp only [hasEntities, Bool.and_eq_true] at hentities
    exact hentities.1
  unfold Leads WorkflowNode.run Agent.timeseriesFetcher
  rw [if_pos ⟨hdevice, htemplate⟩]
  refine ⟨_, _, _, rfl, by simp [DiagnosisState.Valid, hphase], ?_⟩
  exact ⟨hentities, hquestions, hphase⟩

theorem leads_ticketFetcher (h : Ready state .ticketFetcher) :
    Leads deps env .ticketFetcher state toolData := by
  obtain ⟨hentities, hquestions, hphase⟩ := h
  unfold Leads WorkflowNode.run Agent.ticketFetcher
  rw [if_pos hentities]
  refine ⟨_, _, _, rfl, by simp [DiagnosisState.Valid, searched, hphase], ?_⟩
  exact ⟨hentities, hquestions, hphase⟩

theorem leads_docRetriever (h : Ready state .docRetriever) :
    Leads deps env .docRetriever state toolData := by
  obtain ⟨hentities, hquestions, hphase⟩ := h
  unfold Leads WorkflowNode.run Agent.docRetriever
  rw [if_pos hentities]
  refine ⟨_, _, _, rfl, by simp [DiagnosisState.Valid, searched, hphase], ?_⟩
  exact ⟨hentities, hquestions, hphase⟩

theorem leads_graphFetcher (h : Ready state .graphFetcher) :
    Leads deps env .graphFetcher state toolData := by
  obtain ⟨hentities, hquestions, hphase⟩ := h
  unfold Leads WorkflowNode.run Agent.graphFetcher
  rw [if_pos hentities]
  exact ⟨_, _, _, rfl, by simp [DiagnosisState.Valid, hphase], hquestions⟩

theorem leads_evidenceAggregator (h : Ready state .evidenceAggregator)
    (hread : (collectedEvidence state toolData).isSome) :
    Leads deps env .evidenceAggregator state toolData := by
  have hquestions : state.clarificationQuestions = [] := h
  obtain ⟨evidence, hread⟩ := Option.isSome_iff_exists.mp hread
  unfold Leads WorkflowNode.run Agent.evidenceAggregator
  rw [hread]
  refine ⟨_, _, _, rfl, by simp [DiagnosisState.Valid], ?_⟩
  simp [WorkflowNode.next, Ready, hquestions]

theorem leads_gapDetector (h : Ready state .gapDetector) :
    Leads deps env .gapDetector state toolData := by
  obtain ⟨hlength, hphase⟩ := h
  refine ⟨_, _, _, rfl, ?_, ?_⟩
  · rcases hphase with hphase | ⟨hphase, hquestions⟩
    · simp [DiagnosisState.Valid, hphase]
    · simp [DiagnosisState.Valid, hphase, hquestions]
  · show Ready _ (if evidenceGaps state ≠ [] then WorkflowNode.clarificationGenerator
      else .reasonGenerator)
    by_cases hgaps : evidenceGaps state = []
    · rw [if_neg (not_not_intro hgaps)]
      exact hlength
    · rw [if_pos hgaps]
      exact ⟨hlength, fun _ => hgaps⟩

theorem leads_reasonGenerator (h : Ready state .reasonGenerator)
    (htemplate : (stateTemplate deps state).isSome) :
    Leads deps env .reasonGenerator state toolData := by
  obtain ⟨template, htemplate⟩ := Option.isSome_iff_exists.mp htemplate
  unfold Leads WorkflowNode.run Agent.reasonGenerator
  rw [htemplate]
  exact ⟨_, _, _, rfl, by simp [DiagnosisState.Valid], h, rfl⟩

theorem leads_responseGenerator (h : Ready state .responseGenerator)
    (htemplate : (stateTemplate deps state).isSome) :
    Leads deps env .responseGenerator state toolData := by
  obtain ⟨hlength, hphase⟩ := h
  obtain ⟨template, htemplate⟩ := Option.isSome_iff_exists.mp htemplate
  unfold Leads WorkflowNode.run Agent.responseGenerator
  rw [htemplate]
  refine ⟨_, _, _, rfl, by simp [DiagnosisState.Valid, hphase], ?_⟩
  simp [WorkflowNode.next, Ready, hlength, hphase]

theorem leads_ruleChecker (h : Ready state .ruleChecker) :
    Leads deps env .ruleChecker state toolData := by
  obtain ⟨hlength, hphase, hresponse⟩ := h
  obtain ⟨response, hresponse⟩ := Option.ne_none_iff_exists'.mp hresponse
  unfold Leads WorkflowNode.run Agent.ruleChecker
  rw [hresponse]
  dsimp only
  split
  · refine ⟨_, _, _, rfl, by simp [DiagnosisState.Valid, hphase], ?_⟩
    show Ready _ (if state.errors ++ (ruleDecision state).violations ≠ [] then
      WorkflowNode.clarificationGenerator else .memoryWriter)
    by_cases herrors : state.errors ++ (ruleDecision state).violations = []
    · rw [if_neg (not_not_intro herrors)]
      simp [Ready]
    · rw [if_pos herrors]
      exact ⟨hlength, fun _ => herrors⟩
  · refine ⟨_, _, _, rfl, by simp [DiagnosisState.Valid], ?_⟩
    show Ready _ (if state.errors ≠ [] then WorkflowNode.clarificationGenerator
      else .memoryWriter)
    by_cases herrors : state.errors = []
    · rw [if_neg (not_not_intro herrors)]
      simp [Ready]
    · rw [if_pos herrors]
      exact ⟨hlength, fun _ => herrors⟩

theorem leads_memoryWriter (h : Ready state .memoryWriter) :
    Leads deps env .memoryWriter state toolData := by
  have hresponse : state.finalResponse ≠ none := h
  exact ⟨_, _, _, rfl, by simp [DiagnosisState.Valid, hresponse], Or.inl ⟨rfl, hresponse⟩⟩

theorem leads_clarificationGenerator (h : Ready state .clarificationGenerator)
    (hfits : Visit.Fits deps env ⟨.clarificationGenerator, state, toolData⟩) :
    Leads deps env .clarificationGenerator state toolData := by
  obtain ⟨htemplate, hreply⟩ := hfits
  have husable := (clarificationQuestionsOf_usable _ h).mpr hreply
  have hregistered : ¬ ((Text.truthy state.diagnosisTemplateId).isSome ∧
      (stateTemplate deps state).isNone) := by
    rintro ⟨hnamed, hnone⟩
    have hsome := htemplate hnamed
    simp [Option.isNone_iff_eq_none.mp hnone] at hsome
  unfold Leads WorkflowNode.run Agent.clarificationGenerator
  rw [if_neg hregistered]
  refine ⟨_, _, _, rfl, by simp [DiagnosisState.Valid, husable.1], ?_⟩
  exact Or.inr ⟨rfl, husable⟩

/-- **A node to which everything fits does its part.** -/
theorem leads_of_fits {n : WorkflowNode} (h : Ready state n)
    (hfits : Visit.Fits deps env ⟨n, state, toolData⟩) : Leads deps env n state toolData := by
  cases n with
  | intentRouter => exact leads_intentRouter h
  | entityParser => exact leads_entityParser h
  | clarificationApplier => exact leads_clarificationApplier
  | planBuilder => exact leads_planBuilder h
  | toolDispatcher => exact leads_toolDispatcher h hfits.1 hfits.2
  | timeseriesFetcher => exact leads_timeseriesFetcher h hfits
  | ticketFetcher => exact leads_ticketFetcher h
  | docRetriever => exact leads_docRetriever h
  | graphFetcher => exact leads_graphFetcher h
  | evidenceAggregator => exact leads_evidenceAggregator h hfits
  | gapDetector => exact leads_gapDetector h
  | clarificationGenerator => exact leads_clarificationGenerator h hfits
  | reasonGenerator => exact leads_reasonGenerator h hfits
  | responseGenerator => exact leads_responseGenerator h hfits
  | ruleChecker => exact leads_ruleChecker h
  | memoryWriter => exact leads_memoryWriter h

/-- A question node that does not fit raises, or asks what it should not. -/
theorem goesWrong_clarificationGenerator (h : Ready state .clarificationGenerator)
    (hunfit : ¬ Visit.Fits deps env ⟨.clarificationGenerator, state, toolData⟩) :
    GoesWrong deps env .clarificationGenerator state toolData := by
  by_cases hregistered : (Text.truthy state.diagnosisTemplateId).isSome →
      (stateTemplate deps state).isSome
  · have hreply := fun hreply => hunfit ⟨hregistered, hreply⟩
    have hunusable : ¬ (clarificationQuestionsOf env state (stateTemplate deps state) ≠ [] ∧
        (clarificationQuestionsOf env state (stateTemplate deps state)).length ≤ 3 ∧
        ((clarificationQuestionsOf env state (stateTemplate deps state)).map (·.questionId)).Nodup) :=
      mt (clarificationQuestionsOf_usable _ h).mp hreply
    have hregistered' : ¬ ((Text.truthy state.diagnosisTemplateId).isSome ∧
        (stateTemplate deps state).isNone) := by
      rintro ⟨hnamed, hnone⟩
      have hsome := hregistered hnamed
      simp [Option.isNone_iff_eq_none.mp hnone] at hsome
    refine Or.inr ⟨_, _, _, if_neg hregistered', Or.inr ⟨rfl, ?_⟩⟩
    rintro (⟨hphase, -⟩ | ⟨-, husable⟩)
    · cases hphase
    · exact hunusable husable
  · rw [Classical.not_imp, Bool.not_eq_true, Option.isSome_eq_false_iff] at hregistered
    exact Or.inl (if_pos hregistered)

/-- **A node to which something does not fit goes wrong.** -/
theorem goesWrong_of_not_fits {n : WorkflowNode} (h : Ready state n)
    (hunfit : ¬ Visit.Fits deps env ⟨n, state, toolData⟩) :
    GoesWrong deps env n state toolData := by
  cases n with
  | toolDispatcher => exact Or.inl (failed_toolDispatcher h hunfit)
  | timeseriesFetcher =>
      refine Or.inl ?_
      show Agent.timeseriesFetcher deps env state toolData = .failed
      unfold Agent.timeseriesFetcher
      exact if_neg fun hand => hunfit hand.2
  | reasonGenerator =>
      have hnone : stateTemplate deps state = none := Option.not_isSome_iff_eq_none.mp hunfit
      refine Or.inl ?_
      show Agent.reasonGenerator deps env state toolData = .failed
      unfold Agent.reasonGenerator
      rw [hnone]
  | responseGenerator =>
      have hnone : stateTemplate deps state = none := Option.not_isSome_iff_eq_none.mp hunfit
      refine Or.inl ?_
      show Agent.responseGenerator deps env state toolData = .failed
      unfold Agent.responseGenerator
      rw [hnone]
  | evidenceAggregator =>
      have hnone : collectedEvidence state toolData = none :=
        Option.not_isSome_iff_eq_none.mp hunfit
      refine Or.inl ?_
      show Agent.evidenceAggregator state toolData = .failed
      unfold Agent.evidenceAggregator
      rw [hnone]
  | clarificationGenerator => exact goesWrong_clarificationGenerator h hunfit
  | _ => exact absurd trivial hunfit

end nodes

/-! ## The whole run -/

/-- **A run ends as it should exactly if everything fits at the nodes it visits.** -/
theorem walk_endsUsable_iff {limit : Nat} {n : WorkflowNode} {state : DiagnosisState}
    {toolData : ToolData} (hlimit : n.rank ≤ limit) (h : Ready state n) :
    EndsUsable (walk deps env limit n state toolData).2 ↔
      ∀ v ∈ (walk deps env limit n state toolData).1, v.Fits deps env := by
  induction limit generalizing n state toolData with
  | zero =>
      exfalso
      cases n <;> simp [WorkflowNode.rank] at hlimit
  | succ limit ih =>
      by_cases hfits : Visit.Fits deps env ⟨n, state, toolData⟩
      · obtain ⟨state', toolData', written, hrun, hvalid, hleads⟩ := leads_of_fits h hfits
        cases hnext : n.next state' with
        | none =>
            rw [hnext] at hleads
            rw [walk_last hrun hvalid hnext]
            simp [EndsUsable, hleads, hfits]
        | some m =>
            rw [hnext] at hleads
            have hrank := WorkflowNode.rank_next hnext
            rw [walk_next hrun hvalid hnext, ih (by omega) hleads]
            simp [hfits]
      · -- a node that goes wrong is the last one
        rcases goesWrong_of_not_fits h hfits with hfailed |
          ⟨state', toolData', written, hrun, hinvalid | ⟨hnext, hunusable⟩⟩
        · rw [walk_failed hfailed]
          simp [EndsUsable, hfits]
        · rw [walk_invalid hrun hinvalid]
          simp [EndsUsable, hfits]
        · by_cases hvalid : state'.Valid
          · rw [walk_last hrun hvalid hnext]
            simp [EndsUsable, hfits, hunusable]
          · rw [walk_invalid hrun hvalid]
            simp [EndsUsable, hfits]

/-- The next node finds what it wants. -/
theorem ready_next {n m : WorkflowNode} {state state' : DiagnosisState}
    {toolData toolData' : ToolData} {written : Option DiagnosisResult} (h : Ready state n)
    (hrun : n.run deps env state toolData = .done state' toolData' written)
    (hvalid : state'.Valid) (hnext : n.next state' = some m) : Ready state' m := by
  by_cases hfits : Visit.Fits deps env ⟨n, state, toolData⟩
  · obtain ⟨state₁, _, _, hrun₁, -, hleads⟩ := leads_of_fits h hfits
    rw [hrun] at hrun₁
    cases hrun₁
    rwa [hnext] at hleads
  · exfalso
    rcases goesWrong_of_not_fits h hfits with hfailed |
      ⟨state₁, _, _, hrun₁, hinvalid | ⟨hlast, -⟩⟩
    · rw [hrun] at hfailed
      cases hfailed
    · rw [hrun] at hrun₁
      cases hrun₁
      exact hinvalid hvalid
    · rw [hrun] at hrun₁
      cases hrun₁
      rw [hnext] at hlast
      cases hlast

/-- Every node that a run visits finds what it wants. -/
theorem ready_visited {limit : Nat} {n : WorkflowNode} {state : DiagnosisState}
    {toolData : ToolData} (h : Ready state n) :
    ∀ v ∈ (walk deps env limit n state toolData).1, Ready v.state v.node :=
  walk_invariant (I := fun n state _ => Ready state n)
    (fun _ _ _ _ _ _ _ hready hrun hvalid hnext => ready_next hready hrun hvalid hnext) h

/-- The state that `diagnose` builds is one to start from. -/
theorem ready_initialState {payload : ChatRequest} {session : SessionRow}
    {memory : Option SessionMemory} {runId traceId : String} {initial : DiagnosisState}
    (h : initialState payload session memory runId traceId = .ok initial) :
    Ready initial .intentRouter := by
  obtain ⟨device, -, h⟩ := Prog.except_bind_eq_ok h
  obtain ⟨alarm, -, h⟩ := Prog.except_bind_eq_ok h
  cases h
  exact ⟨rfl, rfl, rfl⟩

/-- **Every run of the workflow ends with a result or with questions**, exactly if everything fits
at the nodes it visits. -/
theorem endsUsable_iff_fits {payload : ChatRequest} {session : SessionRow}
    {memory : Option SessionMemory} {runId traceId : String} {initial : DiagnosisState}
    (h : initialState payload session memory runId traceId = .ok initial) :
    EndsUsable (walkFrom deps env initial).2 ↔
      ∀ v ∈ (walkFrom deps env initial).1, v.Fits deps env :=
  walk_endsUsable_iff (by decide) (ready_initialState h)

end endings

/-! ## Two runs -/

/-- With evidence for a cause the run about the fan ends with a result. -/
theorem fan_run_completes :
    EndsUsable (walkFrom sampleDeps answeringEnvironment fanInitial).2 ∧
      ∀ v ∈ (walkFrom sampleDeps answeringEnvironment fanInitial).1,
        v.Fits sampleDeps answeringEnvironment := by
  have husable : EndsUsable (walkFrom sampleDeps answeringEnvironment fanInitial).2 := by
    decide +kernel
  exact ⟨husable, (endsUsable_iff_fits fanInitial_eq).mp husable⟩

/-- No manual is found, and the model has no question to ask. -/
def speechlessEnvironment : Environment :=
  { answeringEnvironment with manuals := unavailable, clarification := some [] }

/-- Without a question the run raises. -/
theorem empty_questions_raise :
    ¬ ∀ (env : Environment) (payload : ChatRequest) (session : SessionRow)
      (memory : Option SessionMemory) (runId traceId : String) (initial : DiagnosisState),
      initialState payload session memory runId traceId = .ok initial →
      EndsUsable (walkFrom sampleDeps env initial).2 := by
  intro hall
  have husable := hall speechlessEnvironment _ _ _ _ _ _ fanInitial_eq
  exact absurd husable (by decide +kernel)

end EnergyAgent.Agent
