import EnergyAgent.Agent.Endings

/-!
# A run that a guardrail stops

Three nodes ask a guardrail whether the run may go on: `entity_parser` about the input,
`plan_builder` and `clarification_applier` about the plan. A run that is stopped is to end with
questions and without a diagnosis. What `clarification_applier` says is overwritten by
`gap_detector`, and a run that answers questions over stored evidence never asks about its input:
both theorems say exactly when a stop holds all the same.
-/

namespace EnergyAgent.Agent

open EnergyAgent.Lib

/-- The run ends with questions. -/
def Asks (result : Except ExecutionError DiagnosisState) : Prop :=
  ∃ state, result = .ok state ∧ state.phase = .needUserInput ∧ state.clarificationQuestions ≠ []

/-- **A blocked input reaches no diagnosis**: the run executes no tool and gives no reason, and
ends in NEED_USER_INPUT. -/
def InputStopped (run : List Visit × Except ExecutionError DiagnosisState) : Prop :=
  (∀ v ∈ run.1, v.node.executesTool = false ∧ v.node ≠ .reasonGenerator) ∧
    ∃ state, run.2 = .ok state ∧ state.phase = .needUserInput

/-- **A blocked plan stops the run**: there is no reason, no response and no result, and the run
ends in NEED_USER_INPUT with a question. -/
def PlanStopped (run : List Visit × Except ExecutionError DiagnosisState) : Prop :=
  (∀ v ∈ run.1, v.node ≠ .reasonGenerator ∧ v.node ≠ .responseGenerator ∧
    v.node ≠ .memoryWriter) ∧ Asks run.2

section blocking

variable (deps : Dependencies) (env : Environment)

/-- The template that the state names, if it names one, is registered. -/
def TemplateKnown (state : DiagnosisState) : Prop :=
  (Text.truthy state.diagnosisTemplateId).isSome → (stateTemplate deps state).isSome

/-- The template of the state has its own question about what its evidence lacks, and the model is
not asked. -/
def TemplateAsks (state : DiagnosisState) : Prop :=
  (stateTemplate deps state).isSome ∧ (evidenceGaps state).any aboutTimeseries

/-- The plan of the state is blocked. -/
def PlanBlocked (state : DiagnosisState) : Prop :=
  (state.checkPlan (planningAllowedTools deps)).status = .blocked

/-- A guardrail blocks the plan at this node. -/
def Visit.BlocksPlan (v : Visit) : Prop :=
  match v.node with
  | .clarificationApplier => PlanBlocked deps v.state
  | .planBuilder => ∃ alarm template basis, v.state.alarmContext = some alarm ∧
      deps.templates.route deps.patterns.lower (v.state.deviceContext.bind (·.deviceType))
        (some alarm.alarmName) none v.state.userMessage = .ok (template, basis) ∧
      (planDecision deps template).status = .blocked
  | _ => False

variable {deps env} {state : DiagnosisState} {toolData : ToolData}

/-! ## The question node -/

/-- The question node ends the run: with questions, if there are any and the template is known. -/
theorem walk_clarificationGenerator (limit : Nat) :
    ∃ result, walk deps env (limit + 1) .clarificationGenerator state toolData =
        ([⟨.clarificationGenerator, state, toolData⟩], result) ∧
      (Asks result ↔ TemplateKnown deps state ∧
        clarificationQuestionsOf env state (stateTemplate deps state) ≠ []) ∧
      ∀ final, result = .ok final → final.phase = .needUserInput ∧ Asks result := by
  by_cases hknown : TemplateKnown deps state
  · have hregistered : ¬ ((Text.truthy state.diagnosisTemplateId).isSome ∧
        (stateTemplate deps state).isNone) := by
      rintro ⟨hnamed, hnone⟩
      have hsome := hknown hnamed
      simp [Option.isNone_iff_eq_none.mp hnone] at hsome
    have hrun : WorkflowNode.clarificationGenerator.run deps env state toolData =
        .done { state with
          phase := .needUserInput
          clarificationQuestions := clarificationQuestionsOf env state (stateTemplate deps state) }
          toolData state.finalResponse := if_neg hregistered
    by_cases hquestions : clarificationQuestionsOf env state (stateTemplate deps state) = []
    · refine ⟨_, walk_invalid hrun ?_, ?_, ?_⟩
      · simp [DiagnosisState.Valid, hquestions]
      · simp [Asks, hquestions]
      · intro final hfinal
        cases hfinal
    · refine ⟨_, walk_last hrun ?_ rfl, ?_, ?_⟩
      · simp [DiagnosisState.Valid, hquestions]
      · simp [Asks, hquestions, hknown]
      · intro final hfinal
        cases hfinal
        exact ⟨rfl, _, rfl, rfl, hquestions⟩
  · have hfailed : WorkflowNode.clarificationGenerator.run deps env state toolData = .failed := by
      unfold TemplateKnown at hknown
      rw [Classical.not_imp, Bool.not_eq_true, Option.isSome_eq_false_iff] at hknown
      exact if_pos hknown
    refine ⟨_, walk_failed hfailed, ?_, ?_⟩
    · simp [Asks, hknown]
    · intro final hfinal
      cases hfinal

/-- There is no question when the model is asked and has none. -/
theorem clarificationQuestionsOf_ne_nil (template : Option DiagnosisTemplate)
    (h : Ready state .clarificationGenerator) :
    clarificationQuestionsOf env state template ≠ [] ↔
      ¬ (asksModel state template ∧ env.clarification = some []) := by
  have hdraft := (draftQuestions_usable template h).1
  unfold clarificationQuestionsOf
  cases asksModel state template with
  | false => simpa using hdraft
  | true =>
      cases env.clarification with
      | none => simpa using hdraft
      | some reply => simp

/-- The state with the gaps of its evidence as errors. -/
def DiagnosisState.detected (state : DiagnosisState) : DiagnosisState :=
  { state with errors := evidenceGaps state }

/-- The model is asked about the gaps unless there are questions already, or the template asks. -/
theorem asksModel_detected (h : Ready state .gapDetector) (hgaps : evidenceGaps state ≠ []) :
    asksModel state.detected (stateTemplate deps state) = true ↔
      state.clarificationQuestions = [] ∧ ¬ TemplateAsks deps state := by
  have hready : Ready state.detected .clarificationGenerator := ⟨h.1, fun _ => hgaps⟩
  have hdraft := (draftQuestions_usable (stateTemplate deps state) hready).1
  unfold asksModel TemplateAsks
  rw [decide_eq_true_iff]
  exact ⟨fun hand => hand.2, fun hand => ⟨hdraft, hand⟩⟩

/-- A run that comes to the gap detector, and finds gaps, asks. -/
theorem walk_gapDetector_asks (limit : Nat) (h : Ready state .gapDetector)
    (hgaps : evidenceGaps state ≠ []) :
    ∃ result, walk deps env (limit + 2) .gapDetector state toolData =
        ([⟨.gapDetector, state, toolData⟩, ⟨.clarificationGenerator, state.detected, toolData⟩],
          result) ∧
      (Asks result ↔ TemplateKnown deps state ∧ (state.clarificationQuestions ≠ [] ∨
        TemplateAsks deps state ∨ env.clarification ≠ some [])) ∧
      ∀ final, result = .ok final → final.phase = .needUserInput ∧ Asks result := by
  have hready : Ready state.detected .clarificationGenerator := ⟨h.1, fun _ => hgaps⟩
  have hvalid : state.detected.Valid := by
    rcases h.2 with hphase | ⟨hphase, hquestions⟩
    · simp [DiagnosisState.Valid, DiagnosisState.detected, hphase]
    · simp [DiagnosisState.Valid, DiagnosisState.detected, hphase, hquestions]
  obtain ⟨result, hwalk, hasks, hends⟩ :=
    @walk_clarificationGenerator deps env state.detected toolData limit
  refine ⟨result, ?_, ?_, hends⟩
  · have hrun : WorkflowNode.gapDetector.run deps env state toolData =
        .done state.detected toolData none := rfl
    have hnext : WorkflowNode.next state.detected .gapDetector = some .clarificationGenerator :=
      congrArg some (if_pos hgaps)
    rw [walk_next hrun hvalid hnext, hwalk]
  · have hsame : stateTemplate deps state.detected = stateTemplate deps state := rfl
    have hknown : TemplateKnown deps state.detected ↔ TemplateKnown deps state := Iff.rfl
    rw [hasks, hknown, clarificationQuestionsOf_ne_nil _ hready, hsame,
      asksModel_detected h hgaps]
    tauto

/-! ## Blocked input -/

/-- The run of an initial state, after its first node. -/
theorem walkFrom_eq {initial : DiagnosisState} (h : Ready initial .intentRouter) :
    ∃ intent, walkFrom deps env initial =
      (⟨.intentRouter, initial, {}⟩ ::
          (walk deps env 24 (if WorkflowNode.isFollowup initial then .clarificationApplier
            else .entityParser) { initial with intent := intent } {}).1,
        (walk deps env 24 (if WorkflowNode.isFollowup initial then .clarificationApplier
            else .entityParser) { initial with intent := intent } {}).2) := by
  refine ⟨some (if initial.userFeedback ≠ [] then .followupClarification else .faultDiagnosis), ?_⟩
  have hrun : WorkflowNode.intentRouter.run deps env initial {} =
      .done { initial with
        intent := some (if initial.userFeedback ≠ [] then .followupClarification
          else .faultDiagnosis) } {} none := rfl
  have hvalid : DiagnosisState.Valid { initial with
      intent := some (if initial.userFeedback ≠ [] then .followupClarification
        else .faultDiagnosis) } := by
    simp [DiagnosisState.Valid, h.1]
  exact walk_next hrun hvalid rfl

/-- What `clarification_applier` leaves. -/
theorem walk_clarificationApplier (limit : Nat) :
    ∃ state', walk deps env (limit + 1) .clarificationApplier state toolData =
        (⟨.clarificationApplier, state, toolData⟩ ::
            (walk deps env limit .gapDetector state' toolData).1,
          (walk deps env limit .gapDetector state' toolData).2) ∧
      Ready state' .gapDetector ∧ evidenceGaps state' = evidenceGaps state ∧
      stateTemplate deps state' = stateTemplate deps state ∧
      state'.diagnosisTemplateId = state.diagnosisTemplateId ∧
      (state'.clarificationQuestions ≠ [] ↔ PlanBlocked deps state) := by
  by_cases hblocked : PlanBlocked deps state
  · have hrun : WorkflowNode.clarificationApplier.run deps env state toolData =
        .update { state with
          phase := .needUserInput
          guardrailDecision := some (state.checkPlan (planningAllowedTools deps))
          errors := state.errors ++ (state.checkPlan (planningAllowedTools deps)).violations
          clarificationQuestions := [guardrailPlanQuestion
            (state.checkPlan (planningAllowedTools deps)).violations] } toolData := if_pos hblocked
    refine ⟨_, walk_next hrun ?_ rfl, ?_, rfl, rfl, rfl, ?_⟩
    · simp [DiagnosisState.Valid]
    · simp [Ready]
    · simp [hblocked]
  · have hrun : WorkflowNode.clarificationApplier.run deps env state toolData =
        .update { state with
          phase := .evidenceReady
          clarificationQuestions := []
          errors := []
          guardrailDecision := some (state.checkPlan (planningAllowedTools deps)) } toolData :=
      if_neg hblocked
    refine ⟨_, walk_next hrun ?_ rfl, ?_, rfl, rfl, rfl, ?_⟩
    · simp [DiagnosisState.Valid]
    · simp [Ready]
    · simp [hblocked]

/-- Without a gap the run goes on to reason. -/
theorem walk_gapDetector_reasons (limit : Nat) (h : Ready state .gapDetector)
    (hgaps : evidenceGaps state = []) :
    ∃ v ∈ (walk deps env (limit + 2) .gapDetector state toolData).1, v.node = .reasonGenerator := by
  have hvalid : state.detected.Valid := by
    rcases h.2 with hphase | ⟨hphase, hquestions⟩
    · simp [DiagnosisState.Valid, DiagnosisState.detected, hphase]
    · simp [DiagnosisState.Valid, DiagnosisState.detected, hphase, hquestions]
  have hrun : WorkflowNode.gapDetector.run deps env state toolData =
      .done state.detected toolData none := rfl
  have hnext : WorkflowNode.next state.detected .gapDetector = some .reasonGenerator :=
    congrArg some (if_neg (not_not_intro hgaps))
  rw [walk_next hrun hvalid hnext]
  exact ⟨_, List.mem_cons_of_mem _ (mem_walk_self ..), rfl⟩

/-- The state that `entity_parser` leaves of a blocked input. -/
def DiagnosisState.refused (patterns : Patterns) (state : DiagnosisState) : DiagnosisState :=
  { state with
    phase := .needUserInput
    clarificationQuestions := [guardrailInputQuestion]
    errors := (state.checkInput patterns).violations
    warnings := (state.checkInput patterns).warnings
    guardrailDecision := some (state.checkInput patterns) }

/-- The run of a blocked input that does not answer questions over stored evidence. -/
theorem walk_entityParser_blocked (limit : Nat)
    (hblocked : (state.checkInput deps.patterns).status = .blocked) :
    ∃ result, walk deps env (limit + 2) .entityParser state toolData =
        ([⟨.entityParser, state, toolData⟩,
          ⟨.clarificationGenerator, state.refused deps.patterns, toolData⟩], result) ∧
      (Asks result ↔ TemplateKnown deps state) ∧
      ∀ final, result = .ok final → final.phase = .needUserInput ∧ Asks result := by
  have hrun : WorkflowNode.entityParser.run deps env state toolData =
      .update (state.refused deps.patterns) toolData := if_pos hblocked
  have hvalid : (state.refused deps.patterns).Valid := by
    simp [DiagnosisState.Valid, DiagnosisState.refused]
  have hready : Ready (state.refused deps.patterns) .clarificationGenerator := by
    simp [Ready, DiagnosisState.refused]
  obtain ⟨result, hwalk, hasks, hends⟩ :=
    @walk_clarificationGenerator deps env (state.refused deps.patterns) toolData limit
  refine ⟨result, ?_, ?_, hends⟩
  · have hnext : WorkflowNode.next (state.refused deps.patterns) .entityParser =
        some .clarificationGenerator := rfl
    rw [walk_next hrun hvalid hnext, hwalk]
  · have hquiet : asksModel (state.refused deps.patterns)
        (stateTemplate deps (state.refused deps.patterns)) = false := by
      simp [asksModel, DiagnosisState.refused]
    rw [hasks, clarificationQuestionsOf_ne_nil _ hready, hquiet]
    simp [TemplateKnown, stateTemplate, DiagnosisState.refused]

/-- A run that has come to its question node is stopped if it asks. -/
theorem inputStopped_iff_asks {visits : List Visit} {result : Except ExecutionError DiagnosisState}
    (hvisits : ∀ v ∈ visits, v.node.executesTool = false ∧ v.node ≠ .reasonGenerator)
    (hends : ∀ final, result = .ok final → final.phase = .needUserInput ∧ Asks result) :
    InputStopped (visits, result) ↔ Asks result := by
  constructor
  · rintro ⟨-, final, hfinal, -⟩
    exact (hends final hfinal).2
  · rintro ⟨final, hfinal, hphase, -⟩
    exact ⟨hvisits, final, hfinal, hphase⟩

/-- **When a blocked input reaches no diagnosis.** -/
theorem input_stopped_iff {payload : ChatRequest} {session : SessionRow}
    {memory : Option SessionMemory} {runId traceId : String} {initial : DiagnosisState}
    (h : initialState payload session memory runId traceId = .ok initial)
    (hblocked : (initial.checkInput deps.patterns).status = .blocked) :
    InputStopped (walkFrom deps env initial) ↔
      TemplateKnown deps initial ∧ (WorkflowNode.isFollowup initial →
        evidenceGaps initial ≠ [] ∧ (PlanBlocked deps initial ∨ TemplateAsks deps initial ∨
          env.clarification ≠ some [])) := by
  obtain ⟨intent, hwalk⟩ := @walkFrom_eq deps env initial (ready_initialState h)
  rw [hwalk]
  by_cases hfollowup : WorkflowNode.isFollowup initial
  · -- `clarification_applier` and `gap_detector`, without a look at the input
    rw [if_pos hfollowup]
    obtain ⟨state', hstate, hready, hgaps, htemplate, hid, hquestions⟩ :=
      @walk_clarificationApplier deps env { initial with intent := intent } {} 23
    have hsame : evidenceGaps state' = evidenceGaps initial := hgaps
    have hknown : TemplateKnown deps state' ↔ TemplateKnown deps initial := by
      unfold TemplateKnown
      rw [htemplate, hid]
      rfl
    have htemplateAsks : TemplateAsks deps state' ↔ TemplateAsks deps initial := by
      unfold TemplateAsks
      rw [htemplate, hsame]
      rfl
    have hplan : PlanBlocked deps { initial with intent := intent } ↔ PlanBlocked deps initial :=
      Iff.rfl
    rw [hstate]
    by_cases hnone : evidenceGaps initial = []
    · obtain ⟨v, hv, hreason⟩ :=
        @walk_gapDetector_reasons deps env state' {} 21 hready (hsame.trans hnone)
      constructor
      · rintro ⟨hvisits, -⟩
        refine absurd hreason (hvisits v ?_).2
        exact List.mem_cons_of_mem _ (List.mem_cons_of_mem _ hv)
      · rintro ⟨-, hcond⟩
        exact absurd hnone (hcond hfollowup).1
    · obtain ⟨result, hwalk', hasks, hends⟩ :=
        @walk_gapDetector_asks deps env state' {} 21 hready (hsame ▸ hnone)
      rw [hwalk', inputStopped_iff_asks _ hends, hasks, hknown, hquestions, hplan, htemplateAsks]
      · simp [hfollowup, hnone]
      · simp [WorkflowNode.executesTool]
  · -- `entity_parser` blocks
    rw [if_neg hfollowup]
    obtain ⟨result, hstate, hasks, hends⟩ :=
      @walk_entityParser_blocked deps env { initial with intent := intent } {} 22 hblocked
    rw [hstate, inputStopped_iff_asks _ hends, hasks]
    · simp only [hfollowup, false_imp_iff, and_true]
      rfl
    · simp [WorkflowNode.executesTool]

/-! ## A blocked plan -/

theorem eq_of_truthy {text : Option String} {s : String} (h : Text.truthy text = some s) :
    text = some s := by
  cases text with
  | none => cases h
  | some t =>
      simp only [Text.truthy] at h
      split at h
      · cases h
      · exact h

/-- No violation of the plan is about the time series. -/
theorem checkPlan_violations_quiet {plan : List PlanStep} {allowedTools : List String}
    {validTemplate : Bool} :
    (checkPlan plan allowedTools validTemplate).violations.any aboutTimeseries = false := by
  have hreport : ∀ (c : Prop) [Decidable c] (name : String), aboutTimeseries name = false →
      (report c name).any aboutTimeseries = false := by
    intro c _ name hname
    unfold report
    split
    · simp [hname]
    · rfl
  simp only [checkPlan, List.any_append, Bool.or_eq_false_iff]
  refine ⟨⟨⟨⟨?_, ?_⟩, ?_⟩, ?_⟩, ?_⟩
  all_goals exact hreport _ _ (by decide)

/-- A blocked plan of the stored evidence: the run asks if the evidence has gaps. -/
theorem planStopped_clarificationApplier (limit : Nat) (hblocked : PlanBlocked deps state) :
    PlanStopped (walk deps env (limit + 3) .clarificationApplier state toolData) ↔
      TemplateKnown deps state ∧ evidenceGaps state ≠ [] := by
  obtain ⟨state', hstate, hready, hgaps, htemplate, hid, hquestions⟩ :=
    @walk_clarificationApplier deps env state toolData (limit + 2)
  have hknown : TemplateKnown deps state' ↔ TemplateKnown deps state := by
    unfold TemplateKnown
    rw [htemplate, hid]
  rw [hstate]
  by_cases hnone : evidenceGaps state = []
  · -- the run goes on as if nothing were wrong with the plan
    obtain ⟨v, hv, hreason⟩ :=
      @walk_gapDetector_reasons deps env state' toolData limit hready (hgaps.trans hnone)
    constructor
    · rintro ⟨hvisits, -⟩
      exact absurd hreason (hvisits v (List.mem_cons_of_mem _ hv)).1
    · rintro ⟨-, hsome⟩
      exact absurd hnone hsome
  · obtain ⟨result, hwalk, hasks, -⟩ :=
      @walk_gapDetector_asks deps env state' toolData limit hready (hgaps ▸ hnone)
    have hquestion := hquestions.mpr hblocked
    rw [hwalk]
    simp [PlanStopped, hasks, hknown, hquestion, hnone]

/-- A blocked plan of a routed template: the run asks if the model, which is asked, has a
question. -/
theorem planStopped_planBuilder (limit : Nat) (h : Ready state .planBuilder)
    (hblocked : Visit.BlocksPlan deps ⟨.planBuilder, state, toolData⟩) :
    PlanStopped (walk deps env (limit + 2) .planBuilder state toolData) ↔
      env.clarification ≠ some [] := by
  obtain ⟨alarm, template, basis, halarm, hroute, hstatus⟩ := hblocked
  obtain ⟨-, hquestions, -, hphase⟩ := h
  rcases planFor_cases deps state template basis with ⟨-, hplan⟩ | ⟨hpassed, -⟩
  swap
  · exact absurd hstatus hpassed
  have hviolations : (planDecision deps template).violations ≠ [] := checkPlan_blocked.mp hstatus
  have hquiet : (planDecision deps template).violations.any aboutTimeseries = false :=
    checkPlan_violations_quiet
  have hregistered : deps.templates.get template.templateId = some template :=
    TemplateRegistry.get_of_mem (TemplateRegistry.route_mem hroute)
  generalize hnew : planFor deps state template basis = planned at hplan
  have hrun : WorkflowNode.planBuilder.run deps env state toolData = .update planned toolData := by
    show Agent.planBuilder deps state toolData = _
    unfold Agent.planBuilder
    rw [halarm]
    dsimp only
    rw [hroute, ← hnew]
  have hvalid : planned.Valid := by
    rw [hplan]
    simp [DiagnosisState.Valid, hphase]
  have hnext : WorkflowNode.next planned .planBuilder = some .clarificationGenerator := by
    rw [hplan]
    simp [WorkflowNode.next, hviolations]
  have hready : Ready planned .clarificationGenerator := by
    rw [hplan]
    simp [Ready, hquestions, hviolations]
  have hknown : TemplateKnown deps planned := by
    intro hnamed
    have hid : planned.diagnosisTemplateId = some template.templateId := by rw [hplan]
    unfold stateTemplate
    rw [hid] at hnamed ⊢
    obtain ⟨id, hid'⟩ := Option.isSome_iff_exists.mp hnamed
    have hsame := Option.some.inj (eq_of_truthy hid')
    rw [hid', ← hsame]
    simp [hregistered]
  have hasked : asksModel planned (stateTemplate deps planned) = true := by
    have hdraft := (draftQuestions_usable (stateTemplate deps planned) hready).1
    have hnoQuestion : planned.clarificationQuestions = [] := by rw [hplan]; exact hquestions
    have hnoSeries : planned.errors.any aboutTimeseries = false := by rw [hplan]; exact hquiet
    unfold asksModel
    rw [decide_eq_true_iff]
    exact ⟨hdraft, hnoQuestion, by simp [hnoSeries]⟩
  obtain ⟨result, hwalk, hasks, -⟩ :=
    @walk_clarificationGenerator deps env planned toolData limit
  rw [walk_next hrun hvalid hnext, hwalk]
  rw [clarificationQuestionsOf_ne_nil _ hready, hasked] at hasks
  simp [PlanStopped, hasks, hknown]

/-- **When a blocked plan stops the run.** -/
theorem plan_stopped_iff {payload : ChatRequest} {session : SessionRow}
    {memory : Option SessionMemory} {runId traceId : String} {initial : DiagnosisState} {v : Visit}
    (h : initialState payload session memory runId traceId = .ok initial)
    (hv : v ∈ (walkFrom deps env initial).1) (hblocked : v.BlocksPlan deps) :
    PlanStopped (walkFrom deps env initial) ↔
      match v.node with
      | .clarificationApplier => TemplateKnown deps v.state ∧ evidenceGaps v.state ≠ []
      | _ => env.clarification ≠ some [] := by
  have hready : Ready v.state v.node := ready_visited (ready_initialState h) v hv
  obtain ⟨before, rest, hrest, hbefore, hwalk⟩ := walk_split (n := .intentRouter) (by decide) hv
  -- what the run visits before the plan is checked comes before the plan is used
  have hearly : 6 ≤ v.node.rank := by
    obtain ⟨n, state, toolData⟩ := v
    cases n with
    | clarificationApplier => exact le_rfl
    | planBuilder =>
        show 6 ≤ 11
        decide
    | _ => exact hblocked.elim
  have hpassed : PlanStopped (walkFrom deps env initial) ↔
      PlanStopped (walk deps env rest v.node v.state v.toolData) := by
    have hquiet : ∀ u ∈ before, u.node ≠ .reasonGenerator ∧ u.node ≠ .responseGenerator ∧
        u.node ≠ .memoryWriter := by
      intro u hu
      have hrank := hbefore u hu
      refine ⟨?_, ?_, ?_⟩
      all_goals
        intro hnode
        rw [hnode] at hrank
        exact absurd (hearly.trans_lt hrank) (by decide)
    have hfrom : walkFrom deps env initial =
        (before ++ (walk deps env rest v.node v.state v.toolData).1,
          (walk deps env rest v.node v.state v.toolData).2) := hwalk
    rw [hfrom]
    unfold PlanStopped
    constructor
    · rintro ⟨hvisits, hasks⟩
      exact ⟨fun u hu => hvisits u (List.mem_append_right _ hu), hasks⟩
    · rintro ⟨hvisits, hasks⟩
      refine ⟨?_, hasks⟩
      intro u hu
      rcases List.mem_append.mp hu with hu | hu
      · exact hquiet u hu
      · exact hvisits u hu
  rw [hpassed]
  obtain ⟨n, state, toolData⟩ := v
  cases n with
  | clarificationApplier =>
      have hrest' : 6 ≤ rest := hrest
      obtain ⟨k, rfl⟩ : ∃ k, rest = k + 3 := ⟨rest - 3, by omega⟩
      exact planStopped_clarificationApplier k hblocked
  | planBuilder =>
      have hrest' : 11 ≤ rest := hrest
      obtain ⟨k, rfl⟩ : ∃ k, rest = k + 2 := ⟨rest - 2, by omega⟩
      exact planStopped_planBuilder k hready hblocked
  | _ => exact hblocked.elim

end blocking

/-! ## Runs that go on -/

/-- A piece of evidence of this type. -/
def sampleEvidence (sourceType : String) : Evidence where
  evidenceId := sourceType ++ ":1"
  sourceType := sourceType
  sourceId := "1"
  summary := "风扇卡滞"
  citation := "[" ++ sourceType ++ "]"
  verified := true
  reliability := 1
  relevance := 1
  chunkId := none
  packageId := none
  needManualConfirmation := false

/-- A memory with evidence of these types, and with this plan. -/
def storedMemory (types : List String) (plan : List PlanStep) : SessionMemory where
  sessionId := "session-1"
  phase := .needUserInput
  runId := "run-1"
  traceId := "trace-1"
  deviceContext := some ⟨some "site-1", some "pcs-1", some "PCS", none, none⟩
  alarmContext := some ⟨some "alarm-1", some "风扇异常", none⟩
  diagnosisTemplateId := some "pcs_fan_abnormal_v1"
  diagnosisTemplateVersion := some "1.1.0"
  plan := plan
  evidence := types.map sampleEvidence

/-- The types of evidence that a diagnosis needs. -/
def fullTypes : List String := ["device", "alarm", "timeseries", "manual"]

/-- An answer in a message that the guardrail blocks: it has a control character. -/
def blockedAnswer : ChatRequest :=
  ⟨"session-1", "\x01", [⟨"gap_1", "叶轮卡滞"⟩], none, none⟩

/-- The state of a run that gives the answer over the memory. -/
def answerInitial (memory : SessionMemory) (h : (initialState blockedAnswer fanSession (some memory)
    "run-2" "trace-2").toOption.isSome) : DiagnosisState :=
  (initialState blockedAnswer fanSession (some memory) "run-2" "trace-2").toOption.get h

/-- Without evidence the blocked answer reaches nothing. -/
theorem blocked_answer_stopped :
    InputStopped (walkFrom sampleDeps answeringEnvironment
      (answerInitial (storedMemory [] []) rfl)) := by
  have hinitial : initialState blockedAnswer fanSession (some (storedMemory [] [])) "run-2"
      "trace-2" = .ok (answerInitial (storedMemory [] []) rfl) := rfl
  refine (input_stopped_iff hinitial (by decide)).mpr ⟨?_, ?_⟩
  · intro _
    decide
  · intro hfollowup
    exact absurd hfollowup (by decide)

/-- With all the evidence it reaches a diagnosis: nothing asks about the input. -/
theorem blocked_answer_diagnosed :
    ¬ ∀ (env : Environment) (payload : ChatRequest) (session : SessionRow)
      (memory : Option SessionMemory) (runId traceId : String) (initial : DiagnosisState),
      initialState payload session memory runId traceId = .ok initial →
      (initial.checkInput sampleDeps.patterns).status = .blocked →
      InputStopped (walkFrom sampleDeps env initial) := by
  intro hall
  obtain ⟨hvisits, -⟩ := hall answeringEnvironment blockedAnswer fanSession
    (some (storedMemory fullTypes [])) "run-2" "trace-2"
    (answerInitial (storedMemory fullTypes []) rfl) rfl (by decide)
  have hnone : ∀ n ∈ (walkFrom sampleDeps answeringEnvironment
      (answerInitial (storedMemory fullTypes []) rfl)).1.map Visit.node, n ≠ .reasonGenerator := by
    intro n hn
    obtain ⟨v, hv, rfl⟩ := List.mem_map.mp hn
    exact (hvisits v hv).2
  exact absurd hnone (by decide +kernel)

/-- A plan that writes. -/
def writingPlan : List PlanStep := [⟨"S1", "写入复核结果", some "write_review_result"⟩]

/-- A memory with evidence of these types and the plan that writes. -/
def writingInitial (types : List String) : DiagnosisState :=
  answerInitial (storedMemory types writingPlan) rfl

/-- The visit that blocks the plan. -/
def writingVisit (types : List String) : Visit where
  node := .clarificationApplier
  state := { writingInitial types with intent := some .followupClarification }
  toolData := {}

theorem writingVisit_mem {types : List String} (h : types ≠ []) :
    writingVisit types ∈ (walkFrom sampleDeps answeringEnvironment (writingInitial types)).1 := by
  have hrun : WorkflowNode.intentRouter.run sampleDeps answeringEnvironment
      (writingInitial types) {} = .done (writingVisit types).state {} none := rfl
  have hphase : (writingVisit types).state.phase = .init := rfl
  have hvalid : (writingVisit types).state.Valid := by simp [DiagnosisState.Valid, hphase]
  have hfollowup : WorkflowNode.isFollowup (writingVisit types).state :=
    ⟨rfl, fun hnil => h (List.map_eq_nil_iff.mp hnil)⟩
  have hnext : WorkflowNode.next (writingVisit types).state .intentRouter =
      some .clarificationApplier := congrArg some (if_pos hfollowup)
  have hwalk := @walk_next sampleDeps answeringEnvironment 24 _ _ _ _ _ _ _ hrun hvalid hnext
  have hfrom : walkFrom sampleDeps answeringEnvironment (writingInitial types) =
      walk sampleDeps answeringEnvironment (24 + 1) .intentRouter (writingInitial types) {} := rfl
  rw [hfrom, hwalk]
  exact List.mem_cons_of_mem _ (mem_walk_self ..)

theorem writingVisit_blocks (types : List String) : (writingVisit types).BlocksPlan sampleDeps := by
  show (Agent.checkPlan writingPlan (planningAllowedTools sampleDeps) true).status = .blocked
  decide

/-- Where the evidence has a gap the blocked plan stops the run. -/
theorem writing_plan_stopped :
    PlanStopped (walkFrom sampleDeps answeringEnvironment
      (writingInitial ["device", "alarm", "timeseries"])) := by
  have hinitial : initialState blockedAnswer fanSession
      (some (storedMemory ["device", "alarm", "timeseries"] writingPlan)) "run-2" "trace-2" =
      .ok (writingInitial ["device", "alarm", "timeseries"]) := rfl
  refine (plan_stopped_iff hinitial (writingVisit_mem (by decide)) (writingVisit_blocks _)).mpr ?_
  refine ⟨?_, by decide⟩
  intro _
  decide

/-- Where it has none the run goes on to a diagnosis. -/
theorem writing_plan_goes_on :
    ¬ ∀ (env : Environment) (payload : ChatRequest) (session : SessionRow)
      (memory : Option SessionMemory) (runId traceId : String) (initial : DiagnosisState),
      initialState payload session memory runId traceId = .ok initial →
      ∀ v ∈ (walkFrom sampleDeps env initial).1, v.BlocksPlan sampleDeps →
        PlanStopped (walkFrom sampleDeps env initial) := by
  intro hall
  obtain ⟨hvisits, -⟩ := hall answeringEnvironment blockedAnswer fanSession
    (some (storedMemory fullTypes writingPlan)) "run-2" "trace-2" (writingInitial fullTypes) rfl
    (writingVisit fullTypes) (writingVisit_mem (by decide)) (writingVisit_blocks _)
  have hnone : ∀ n ∈ (walkFrom sampleDeps answeringEnvironment
      (writingInitial fullTypes)).1.map Visit.node, n ≠ .reasonGenerator := by
    intro n hn
    obtain ⟨v, hv, rfl⟩ := List.mem_map.mp hn
    exact (hvisits v hv).1
  exact absurd hnone (by decide +kernel)

end EnergyAgent.Agent
