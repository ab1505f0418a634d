import EnergyAgent.Agent.Endings

/-!
# What a run delivers

`rule_checker` checks the causes and the actions of the state, and `memory_writer` persists the
result. The result is another copy: the model may have rewritten it after the draft. What is
persisted rests on the evidence if the model did not reply; if it did, its actions are persisted as
they are, and so are its causes unless one of the state's had to be removed.
-/

namespace EnergyAgent.Agent

open EnergyAgent.Lib

/-! ## Checks -/

/-- The cause cites evidence, only evidence that there is, and not only the graph. -/
def CandidateCause.Grounded (evidence : List Evidence) (cause : CandidateCause) : Prop :=
  cause.supportingEvidence ≠ [] ∧
  (∀ ref ∈ cause.supportingEvidence, ref ∈ evidence.map Evidence.evidenceId) ∧
  ∃ ref ∈ cause.supportingEvidence, ¬ Text.startsWith ref "graph:"

instance (evidence : List Evidence) (cause : CandidateCause) : Decidable (cause.Grounded evidence) :=
  inferInstanceAs (Decidable (_ ∧ _))

/-- A piece of evidence that an action can rest on. -/
def Evidence.Backs (e : Evidence) (action : RecommendedAction) : Prop :=
  e.evidenceId ∈ action.evidenceRefs ∧ e.sourceType ∉ ["graph", "device", "alarm"]

instance (e : Evidence) (action : RecommendedAction) : Decidable (e.Backs action) :=
  inferInstanceAs (Decidable (_ ∧ _))

/-- An action of high or critical risk needs a confirmation, two kinds of evidence and notes on
safety. -/
def RecommendedAction.Guarded (evidence : List Evidence) (safetyNotes : List String)
    (action : RecommendedAction) : Prop :=
  action.riskLevel = .high ∨ action.riskLevel = .critical →
    action.requiresHumanConfirmation ∧
    (∃ e ∈ evidence, ∃ e' ∈ evidence, e.Backs action ∧ e'.Backs action ∧
      e.sourceType ≠ e'.sourceType) ∧
    safetyNotes ≠ []

instance (evidence : List Evidence) (safetyNotes : List String) (action : RecommendedAction) :
    Decidable (action.Guarded evidence safetyNotes) :=
  inferInstanceAs (Decidable (_ → _))

/-- **The result rests on the evidence.** -/
def DiagnosisResult.Delivers (evidence : List Evidence) (result : DiagnosisResult) : Prop :=
  (∀ cause ∈ result.candidateCauses, cause.Grounded evidence) ∧
  ∀ action ∈ result.recommendedActions, action.Guarded evidence result.safetyNotes

instance (evidence : List Evidence) (result : DiagnosisResult) :
    Decidable (result.Delivers evidence) :=
  inferInstanceAs (Decidable (_ ∧ _))

theorem causeViolation_eq_none {evidence : List Evidence} {cause : CandidateCause} :
    causeViolation (evidence.map Evidence.evidenceId) cause = none ↔ cause.Grounded evidence := by
  unfold causeViolation CandidateCause.Grounded
  split
  · simp [*]
  · next hsome =>
      split
      · next hunknown =>
          obtain ⟨ref, href, hnot⟩ := hunknown
          constructor
          · intro hnone
            cases hnone
          · rintro ⟨-, hknown, -⟩
            exact absurd (hknown ref href) hnot
      · next hknown =>
          have hknown' : ∀ ref ∈ cause.supportingEvidence,
              ref ∈ evidence.map Evidence.evidenceId := by
            intro ref href
            by_contra hnot
            exact hknown ⟨ref, href, hnot⟩
          split
          · next hgraph =>
              constructor
              · intro hnone
                cases hnone
              · rintro ⟨-, -, ref, href, hother⟩
                exact absurd (hgraph ref href) hother
          · next hother =>
              simp only [not_forall] at hother
              obtain ⟨ref, href, hother⟩ := hother
              exact ⟨fun _ => ⟨hsome, hknown', ref, href, hother⟩, fun _ => rfl⟩

/-- The violations of the causes are those of the ungrounded ones. -/
theorem checkGeneration_violations_eq_nil {causes : List CandidateCause}
    {evidence : List Evidence} :
    (checkGeneration causes evidence).violations = [] ↔ ∀ c ∈ causes, c.Grounded evidence := by
  show sortedSet (causes.filterMap _) = [] ↔ _
  rw [sortedSet_eq_nil, List.filterMap_eq_nil_iff]
  simp only [causeViolation_eq_none]

theorem mem_supportedCandidates {state : DiagnosisState} {cause : CandidateCause} :
    cause ∈ state.supportedCandidates ↔
      cause ∈ state.candidateCauses ∧ cause.Grounded state.evidence := by
  have hone : (checkGeneration [cause] state.evidence).status ≠ .blocked ↔
      cause.Grounded state.evidence := by
    have hstatus : (checkGeneration [cause] state.evidence).status =
        if [cause].filterMap (causeViolation (state.evidence.map Evidence.evidenceId)) ≠ [] then
          .blocked else .passed := rfl
    rw [hstatus, ← causeViolation_eq_none]
    cases hviolation : causeViolation (state.evidence.map Evidence.evidenceId) cause with
    | none => simp [hviolation]
    | some violation => simp [hviolation]
  unfold DiagnosisState.supportedCandidates
  rw [List.mem_filter, decide_eq_true_iff, hone]

theorem supportedCandidates_eq_self {state : DiagnosisState} :
    state.supportedCandidates = state.candidateCauses ↔
      ∀ c ∈ state.candidateCauses, c.Grounded state.evidence := by
  constructor
  · intro hself c hc
    rw [← hself] at hc
    exact (mem_supportedCandidates.mp hc).2
  · intro hall
    refine List.filter_eq_self.mpr ?_
    intro c hc
    have hmem := mem_supportedCandidates.mpr ⟨hc, hall c hc⟩
    exact (List.mem_filter.mp hmem).2

/-- The evidence that a reference is looked up in. -/
theorem exists_of_sourceOf {evidence : List Evidence} {ref sourceType : String}
    (h : sourceOf evidence ref = some sourceType) :
    ∃ e ∈ evidence, e.evidenceId = ref ∧ e.sourceType = sourceType := by
  obtain ⟨e, hfind, rfl⟩ := Option.map_eq_some_iff.mp h
  have hmem := List.mem_of_find?_eq_some hfind
  have hid := List.find?_some hfind
  exact ⟨e, List.mem_reverse.mp hmem, by simpa using hid, rfl⟩

/-- Two types of sources are those of two pieces of evidence. -/
theorem exists_backs_of_sourceTypes {evidence : List Evidence} {action : RecommendedAction}
    (h : 2 ≤ (sourceTypes evidence action.evidenceRefs).length) :
    ∃ e ∈ evidence, ∃ e' ∈ evidence, e.Backs action ∧ e'.Backs action ∧
      e.sourceType ≠ e'.sourceType := by
  have hnodup : (sourceTypes evidence action.evidenceRefs).Nodup := List.nodup_dedup _
  have hback : ∀ t ∈ sourceTypes evidence action.evidenceRefs,
      ∃ e ∈ evidence, e.Backs action ∧ e.sourceType = t := by
    intro t ht
    unfold sourceTypes at ht
    rw [List.mem_dedup, List.mem_filter, List.mem_filterMap] at ht
    obtain ⟨⟨ref, href, hsource⟩, hkind⟩ := ht
    obtain ⟨e, he, hid, htype⟩ := exists_of_sourceOf hsource
    refine ⟨e, he, ⟨?_, ?_⟩, htype⟩
    · rw [hid]
      exact href
    · rw [htype]
      simpa using hkind
  match hlist : sourceTypes evidence action.evidenceRefs with
  | [] => simp [hlist] at h
  | [_] => simp [hlist] at h
  | t :: t' :: rest =>
      rw [hlist] at hnodup hback
      obtain ⟨e, he, hbacks, rfl⟩ := hback t (by simp)
      obtain ⟨e', he', hbacks', rfl⟩ := hback t' (by simp)
      refine ⟨e, he, e', he', hbacks, hbacks', ?_⟩
      intro hsame
      simp [hsame] at hnodup

theorem guarded_of_not_unsafe {evidence : List Evidence} {safetyNotes : List String}
    {action : RecommendedAction} (h : unsafeAction evidence safetyNotes action = false) :
    action.Guarded evidence safetyNotes := by
  intro hrisk
  unfold unsafeAction at h
  rw [decide_eq_false_iff_not] at h
  push Not at h
  obtain ⟨hconfirm, hsources, hnotes⟩ := h hrisk
  exact ⟨by simpa using hconfirm, exists_backs_of_sourceTypes hsources, hnotes⟩

/-- What `check_output` lets pass. -/
theorem guarded_of_checkOutput {summary : String} {actions : List RecommendedAction}
    {evidence : List Evidence} {safetyNotes : List String}
    (h : (checkOutput summary actions evidence safetyNotes).violations = []) :
    ∀ action ∈ actions, action.Guarded evidence safetyNotes := by
  intro action haction
  apply guarded_of_not_unsafe
  by_contra hunsafe
  rw [Bool.not_eq_false] at hunsafe
  have hblocked : action ∈ actions.filter (unsafeAction evidence safetyNotes) :=
    List.mem_filter.mpr ⟨haction, hunsafe⟩
  have hviolation : "HIGH_RISK_ACTION_UNSAFE" ∈
      (checkOutput summary actions evidence safetyNotes).violations := by
    show _ ∈ sortedSet _
    rw [mem_sortedSet]
    exact List.mem_append_left _ (List.mem_map.mpr ⟨action, hblocked, rfl⟩)
  rw [h] at hviolation
  cases hviolation

theorem evaluate_violations_eq_nil {state : DiagnosisState} {causes : List CandidateCause} :
    (state.evaluate causes).violations = [] ↔
      (∀ c ∈ causes, c.Grounded state.evidence) ∧ state.checkOutput.violations = [] := by
  show sortedSet (_ ++ _) = [] ↔ _
  rw [sortedSet_eq_nil, List.append_eq_nil_iff, checkGeneration_violations_eq_nil]

theorem evaluate_blocks {state : DiagnosisState} {causes : List CandidateCause} :
    (state.evaluate causes).status = .blocked ∨ (state.evaluate causes).status = .needUserInput ↔
      (state.evaluate causes).violations ≠ [] := by
  have hstatus : (state.evaluate causes).status =
      if (state.evaluate causes).violations ≠ [] then .blocked
      else if (state.evaluate causes).warnings ≠ [] then .passedWithWarnings else .passed := rfl
  rw [hstatus]
  by_cases hsome : (state.evaluate causes).violations = []
  · by_cases hwarnings : (state.evaluate causes).warnings = []
    · simp [hsome, hwarnings]
    · simp [hsome, hwarnings]
  · simp [hsome]

/-- `rule_checker` stops for a reason. -/
theorem ruleDecision_blocks {state : DiagnosisState} :
    (ruleDecision state).status = .blocked ∨ (ruleDecision state).status = .needUserInput ↔
      (ruleDecision state).violations ≠ [] := by
  unfold ruleDecision
  dsimp only
  split
  · simp
  · exact evaluate_blocks

/-- What it lets pass: some cause is grounded, and the actions of the state are safe. -/
theorem ruleDecision_violations_eq_nil {state : DiagnosisState}
    (h : (ruleDecision state).violations = []) :
    state.supportedCandidates ≠ [] ∧ state.checkOutput.violations = [] := by
  unfold ruleDecision at h
  dsimp only at h
  split at h
  · simp at h
  · next hsome => exact ⟨hsome, (evaluate_violations_eq_nil.mp h).2⟩

/-- The violations of causes are those that make `sanitize_response` remove some. -/
theorem mem_unsafe_of_causeViolation {known : List String} {cause : CandidateCause}
    {violation : String} (h : causeViolation known cause = some violation) :
    violation ∈ unsafeGenerationViolations := by
  unfold causeViolation at h
  repeat' split at h
  all_goals cases h
  all_goals decide

/-- The causes of the result are the grounded ones of the state if one had to be removed. -/
theorem sanitizeResponse_cases {state : DiagnosisState} (response : DiagnosisResult)
    (hsome : state.supportedCandidates ≠ []) (houtput : state.checkOutput.violations = []) :
    (sanitizeResponse response (state.evaluate state.candidateCauses)
        state.supportedCandidates).candidateCauses =
      (if ∀ c ∈ state.candidateCauses, c.Grounded state.evidence then response.candidateCauses
        else state.supportedCandidates) ∧
    (sanitizeResponse response (state.evaluate state.candidateCauses)
        state.supportedCandidates).recommendedActions = response.recommendedActions ∧
    (sanitizeResponse response (state.evaluate state.candidateCauses)
        state.supportedCandidates).safetyNotes = response.safetyNotes := by
  by_cases hall : ∀ c ∈ state.candidateCauses, c.Grounded state.evidence
  · have hnone := evaluate_violations_eq_nil.mpr ⟨hall, houtput⟩
    have hclean : ∀ v ∈ unsafeGenerationViolations,
        v ∉ (state.evaluate state.candidateCauses).violations := by
      intro v _
      rw [hnone]
      exact List.not_mem_nil
    unfold sanitizeResponse
    rw [if_pos hclean, if_pos hall]
    exact ⟨rfl, rfl, rfl⟩
  · have hdirty : ¬ ∀ v ∈ unsafeGenerationViolations,
        v ∉ (state.evaluate state.candidateCauses).violations := by
      intro hclean
      apply hall
      intro c hc
      rw [← causeViolation_eq_none]
      cases hviolation : causeViolation (state.evidence.map Evidence.evidenceId) c with
      | none => rfl
      | some v =>
          have hmem : v ∈ (checkGeneration state.candidateCauses state.evidence).violations := by
            show v ∈ sortedSet _
            rw [mem_sortedSet]
            exact List.mem_filterMap.mpr ⟨c, hc, hviolation⟩
          refine absurd ?_ (hclean v (mem_unsafe_of_causeViolation hviolation))
          show v ∈ sortedSet (_ ++ _)
          rw [mem_sortedSet]
          exact List.mem_append_left _ hmem
    unfold sanitizeResponse
    rw [if_neg hdirty, if_neg hall]
    exact ⟨rfl, if_pos hsome, rfl⟩

/-! ## The last nodes -/

section delivery

variable {deps : Dependencies} {env : Environment}

theorem eq_of_next_memoryWriter {n : WorkflowNode} {state : DiagnosisState}
    (h : n.next state = some .memoryWriter) : n = .ruleChecker ∧ state.errors = [] := by
  cases n with
  | ruleChecker =>
      refine ⟨rfl, ?_⟩
      by_contra herrors
      have hnext : WorkflowNode.next state .ruleChecker = some .clarificationGenerator :=
        congrArg some (if_pos herrors)
      rw [hnext] at h
      cases h
  | intentRouter | entityParser | planBuilder | gapDetector =>
      simp only [WorkflowNode.next] at h
      split at h <;> cases h
  | _ => cases h

theorem eq_of_next_ruleChecker {n : WorkflowNode} {state : DiagnosisState}
    (h : n.next state = some .ruleChecker) : n = .responseGenerator := by
  cases n with
  | responseGenerator => rfl
  | intentRouter | entityParser | planBuilder | gapDetector | ruleChecker =>
      simp only [WorkflowNode.next] at h
      split at h <;> cases h
  | _ => cases h

/-- `rule_checker` lets a run go on when the actions of the state pass, and some cause does. -/
theorem passed_of_ruleChecker {state state' : DiagnosisState} {toolData toolData' : ToolData}
    {written : Option DiagnosisResult}
    (h : WorkflowNode.ruleChecker.run deps env state toolData = .done state' toolData' written)
    (herrors : state'.errors = []) :
    ∃ response, state.finalResponse = some response ∧ state.supportedCandidates ≠ [] ∧
      state.checkOutput.violations = [] ∧
      state'.finalResponse = some (checkedResponse state response) ∧
      state'.evidence = state.evidence := by
  have hrun : Agent.ruleChecker state toolData = .done state' toolData' written := h
  unfold Agent.ruleChecker at hrun
  split at hrun
  · cases hrun
  · next response hresponse =>
      dsimp only at hrun
      have hpassed : (ruleDecision state).violations = [] := by
        by_contra hsome
        rw [if_pos (ruleDecision_blocks.mpr hsome)] at hrun
        cases hrun
        have happend : state.errors ++ (ruleDecision state).violations = [] := herrors
        exact hsome (List.append_eq_nil_iff.mp happend).2
      rw [if_neg (fun hblocked => ruleDecision_blocks.mp hblocked hpassed)] at hrun
      cases hrun
      obtain ⟨hsupported, houtput⟩ := ruleDecision_violations_eq_nil hpassed
      exact ⟨response, hresponse, hsupported, houtput, rfl, rfl⟩

/-- What `response_generator` leaves: the draft, or what the model made of it. -/
theorem drafted_of_responseGenerator {state state' : DiagnosisState} {toolData toolData' : ToolData}
    {written : Option DiagnosisResult}
    (h : WorkflowNode.responseGenerator.run deps env state toolData =
      .done state' toolData' written) :
    ∃ template, state'.finalResponse = some (env.response.getD (draftResult deps state template)) ∧
      state'.recommendedActions = draftActions deps state template ∧
      state'.candidateCauses = state.candidateCauses := by
  have hrun : Agent.responseGenerator deps env state toolData = .done state' toolData' written := h
  unfold Agent.responseGenerator at hrun
  split at hrun
  · cases hrun
  · next template _ =>
      cases hrun
      exact ⟨template, rfl, rfl, rfl⟩

/-- What the model made of the result rests on the evidence, as far as it is kept: its causes are
not if a cause of the state is removed. -/
def ReplyRests (env : Environment) (state : DiagnosisState) : Prop :=
  ∀ reply ∈ env.response,
    (∀ action ∈ reply.recommendedActions, action.Guarded state.evidence reply.safetyNotes) ∧
    ((∃ c ∈ state.candidateCauses, ¬ c.Grounded state.evidence) ∨
      ∀ c ∈ reply.candidateCauses, c.Grounded state.evidence)

/-- **When the persisted result rests on the evidence.** -/
theorem delivers_iff_replyRests {initial : DiagnosisState} {w : Visit}
    (hw : w ∈ (walkFrom deps env initial).1) (hnode : w.node = .memoryWriter) :
    ∃ v ∈ (walkFrom deps env initial).1, v.node = .ruleChecker ∧
      ((∃ result, w.state.finalResponse = some result ∧ result.Delivers w.state.evidence) ↔
        ReplyRests env v.state) := by
  -- the nodes that the run has come through
  rcases visited_from hw with hfirst | ⟨v, hv, written, hrun, hnext⟩
  · rw [hfirst] at hnode
    cases hnode
  rw [hnode] at hnext
  obtain ⟨hchecker, herrors⟩ := eq_of_next_memoryWriter hnext
  rcases visited_from hv with hfirst | ⟨u, -, written', hrun', hnext'⟩
  · rw [hfirst] at hchecker
    cases hchecker
  rw [hchecker] at hrun hnext'
  rw [eq_of_next_ruleChecker hnext'] at hrun'
  obtain ⟨response, hresponse, hsome, houtput, hfinal, hevidence⟩ :=
    passed_of_ruleChecker hrun herrors
  obtain ⟨template, hdraft, hactions, hcauses⟩ := drafted_of_responseGenerator hrun'
  obtain ⟨hkept, hkeptActions, hkeptNotes⟩ := sanitizeResponse_cases response hsome houtput
  refine ⟨v, hv, hchecker, ?_⟩
  have hdelivers : (∃ result, w.state.finalResponse = some result ∧
      result.Delivers w.state.evidence) ↔
      (checkedResponse v.state response).Delivers v.state.evidence := by
    rw [hfinal, hevidence]
    simp
  have hchecked : (checkedResponse v.state response).Delivers v.state.evidence ↔
      (∀ action ∈ response.recommendedActions,
        action.Guarded v.state.evidence response.safetyNotes) ∧
      ((∃ c ∈ v.state.candidateCauses, ¬ c.Grounded v.state.evidence) ∨
        ∀ c ∈ response.candidateCauses, c.Grounded v.state.evidence) := by
    have hsame : ∀ decision, { sanitizeResponse response
        (v.state.evaluate v.state.candidateCauses) v.state.supportedCandidates with
        guardrailDecision := decision }.Delivers v.state.evidence ↔
        (sanitizeResponse response (v.state.evaluate v.state.candidateCauses)
          v.state.supportedCandidates).Delivers v.state.evidence := fun _ => Iff.rfl
    unfold checkedResponse
    rw [hsame]
    unfold DiagnosisResult.Delivers
    rw [hkept, hkeptActions, hkeptNotes]
    by_cases hall : ∀ c ∈ v.state.candidateCauses, c.Grounded v.state.evidence
    · have hnone : ¬ ∃ c ∈ v.state.candidateCauses, ¬ c.Grounded v.state.evidence := by
        rintro ⟨c, hc, hnot⟩
        exact hnot (hall c hc)
      rw [if_pos hall]
      tauto
    · have hremoved : ∃ c ∈ v.state.candidateCauses, ¬ c.Grounded v.state.evidence := by
        push Not at hall
        exact hall
      have hsupported : ∀ c ∈ v.state.supportedCandidates, c.Grounded v.state.evidence :=
        fun c hc => (mem_supportedCandidates.mp hc).2
      rw [if_neg hall]
      constructor
      · rintro ⟨-, hsafe⟩
        exact ⟨hsafe, Or.inl hremoved⟩
      · rintro ⟨hsafe, -⟩
        exact ⟨hsupported, hsafe⟩
  rw [hdelivers, hchecked]
  have hsame : env.response.getD (draftResult deps u.state template) = response := by
    rw [hdraft] at hresponse
    exact Option.some.inj hresponse
  unfold ReplyRests
  cases hreply : env.response with
  | some reply =>
      rw [hreply] at hsame
      cases hsame
      simp
  | none =>
      -- the draft has the actions of the state and its causes
      rw [hreply] at hsame
      have hsafe := guarded_of_checkOutput houtput
      simp only [Option.mem_def, reduceCtorEq, false_imp_iff, implies_true, iff_true]
      constructor
      · rw [hactions, hresponse] at hsafe
        rw [← hsame] at hsafe ⊢
        exact hsafe
      · by_cases hall : ∀ c ∈ v.state.candidateCauses, c.Grounded v.state.evidence
        · right
          rw [hcauses] at hall
          rw [← hsame]
          exact hall
        · left
          push Not at hall
          exact hall

end delivery

/-! ## Two runs -/

/-- The last visit of the run about the fan. -/
theorem fan_run_writes :
    (walkFrom sampleDeps answeringEnvironment fanInitial).1.getLast?.any
      (fun v => v.node = .memoryWriter) := by
  decide +kernel

/-- What the run about the fan persists rests on the evidence. -/
theorem fan_run_delivers :
    ∃ w ∈ (walkFrom sampleDeps answeringEnvironment fanInitial).1, w.node = .memoryWriter ∧
      ∃ result, w.state.finalResponse = some result ∧ result.Delivers w.state.evidence := by
  obtain ⟨w, hlast, hnode⟩ := (Option.any_eq_true _ _).mp fan_run_writes
  have hw := List.mem_of_getLast? hlast
  have hwriter : w.node = .memoryWriter := by simpa using hnode
  obtain ⟨v, -, -, hdelivers⟩ := delivers_iff_replyRests hw hwriter
  refine ⟨w, hw, hwriter, hdelivers.mpr ?_⟩
  intro reply hreply
  cases hreply

/-- A reply with a cause that nothing speaks for, and an action that nobody has to confirm. -/
def rewrittenResult : DiagnosisResult where
  summary := "风扇异常"
  candidateCauses := [⟨"绕组短路", 1, [], [], [], false⟩]
  evidence := []
  inspectionSteps := []
  safetyNotes := []
  missingInformation := []
  recommendTicket := false
  riskLevel := .low
  warnings := []
  degradedComponents := []
  recommendedActions := [⟨"action-1", "立即断电", .critical, false, none, []⟩]
  guardrailDecision := none

/-- The same run with this reply. -/
def rewritingEnvironment : Environment :=
  { answeringEnvironment with response := some rewrittenResult }

/-- The reply is persisted. -/
theorem rewritten_result_persisted :
    ¬ ∀ (env : Environment) (initial : DiagnosisState),
      ∀ w ∈ (walkFrom sampleDeps env initial).1, w.node = .memoryWriter →
        ∃ result, w.state.finalResponse = some result ∧ result.Delivers w.state.evidence := by
  intro hall
  have hwrites : (walkFrom sampleDeps rewritingEnvironment fanInitial).1.getLast?.any
      (fun v => v.node = .memoryWriter ∧ ¬ v.state.finalResponse.any
        fun result => result.Delivers v.state.evidence) := by
    decide +kernel
  obtain ⟨w, hlast, hnode⟩ := (Option.any_eq_true _ _).mp hwrites
  obtain ⟨hwriter, hnot⟩ := of_decide_eq_true hnode
  obtain ⟨result, hresult, hdelivers⟩ :=
    hall rewritingEnvironment fanInitial w (List.mem_of_getLast? hlast) hwriter
  rw [hresult] at hnot
  simp [hdelivers] at hnot

end EnergyAgent.Agent
