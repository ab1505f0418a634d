import EnergyAgent.Agent.Delivery

/-!
# Blocked actions in the result

`check_output` looks at the actions of the state and lists the unsafe ones as blocked. What is
persisted and returned are the actions of the response, also when the decision is what stopped the
run: `clarification_generator` hands the response out as `memory_writer` does, and
`sanitize_response` empties the list of actions only when no cause is left.
-/

namespace EnergyAgent.Agent

open EnergyAgent.Lib

/-- No action of the result is one that the result's own decision blocks. -/
def DiagnosisResult.Withholds (result : DiagnosisResult) : Prop :=
  ∀ decision ∈ result.guardrailDecision, ∀ action ∈ result.recommendedActions,
    action.actionId ∉ decision.blockedActions

instance (result : DiagnosisResult) : Decidable result.Withholds :=
  inferInstanceAs (Decidable (∀ decision ∈ result.guardrailDecision,
    ∀ action ∈ result.recommendedActions, action.actionId ∉ decision.blockedActions))

/-- When `rule_checker` withholds what it blocks, on the state that it finds: every cause has to be
removed, or the response has no action under the id of an unsafe action of the state. -/
def ActionsWithheld (state : DiagnosisState) : Prop :=
  (state.candidateCauses ≠ [] ∧ ∀ c ∈ state.candidateCauses, ¬ c.Grounded state.evidence) ∨
    ∀ response ∈ state.finalResponse, ∀ action ∈ response.recommendedActions,
      ∀ blocked ∈ state.recommendedActions,
        unsafeAction state.evidence response.safetyNotes blocked = true →
          blocked.actionId ≠ action.actionId

instance (state : DiagnosisState) : Decidable (ActionsWithheld state) :=
  inferInstanceAs (Decidable ((_ ∧ ∀ c ∈ state.candidateCauses, ¬ c.Grounded state.evidence) ∨
    ∀ response ∈ state.finalResponse, ∀ action ∈ response.recommendedActions,
      ∀ blocked ∈ state.recommendedActions,
        unsafeAction state.evidence response.safetyNotes blocked = true →
          blocked.actionId ≠ action.actionId))

/-! ## What `rule_checker` leaves of the actions -/

/-- `check_output` never reports a violation of the causes. -/
theorem not_mem_checkOutput {summary : String} {actions : List RecommendedAction}
    {evidence : List Evidence} {safetyNotes : List String} {v : String}
    (hv : v ∈ unsafeGenerationViolations) :
    v ∉ (checkOutput summary actions evidence safetyNotes).violations := by
  intro hmem
  have hcases : v = "HIGH_RISK_ACTION_UNSAFE" ∨ v = "EMPTY_SUMMARY" := by
    have hlist : v ∈ sortedSet (((actions.filter (unsafeAction evidence safetyNotes)).map
        (fun _ => "HIGH_RISK_ACTION_UNSAFE")) ++ report (Text.isBlank summary) "EMPTY_SUMMARY") :=
      hmem
    rw [mem_sortedSet, List.mem_append] at hlist
    rcases hlist with hlist | hlist
    · obtain ⟨_, -, rfl⟩ := List.mem_map.mp hlist
      exact Or.inl rfl
    · unfold report at hlist
      split at hlist
      · exact Or.inr (List.mem_singleton.mp hlist)
      · cases hlist
  rcases hcases with rfl | rfl <;> revert hv <;> decide

/-- `sanitize_response` has something to do exactly when some cause is ungrounded. -/
theorem unreported_iff {state : DiagnosisState} {causes : List CandidateCause} :
    (∀ v ∈ unsafeGenerationViolations, v ∉ (state.evaluate causes).violations) ↔
      ∀ c ∈ causes, c.Grounded state.evidence := by
  have hmem : ∀ v, v ∈ (state.evaluate causes).violations ↔
      v ∈ (checkGeneration causes state.evidence).violations ∨
        v ∈ state.checkOutput.violations := by
    intro v
    show v ∈ sortedSet (_ ++ _) ↔ _
    rw [mem_sortedSet, List.mem_append]
  constructor
  · intro hclean c hc
    rw [← causeViolation_eq_none]
    cases hviolation : causeViolation (state.evidence.map Evidence.evidenceId) c with
    | none => rfl
    | some v =>
        refine absurd ((hmem v).mpr (Or.inl ?_)) (hclean v (mem_unsafe_of_causeViolation hviolation))
        show v ∈ sortedSet _
        rw [mem_sortedSet]
        exact List.mem_filterMap.mpr ⟨c, hc, hviolation⟩
  · intro hall v hv hreported
    rcases (hmem v).mp hreported with hreported | hreported
    · rw [checkGeneration_violations_eq_nil.mpr hall] at hreported
      cases hreported
    · exact not_mem_checkOutput hv hreported

theorem supportedCandidates_eq_nil {state : DiagnosisState} :
    state.supportedCandidates = [] ↔
      ∀ c ∈ state.candidateCauses, ¬ c.Grounded state.evidence := by
  rw [List.eq_nil_iff_forall_not_mem]
  simp only [mem_supportedCandidates, not_and]

/-- The actions are dropped only together with every cause. -/
theorem sanitizeResponse_recommendedActions (state : DiagnosisState) (response : DiagnosisResult) :
    (sanitizeResponse response (state.evaluate state.candidateCauses)
      state.supportedCandidates).recommendedActions =
    if state.candidateCauses ≠ [] ∧ ∀ c ∈ state.candidateCauses, ¬ c.Grounded state.evidence then []
    else response.recommendedActions := by
  unfold sanitizeResponse
  simp only [unreported_iff, ← supportedCandidates_eq_nil]
  by_cases hall : ∀ c ∈ state.candidateCauses, c.Grounded state.evidence
  · have hkept : ¬ (state.candidateCauses ≠ [] ∧ state.supportedCandidates = []) := by
      rintro ⟨hsome, hnone⟩
      rw [supportedCandidates_eq_self.mpr hall] at hnone
      exact hsome hnone
    rw [if_pos hall, if_neg hkept]
  · have hsome : state.candidateCauses ≠ [] := by
      rintro hnone
      rw [hnone] at hall
      exact hall (by simp)
    rw [if_neg hall]
    by_cases hnone : state.supportedCandidates = []
    · have hboth : state.candidateCauses ≠ [] ∧ state.supportedCandidates = [] := ⟨hsome, hnone⟩
      rw [if_pos hboth]
      exact if_neg (not_not_intro hnone)
    · have hnot : ¬ (state.candidateCauses ≠ [] ∧ state.supportedCandidates = []) :=
        fun h => hnone h.2
      rw [if_neg hnot]
      exact if_pos hnone

/-- What the decision of `rule_checker` blocks are the unsafe actions of the state. -/
theorem ruleDecision_blockedActions {state : DiagnosisState} {response : DiagnosisResult}
    (h : state.finalResponse = some response) :
    (ruleDecision state).blockedActions = (state.recommendedActions.filter
      (unsafeAction state.evidence response.safetyNotes)).map RecommendedAction.actionId := by
  have houtput : state.checkOutput.blockedActions = (state.recommendedActions.filter
      (unsafeAction state.evidence response.safetyNotes)).map RecommendedAction.actionId := by
    unfold DiagnosisState.checkOutput
    rw [h]
    rfl
  rw [← houtput]
  unfold ruleDecision
  dsimp only
  split <;> rfl

/-- **One result.** What `rule_checker` makes of a response withholds what it blocks exactly under
`ActionsWithheld`. -/
theorem withholds_checkedResponse {state : DiagnosisState} {response : DiagnosisResult}
    (h : state.finalResponse = some response) :
    (checkedResponse state response).Withholds ↔ ActionsWithheld state := by
  have hactions : (checkedResponse state response).recommendedActions =
      (sanitizeResponse response (state.evaluate state.candidateCauses)
        state.supportedCandidates).recommendedActions := rfl
  have hdecision : (checkedResponse state response).guardrailDecision = some (ruleDecision state) :=
    rfl
  unfold DiagnosisResult.Withholds ActionsWithheld
  rw [hactions, hdecision, sanitizeResponse_recommendedActions, h]
  simp only [Option.mem_def, Option.some.injEq, forall_eq']
  rw [ruleDecision_blockedActions h]
  by_cases hremoved : state.candidateCauses ≠ [] ∧
      ∀ c ∈ state.candidateCauses, ¬ c.Grounded state.evidence
  · rw [if_pos hremoved]
    exact iff_of_true (by simp) (Or.inl hremoved)
  · rw [if_neg hremoved, or_iff_right hremoved]
    simp only [List.mem_map, List.mem_filter, not_exists, not_and, and_imp]

/-! ## What a run hands out -/

/-- The result is persisted by a node of the run, or is in the state that the run returns. -/
def HandedOut (deps : Dependencies) (env : Environment)
    (run : List Visit × Except ExecutionError DiagnosisState) (result : DiagnosisResult) : Prop :=
  (∃ v ∈ run.1, ∃ state toolData,
    v.node.run deps env v.state v.toolData = .done state toolData (some result)) ∨
  ∃ final, run.2 = .ok final ∧ final.finalResponse = some result

section handedOut

variable {deps : Dependencies} {env : Environment} {state state' : DiagnosisState}
  {toolData toolData' : ToolData} {written : Option DiagnosisResult}

/-- Two nodes write the response. -/
def WorkflowNode.responds : WorkflowNode → Bool
  | .responseGenerator | .ruleChecker => true
  | _ => false

/-- Two nodes hand it out, and they end the run. -/
def WorkflowNode.handsOut : WorkflowNode → Bool
  | .clarificationGenerator | .memoryWriter => true
  | _ => false

/-- The other nodes leave the response as it is, and only the last node persists it. -/
theorem run_finalResponse {n : WorkflowNode}
    (h : n.run deps env state toolData = .done state' toolData' written) :
    (n.responds = false → state'.finalResponse = state.finalResponse) ∧
      (n.handsOut = false → written = none) ∧
      (n.handsOut = true → written = state.finalResponse) := by
  cases n with
  | intentRouter | gapDetector | memoryWriter =>
      cases h
      exact ⟨fun _ => rfl, by simp [WorkflowNode.handsOut], by simp [WorkflowNode.handsOut]⟩
  | planBuilder =>
      simp only [WorkflowNode.run, Agent.planBuilder, planFor] at h
      repeat' split at h
      all_goals cases h
      all_goals exact ⟨fun _ => rfl, fun _ => rfl, by simp [WorkflowNode.handsOut]⟩
  | clarificationGenerator =>
      simp only [WorkflowNode.run, Agent.clarificationGenerator] at h
      split at h
      all_goals cases h
      exact ⟨fun _ => rfl, by simp [WorkflowNode.handsOut], fun _ => rfl⟩
  | responseGenerator =>
      simp only [WorkflowNode.run, Agent.responseGenerator] at h
      split at h
      all_goals cases h
      exact ⟨by simp [WorkflowNode.responds], fun _ => rfl, by simp [WorkflowNode.handsOut]⟩
  | ruleChecker =>
      simp only [WorkflowNode.run, Agent.ruleChecker] at h
      repeat' split at h
      all_goals cases h
      all_goals exact ⟨by simp [WorkflowNode.responds], fun _ => rfl,
        by simp [WorkflowNode.handsOut]⟩
  | _ =>
      simp only [WorkflowNode.run, Agent.entityParser, Agent.clarificationApplier,
        Agent.toolDispatcher, Agent.timeseriesFetcher, Agent.ticketFetcher, Agent.docRetriever,
        Agent.graphFetcher, Agent.evidenceAggregator, Agent.reasonGenerator] at h
      repeat' split at h
      all_goals cases h
      all_goals exact ⟨fun _ => rfl, fun _ => rfl, by simp [WorkflowNode.handsOut]⟩

theorem next_of_handsOut {n : WorkflowNode} (h : n.handsOut = true) (state : DiagnosisState) :
    n.next state = none := by
  cases n <;> first | rfl | cases h

theorem handsOut_of_next {n : WorkflowNode} (h : n.next state = none) : n.handsOut = true := by
  cases n <;> first | rfl | cases h

theorem ruleChecker_next_handsOut {m : WorkflowNode}
    (h : WorkflowNode.ruleChecker.next state = some m) : m.handsOut = true := by
  have hnext : WorkflowNode.ruleChecker.next state =
      some (if state.errors ≠ [] then .clarificationGenerator else .memoryWriter) := rfl
  rw [hnext] at h
  split at h <;> cases h <;> rfl

/-- What `rule_checker` leaves in place of the response it finds. -/
theorem finalResponse_of_ruleChecker
    (h : WorkflowNode.ruleChecker.run deps env state toolData = .done state' toolData' written) :
    ∃ response, state.finalResponse = some response ∧
      state'.finalResponse = some (checkedResponse state response) ∧
      stateTemplate deps state' = stateTemplate deps state ∧
      state'.diagnosisTemplateId = state.diagnosisTemplateId := by
  have hrun : Agent.ruleChecker state toolData = .done state' toolData' written := h
  unfold Agent.ruleChecker at hrun
  split at hrun
  · cases hrun
  · next response hresponse =>
      dsimp only at hrun
      split at hrun
      all_goals cases hrun
      all_goals exact ⟨response, hresponse, rfl, rfl, rfl⟩

variable {initial : DiagnosisState}

/-- There is no response before `rule_checker`. -/
theorem finalResponse_visited (hinitial : initial.finalResponse = none) :
    ∀ v ∈ (walkFrom deps env initial).1, v.node ≠ .ruleChecker → v.node.handsOut = false →
      v.state.finalResponse = none := by
  refine walk_invariant (I := fun n state _ => n ≠ .ruleChecker → n.handsOut = false →
    state.finalResponse = none) ?_ (fun _ _ => hinitial)
  intro n state toolData state' toolData' written m h hrun _ hnext hm hmid
  have hn : n ≠ .ruleChecker := by
    rintro rfl
    rw [ruleChecker_next_handsOut hnext] at hmid
    cases hmid
  have hresponds : n.responds = false := by
    cases n with
    | responseGenerator =>
        cases hnext
        exact absurd rfl hm
    | ruleChecker => exact absurd rfl hn
    | _ => rfl
  have hbefore : n.handsOut = false := by
    by_contra hout
    rw [next_of_handsOut (by simpa using hout)] at hnext
    cases hnext
  rw [(run_finalResponse hrun).1 hresponds]
  exact h hn hbefore

/-- The last node finds no response, or what `rule_checker` made of one. -/
theorem finalResponse_at_end (hinitial : initial.finalResponse = none) {w : Visit}
    (hw : w ∈ (walkFrom deps env initial).1) (hout : w.node.handsOut = true)
    {result : DiagnosisResult} (hresult : w.state.finalResponse = some result) :
    ∃ v ∈ (walkFrom deps env initial).1, v.node = .ruleChecker ∧
      ∃ response, v.state.finalResponse = some response ∧
        result = checkedResponse v.state response := by
  rcases visited_from hw with rfl | ⟨v, hv, written, hrun, hnext⟩
  · cases hout
  · by_cases hchecker : v.node = .ruleChecker
    · rw [hchecker] at hrun
      obtain ⟨response, hresponse, hleft, -⟩ := finalResponse_of_ruleChecker hrun
      rw [hresult] at hleft
      exact ⟨v, hv, hchecker, response, hresponse, Option.some.inj hleft⟩
    · -- any other node leaves the response that is not there
      have hresponds : v.node.responds = false := by
        cases hnode : v.node with
        | responseGenerator =>
            rw [hnode] at hnext
            rw [← Option.some.inj hnext] at hout
            cases hout
        | ruleChecker => exact absurd hnode hchecker
        | _ => rfl
      have hbefore : v.node.handsOut = false := by
        by_contra hout'
        rw [next_of_handsOut (by simpa using hout')] at hnext
        cases hnext
      rw [(run_finalResponse hrun).1 hresponds,
        finalResponse_visited hinitial v hv hchecker hbefore] at hresult
      cases hresult

/-- A run that returns ends with a node that has no next one. -/
theorem walk_eq_ok {limit : Nat} {n : WorkflowNode} {final : DiagnosisState}
    (h : (walk deps env limit n state toolData).2 = .ok final) :
    ∃ v ∈ (walk deps env limit n state toolData).1, ∃ toolData' written,
      v.node.run deps env v.state v.toolData = .done final toolData' written ∧
        v.node.next final = none := by
  induction limit generalizing n state toolData with
  | zero => cases h
  | succ limit ih =>
      cases hrun : n.run deps env state toolData with
      | failed =>
          rw [walk_failed hrun] at h
          cases h
      | done state' toolData' written =>
          by_cases hvalid : state'.Valid
          · cases hnext : n.next state' with
            | none =>
                rw [walk_last hrun hvalid hnext] at h ⊢
                cases h
                exact ⟨_, List.mem_singleton.mpr rfl, toolData', written, hrun, hnext⟩
            | some m =>
                rw [walk_next hrun hvalid hnext] at h ⊢
                obtain ⟨v, hv, hlast⟩ := ih h
                exact ⟨v, List.mem_cons_of_mem _ hv, hlast⟩
          · rw [walk_invalid hrun hvalid] at h
            cases h

/-- What `rule_checker` makes of a response is handed out by the node behind it. -/
theorem handedOut_checkedResponse {payload : ChatRequest} {session : SessionRow}
    {memory : Option SessionMemory} {runId traceId : String}
    (h : initialState payload session memory runId traceId = .ok initial) {v : Visit}
    (hv : v ∈ (walkFrom deps env initial).1) (hnode : v.node = .ruleChecker) :
    ∃ response, v.state.finalResponse = some response ∧
      HandedOut deps env (walkFrom deps env initial) (checkedResponse v.state response) := by
  -- the template is registered, since `response_generator` has used it
  obtain ⟨template, htemplate⟩ : ∃ template, stateTemplate deps v.state = some template := by
    rcases visited_from hv with rfl | ⟨u, -, _, hrun, hnext⟩
    · cases hnode
    · rw [hnode] at hnext
      rw [eq_of_next_ruleChecker hnext] at hrun
      have hdraft : Agent.responseGenerator deps env u.state u.toolData = .done v.state v.toolData _ :=
        hrun
      unfold Agent.responseGenerator at hdraft
      split at hdraft
      · cases hdraft
      · next template htemplate =>
          injection hdraft with hstate
          rw [← hstate]
          exact ⟨template, htemplate⟩
  obtain ⟨before, rest, hrest, -, hsplit⟩ := walk_split (by decide) hv
  have hready := ready_visited (ready_initialState h) v hv
  rw [hnode] at hrest hsplit hready
  obtain ⟨state', toolData', written, hrun, hvalid, -⟩ :=
    @leads_ruleChecker deps env v.state v.toolData hready
  obtain ⟨response, hresponse, hleft, hsame, -⟩ := finalResponse_of_ruleChecker hrun
  refine ⟨response, hresponse, Or.inl ?_⟩
  obtain ⟨limit, rfl⟩ : ∃ limit, rest = limit + 2 := ⟨rest - 2, by
    have : WorkflowNode.ruleChecker.rank = 2 := rfl
    omega⟩
  have hnext : WorkflowNode.ruleChecker.next state' = some
      (if state'.errors ≠ [] then WorkflowNode.clarificationGenerator else .memoryWriter) := rfl
  have hvisited : ∀ m, WorkflowNode.ruleChecker.next state' = some m →
      ⟨m, state', toolData'⟩ ∈ (walkFrom deps env initial).1 := by
    intro m hm
    have hwhole : walkFrom deps env initial = _ := hsplit
    rw [hwhole, walk_next hrun hvalid hm]
    exact List.mem_append_right _ (List.mem_cons_of_mem _ (mem_walk_self limit m state' toolData'))
  refine ⟨_, hvisited _ hnext, ?_⟩
  by_cases herrors : state'.errors = []
  · rw [if_neg (not_not_intro herrors), ← hleft]
    exact ⟨_, _, rfl⟩
  · rw [if_pos herrors, ← hleft]
    have hregistered : ¬ ((Text.truthy state'.diagnosisTemplateId).isSome ∧
        (stateTemplate deps state').isNone) := by
      rintro ⟨-, hnone⟩
      rw [hsame, htemplate] at hnone
      cases hnone
    exact ⟨_, _, if_neg hregistered⟩

end handedOut

/-! ## Two runs -/

/-- Templates whose inspection needs the device switched off. -/
def isolatingDeps : Dependencies :=
  { sampleDeps with
    patterns := { samplePatterns with highRiskAction := fun text => text = "断电后检查叶轮" }
    templates := ⟨[{ sampleTemplate with inspectionSteps := ["断电后检查叶轮"] }], by simp⟩ }

end EnergyAgent.Agent
