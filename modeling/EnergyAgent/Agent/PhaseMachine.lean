import EnergyAgent.Agent.Delivery

/-!
# The declared phases and those of the workflow

`_ALLOWED_TRANSITIONS` plans first and then fetches data, and `transition_state` enforces it. The nodes
set the phase themselves, and `build_diagnosis_graph` fetches the profile and the alarm before it plans:
no run that gets anywhere follows the table. `workflowTransitions` is the table that all runs follow.
-/

namespace EnergyAgent.Agent

open EnergyAgent.Lib

/-! ## The declared machine -/

/-- `_ALLOWED_TRANSITIONS`. -/
def allowedTransitions : DiagnosisPhase → List DiagnosisPhase
  | .init => [.planReady, .failed]
  | .planReady => [.dataFetching, .needUserInput, .failed]
  | .dataFetching => [.evidenceReady, .needUserInput, .failed]
  | .evidenceReady => [.needUserInput, .draftReady, .failed]
  | .needUserInput => [.planReady, .dataFetching, .evidenceReady, .failed]
  | .draftReady => [.reviewing, .failed]
  | .reviewing => [.draftReady, .completed, .failed]
  | .completed => []
  | .failed => []

inductive TransitionError
  | invalidStateTransition | validationError
  deriving DecidableEq, Repr

/-- `transition_state`. -/
def transitionState (state : DiagnosisState) (target : DiagnosisPhase)
    (updates : DiagnosisState → DiagnosisState) : Except TransitionError DiagnosisState :=
  if target ∉ allowedTransitions state.phase then .error .invalidStateTransition
  else
    let candidate := { updates state with phase := target }
    if candidate.Valid then .ok candidate else .error .validationError

/-- The phase is kept, or changed to one that the table has for it. -/
def ChangesBy (table : DiagnosisPhase → List DiagnosisPhase) (phase phase' : DiagnosisPhase) : Prop :=
  phase' = phase ∨ phase' ∈ table phase

instance (table : DiagnosisPhase → List DiagnosisPhase) (phase phase' : DiagnosisPhase) :
    Decidable (ChangesBy table phase phase') := inferInstanceAs (Decidable (_ ∨ _))

/-- Every node that is visited changes the phase by the table. -/
def Obey (table : DiagnosisPhase → List DiagnosisPhase) (deps : Dependencies) (env : Environment)
    (visits : List Visit) : Prop :=
  ∀ v ∈ visits, ∀ state' toolData' written,
    v.node.run deps env v.state v.toolData = .done state' toolData' written →
      ChangesBy table v.state.phase state'.phase

/-- The run changes the phase by the table. -/
def FollowsTable (table : DiagnosisPhase → List DiagnosisPhase) (deps : Dependencies) (env : Environment)
    (initial : DiagnosisState) : Prop :=
  Obey table deps env (walkFrom deps env initial).1

/-- Whatever changes the phase by the declared table, `transition_state` would have done as well. -/
theorem transitionState_of_changesBy {state state' : DiagnosisState} (hvalid : state'.Valid)
    (h : ChangesBy allowedTransitions state.phase state'.phase) (hne : state'.phase ≠ state.phase) :
    transitionState state state'.phase (fun _ => state') = .ok state' := by
  have hallowed : state'.phase ∈ allowedTransitions state.phase := h.resolve_left hne
  unfold transitionState
  rw [if_neg (not_not_intro hallowed)]
  exact if_pos hvalid

/-! ## The machine of the workflow -/

/-- The changes that the nodes make. -/
def workflowTransitions : DiagnosisPhase → List DiagnosisPhase
  | .init => [.dataFetching, .evidenceReady, .needUserInput]
  | .dataFetching => [.planReady, .needUserInput]
  | .planReady => [.evidenceReady]
  | .evidenceReady => [.draftReady, .needUserInput]
  | .needUserInput => [.draftReady]
  | .draftReady => [.reviewing, .needUserInput]
  | .reviewing => [.completed]
  | .completed | .failed => []

/-- The phase in which a node finds the state. -/
def PhaseAt (state : DiagnosisState) : WorkflowNode → Prop
  | .intentRouter | .entityParser | .clarificationApplier | .toolDispatcher =>
      state.phase = .init ∧ state.errors = []
  | .planBuilder => state.phase = .dataFetching ∧ state.errors = []
  | .timeseriesFetcher | .ticketFetcher | .docRetriever | .graphFetcher | .evidenceAggregator =>
      state.phase = .planReady
  | .gapDetector => state.phase = .evidenceReady ∨ state.phase = .needUserInput
  | .reasonGenerator =>
      (state.phase = .evidenceReady ∨ state.phase = .needUserInput) ∧ state.errors = []
  | .responseGenerator | .ruleChecker => state.phase = .draftReady ∧ state.errors = []
  | .memoryWriter => state.phase = .reviewing
  | .clarificationGenerator =>
      state.phase ∈ [.dataFetching, .evidenceReady, .needUserInput, .draftReady]

section workflow

variable {deps : Dependencies} {env : Environment} {state state' : DiagnosisState}
  {toolData toolData' : ToolData} {written : Option DiagnosisResult}

/-- What a node does with the phase. -/
def StepsAlong (n : WorkflowNode) (state state' : DiagnosisState) : Prop :=
  ChangesBy workflowTransitions state.phase state'.phase ∧ ∀ m ∈ n.next state', PhaseAt state' m

/-- A node that leaves the phase alone and has one successor. -/
theorem stepsAlong_of_same {n m : WorkflowNode} (hphase : state'.phase = state.phase)
    (hnext : n.next state' = some m) (h : PhaseAt state' m) : StepsAlong n state state' := by
  refine ⟨Or.inl hphase, fun m' hm' => ?_⟩
  rw [hnext] at hm'
  cases hm'
  exact h

/-- A node that changes the phase by the table and has one successor. -/
theorem stepsAlong_of_moves {n m : WorkflowNode} (phase phase' : DiagnosisPhase)
    (hphase : state.phase = phase) (hphase' : state'.phase = phase')
    (htable : phase' ∈ workflowTransitions phase) (hnext : n.next state' = some m)
    (h : PhaseAt state' m) : StepsAlong n state state' := by
  refine ⟨Or.inr ?_, fun m' hm' => ?_⟩
  · rw [hphase, hphase']
    exact htable
  · rw [hnext] at hm'
    cases hm'
    exact h

theorem stepsAlong_intentRouter (h : PhaseAt state .intentRouter)
    (hrun : intentRouter state toolData = .done state' toolData' written) :
    StepsAlong .intentRouter state state' := by
  cases hrun
  refine stepsAlong_of_same rfl rfl ?_
  show PhaseAt _ (if WorkflowNode.isFollowup state then .clarificationApplier else .entityParser)
  by_cases hfollowup : WorkflowNode.isFollowup state
  · rw [if_pos hfollowup]
    exact h
  · rw [if_neg hfollowup]
    exact h

theorem stepsAlong_entityParser (h : PhaseAt state .entityParser)
    (hrun : entityParser deps state toolData = .done state' toolData' written) :
    StepsAlong .entityParser state state' := by
  obtain ⟨hphase, herrors⟩ := h
  have hasks : ∀ {s : DiagnosisState}, s.phase = .needUserInput →
      StepsAlong .entityParser state s := by
    intro s hs
    refine stepsAlong_of_moves .init .needUserInput hphase hs (by decide) (m := .clarificationGenerator) ?_
      (by simp [PhaseAt, hs])
    simp [WorkflowNode.next, hs]
  unfold entityParser at hrun
  dsimp only at hrun
  split at hrun
  · cases hrun
    exact hasks rfl
  · split at hrun
    · cases hrun
      refine stepsAlong_of_same rfl (m := .toolDispatcher) ?_ ⟨hphase, herrors⟩
      simp [WorkflowNode.next, hphase]
    · cases hrun
      exact hasks rfl

theorem stepsAlong_clarificationApplier (h : PhaseAt state .clarificationApplier)
    (hrun : clarificationApplier deps state toolData = .done state' toolData' written) :
    StepsAlong .clarificationApplier state state' := by
  obtain ⟨hphase, -⟩ := h
  unfold clarificationApplier at hrun
  dsimp only at hrun
  split at hrun
  · cases hrun
    exact stepsAlong_of_moves .init .needUserInput hphase rfl (by decide) rfl (Or.inr rfl)
  · cases hrun
    exact stepsAlong_of_moves .init .evidenceReady hphase rfl (by decide) rfl (Or.inl rfl)

theorem stepsAlong_toolDispatcher (h : PhaseAt state .toolDispatcher)
    (hrun : toolDispatcher env state toolData = .done state' toolData' written) :
    StepsAlong .toolDispatcher state state' := by
  obtain ⟨hphase, herrors⟩ := h
  unfold toolDispatcher at hrun
  repeat' split at hrun
  all_goals cases hrun
  exact stepsAlong_of_moves .init .dataFetching hphase rfl (by decide) rfl ⟨rfl, herrors⟩

theorem stepsAlong_planBuilder (h : PhaseAt state .planBuilder)
    (hrun : planBuilder deps state toolData = .done state' toolData' written) :
    StepsAlong .planBuilder state state' := by
  obtain ⟨hphase, herrors⟩ := h
  have hnext : ∀ {s : DiagnosisState}, WorkflowNode.planBuilder.next s =
      some (if s.phase = .needUserInput ∨ s.errors ≠ [] then .clarificationGenerator
        else .timeseriesFetcher) := rfl
  unfold planBuilder at hrun
  split at hrun
  · cases hrun
  · split at hrun
    · cases hrun
      refine stepsAlong_of_moves .dataFetching .needUserInput hphase rfl (by decide)
        (m := .clarificationGenerator) ?_ (by simp [PhaseAt])
      rw [hnext, if_pos (Or.inl rfl)]
    · next template basis _ =>
        cases hrun
        rcases planFor_cases deps state template basis with ⟨hblocked, hplan⟩ | ⟨-, hplan⟩
        · -- a plan that is blocked has no phase of its own
          have hviolations : (planDecision deps template).violations ≠ [] :=
            checkPlan_blocked.mp hblocked
          rw [hplan]
          refine stepsAlong_of_same rfl (m := .clarificationGenerator) ?_ (by simp [PhaseAt, hphase])
          rw [hnext, if_pos (Or.inr hviolations)]
        · rw [hplan]
          refine stepsAlong_of_moves .dataFetching .planReady hphase rfl (by decide)
            (m := .timeseriesFetcher) ?_ rfl
          rw [hnext, if_neg (by simp [herrors])]

theorem stepsAlong_evidenceAggregator (h : PhaseAt state .evidenceAggregator)
    (hrun : evidenceAggregator state toolData = .done state' toolData' written) :
    StepsAlong .evidenceAggregator state state' := by
  have hphase : state.phase = .planReady := h
  unfold evidenceAggregator at hrun
  split at hrun
  · cases hrun
  · cases hrun
    exact stepsAlong_of_moves .planReady .evidenceReady hphase rfl (by decide) rfl (Or.inl rfl)

theorem stepsAlong_gapDetector (h : PhaseAt state .gapDetector)
    (hrun : gapDetector state toolData = .done state' toolData' written) :
    StepsAlong .gapDetector state state' := by
  cases hrun
  refine stepsAlong_of_same rfl rfl ?_
  show PhaseAt _ (if evidenceGaps state ≠ [] then .clarificationGenerator else .reasonGenerator)
  by_cases hgaps : evidenceGaps state = []
  · rw [if_neg (not_not_intro hgaps)]
    exact ⟨h, hgaps⟩
  · rw [if_pos hgaps]
    rcases h with hphase | hphase
    · simp [PhaseAt, hphase]
    · simp [PhaseAt, hphase]

theorem stepsAlong_clarificationGenerator (h : PhaseAt state .clarificationGenerator)
    (hrun : clarificationGenerator deps env state toolData = .done state' toolData' written) :
    StepsAlong .clarificationGenerator state state' := by
  unfold clarificationGenerator at hrun
  split at hrun
  · cases hrun
  · cases hrun
    refine ⟨?_, fun m hm => nomatch hm⟩
    simp only [PhaseAt, List.mem_cons, List.not_mem_nil, or_false] at h
    have hasked : ∀ phase, phase ∈ [DiagnosisPhase.dataFetching, .evidenceReady, .needUserInput,
        .draftReady] → ChangesBy workflowTransitions phase .needUserInput := by decide
    apply hasked
    simpa using h

theorem stepsAlong_reasonGenerator (h : PhaseAt state .reasonGenerator)
    (hrun : reasonGenerator deps env state toolData = .done state' toolData' written) :
    StepsAlong .reasonGenerator state state' := by
  obtain ⟨hphase, herrors⟩ := h
  unfold reasonGenerator at hrun
  split at hrun
  · cases hrun
  · cases hrun
    rcases hphase with hphase | hphase
    · exact stepsAlong_of_moves .evidenceReady .draftReady hphase rfl (by decide) rfl ⟨rfl, herrors⟩
    · exact stepsAlong_of_moves .needUserInput .draftReady hphase rfl (by decide) rfl ⟨rfl, herrors⟩

theorem stepsAlong_ruleChecker (h : PhaseAt state .ruleChecker)
    (hrun : ruleChecker state toolData = .done state' toolData' written) :
    StepsAlong .ruleChecker state state' := by
  obtain ⟨hphase, herrors⟩ := h
  have hnext : ∀ {s : DiagnosisState}, WorkflowNode.ruleChecker.next s =
      some (if s.errors ≠ [] then .clarificationGenerator else .memoryWriter) := rfl
  unfold ruleChecker at hrun
  split at hrun
  · cases hrun
  · dsimp only at hrun
    split at hrun
    · next hblocks =>
        cases hrun
        have hviolations : (ruleDecision state).violations ≠ [] := ruleDecision_blocks.mp hblocks
        refine stepsAlong_of_same rfl (m := .clarificationGenerator) ?_ (by simp [PhaseAt, hphase])
        rw [hnext, if_pos (by simp [hviolations])]
    · cases hrun
      refine stepsAlong_of_moves .draftReady .reviewing hphase rfl (by decide) (m := .memoryWriter) ?_ rfl
      rw [hnext, if_neg (not_not_intro herrors)]

/-- **One node.** -/
theorem stepsAlong_run {n : WorkflowNode} (h : PhaseAt state n)
    (hrun : n.run deps env state toolData = .done state' toolData' written) :
    StepsAlong n state state' := by
  cases n with
  | intentRouter => exact stepsAlong_intentRouter h hrun
  | entityParser => exact stepsAlong_entityParser h hrun
  | clarificationApplier => exact stepsAlong_clarificationApplier h hrun
  | planBuilder => exact stepsAlong_planBuilder h hrun
  | toolDispatcher => exact stepsAlong_toolDispatcher h hrun
  | evidenceAggregator => exact stepsAlong_evidenceAggregator h hrun
  | gapDetector => exact stepsAlong_gapDetector h hrun
  | clarificationGenerator => exact stepsAlong_clarificationGenerator h hrun
  | reasonGenerator => exact stepsAlong_reasonGenerator h hrun
  | ruleChecker => exact stepsAlong_ruleChecker h hrun
  | timeseriesFetcher =>
      simp only [WorkflowNode.run, timeseriesFetcher] at hrun
      split at hrun
      all_goals cases hrun
      exact stepsAlong_of_same rfl rfl h
  | ticketFetcher =>
      simp only [WorkflowNode.run, ticketFetcher] at hrun
      split at hrun
      all_goals cases hrun
      exact stepsAlong_of_same rfl rfl h
  | docRetriever =>
      simp only [WorkflowNode.run, docRetriever] at hrun
      split at hrun
      all_goals cases hrun
      exact stepsAlong_of_same rfl rfl h
  | graphFetcher =>
      simp only [WorkflowNode.run, graphFetcher] at hrun
      split at hrun
      all_goals cases hrun
      exact stepsAlong_of_same rfl rfl h
  | responseGenerator =>
      simp only [WorkflowNode.run, responseGenerator] at hrun
      split at hrun
      all_goals cases hrun
      exact stepsAlong_of_same rfl rfl h
  | memoryWriter =>
      cases hrun
      have hphase : state.phase = .reviewing := h
      refine ⟨Or.inr ?_, fun m hm => ?_⟩
      · rw [hphase]
        exact List.mem_singleton_self _
      · cases hm

/-- **The workflow follows its own table**, from every state that `diagnose` builds. -/
theorem follows_workflowTransitions {initial : DiagnosisState} (hphase : initial.phase = .init)
    (herrors : initial.errors = []) : FollowsTable workflowTransitions deps env initial := by
  intro v hv state' toolData' written hrun
  have hstart : PhaseAt initial .intentRouter := ⟨hphase, herrors⟩
  have hat : PhaseAt v.state v.node := by
    refine walk_invariant (I := fun n s _ => PhaseAt s n) ?_ hstart v hv
    intro n s toolData s' toolData' written m h hrun _ hnext
    exact (stepsAlong_run h hrun).2 m hnext
  exact (stepsAlong_run hat hrun).1

/-! ## Where the two machines part -/

variable {table : DiagnosisPhase → List DiagnosisPhase} {limit : Nat} {n m : WorkflowNode}

theorem obey_walk_next (hrun : n.run deps env state toolData = .done state' toolData' written)
    (hvalid : state'.Valid) (hnext : n.next state' = some m)
    (hphase : state'.phase = state.phase) :
    Obey table deps env (walk deps env (limit + 1) n state toolData).1 ↔
      Obey table deps env (walk deps env limit m state' toolData').1 := by
  rw [walk_next hrun hvalid hnext]
  constructor
  · intro h v hv
    exact h v (List.mem_cons_of_mem _ hv)
  · intro h v hv
    rcases List.mem_cons.mp hv with rfl | hrest
    · intro s toolData'' written' hrun'
      rw [hrun] at hrun'
      cases hrun'
      exact Or.inl hphase
    · exact h v hrest

theorem not_obey_walk (hrun : n.run deps env state toolData = .done state' toolData' written)
    (hnot : ¬ ChangesBy table state.phase state'.phase) :
    ¬ Obey table deps env (walk deps env (limit + 1) n state toolData).1 :=
  fun h => hnot (h _ (mem_walk_self limit n state toolData) _ _ _ hrun)

theorem obey_walk_failed (hrun : n.run deps env state toolData = .failed) :
    Obey table deps env (walk deps env (limit + 1) n state toolData).1 := by
  rw [walk_failed hrun]
  intro v hv s toolData'' written' hrun'
  rw [List.mem_singleton.mp hv, hrun] at hrun'
  cases hrun'

/-- `tool_dispatcher` cannot read what the tools say about the device and the alarm. -/
def ToolsUnread (env : Environment) : Prop :=
  (env.device.success ∧ env.device.data.isNone) ∨ (env.alarm.success ∧ env.alarm.data.isNone)

/-- The run gets no further than to `tool_dispatcher`, which raises. -/
structure StopsAtTools (deps : Dependencies) (env : Environment) (initial : DiagnosisState) : Prop where
  starts : ¬ WorkflowNode.isFollowup initial
  passes : (initial.checkInput deps.patterns).status ≠ .blocked
  entities : (parsedEntities deps initial).1.isSome ∧ (parsedEntities deps initial).2.isSome
  unread : ToolsUnread env

theorem toolDispatcher_of_unread (h : ToolsUnread env) : toolDispatcher env state toolData = .failed := by
  have hnone : profiledDevice env state = none ∨ detailedAlarm env state = none := by
    rcases h with ⟨hsuccess, hdata⟩ | ⟨hsuccess, hdata⟩
    · left
      unfold profiledDevice
      rw [if_pos hsuccess, Option.isNone_iff_eq_none.mp hdata]
      rfl
    · right
      unfold detailedAlarm
      rw [if_pos hsuccess, Option.isNone_iff_eq_none.mp hdata]
      rfl
  unfold toolDispatcher
  split
  · rcases hnone with hnone | hnone
    · rw [hnone]
    · rw [hnone]
      split
      · next hsome => cases hsome
      · rfl
  · rfl

theorem toolDispatcher_of_read (hentities : hasEntities state) (h : ¬ ToolsUnread env) :
    ∃ state' toolData', toolDispatcher env state toolData = .done state' toolData' none ∧
      state'.phase = .dataFetching := by
  simp only [ToolsUnread, not_or, not_and, Bool.not_eq_true, Option.isNone_eq_false_iff] at h
  obtain ⟨hdevice, halarm⟩ := h
  have hprofile : (profiledDevice env state).isSome := by
    unfold profiledDevice
    split
    · next hsuccess => simpa using hdevice hsuccess
    · rfl
  have hdetail : (detailedAlarm env state).isSome := by
    unfold detailedAlarm
    split
    · next hsuccess => simpa using halarm hsuccess
    · rfl
  obtain ⟨device, hprofile⟩ := Option.isSome_iff_exists.mp hprofile
  obtain ⟨alarm, hdetail⟩ := Option.isSome_iff_exists.mp hdetail
  unfold toolDispatcher
  rw [if_pos hentities, hprofile, hdetail]
  exact ⟨_, _, rfl, rfl⟩

/-- Behind `intent_router`, when the run does not follow up. -/
theorem obey_entityParser_iff (hphase : state.phase = .init) :
    Obey allowedTransitions deps env (walk deps env (limit + 2) .entityParser state toolData).1 ↔
      (state.checkInput deps.patterns).status ≠ .blocked ∧
        ((parsedEntities deps state).1.isSome ∧ (parsedEntities deps state).2.isSome) ∧
        ToolsUnread env := by
  have hasks : ∀ {s : DiagnosisState}, s.phase = .needUserInput →
      ¬ ChangesBy allowedTransitions state.phase s.phase := by
    intro s hs
    rw [hphase, hs]
    decide
  have hstops : ∀ {s : DiagnosisState}, s.phase = .needUserInput →
      entityParser deps state toolData = .done s toolData none →
      ¬ Obey allowedTransitions deps env
        (walk deps env (limit + 2) .entityParser state toolData).1 := by
    intro s hs hrun
    exact not_obey_walk (n := .entityParser) hrun (hasks hs)
  unfold entityParser at hstops
  by_cases hblocked : (state.checkInput deps.patterns).status = .blocked
  · have hnot := hstops rfl (if_pos hblocked)
    exact ⟨fun h => absurd h hnot, fun h => absurd hblocked h.1⟩
  · obtain ⟨device, hdevice⟩ : ∃ device, (parsedEntities deps state).1 = device := ⟨_, rfl⟩
    obtain ⟨alarm, halarm⟩ : ∃ alarm, (parsedEntities deps state).2 = alarm := ⟨_, rfl⟩
    have hentities : parsedEntities deps state = (device, alarm) := by rw [← hdevice, ← halarm]
    dsimp only at hstops
    rw [if_neg hblocked, hentities] at hstops
    rw [hdevice, halarm]
    cases device with
    | none =>
        have hnot := hstops rfl rfl
        exact ⟨fun h => absurd h hnot, fun h => absurd h.2.1.1 (by simp)⟩
    | some device =>
        cases alarm with
        | none =>
            have hnot := hstops rfl rfl
            exact ⟨fun h => absurd h hnot, fun h => absurd h.2.1.2 (by simp)⟩
        | some alarm =>
            obtain ⟨parsed, hparsed, hsame, hboth⟩ : ∃ parsed : DiagnosisState,
                WorkflowNode.entityParser.run deps env state toolData = .done parsed toolData none ∧
                parsed.phase = state.phase ∧ hasEntities parsed := by
              show ∃ parsed, Agent.entityParser deps state toolData = _ ∧ _
              unfold entityParser
              dsimp only
              rw [if_neg hblocked, hentities]
              exact ⟨_, rfl, rfl, rfl⟩
            have hinit : parsed.phase = .init := hsame.trans hphase
            have hvalid : parsed.Valid := by simp [DiagnosisState.Valid, hinit]
            have hnext : WorkflowNode.entityParser.next parsed = some .toolDispatcher := by
              simp [WorkflowNode.next, hinit]
            rw [obey_walk_next hparsed hvalid hnext hsame]
            constructor
            · intro h
              refine ⟨hblocked, ⟨rfl, rfl⟩, ?_⟩
              by_contra hread
              obtain ⟨s, toolData', hrun, hfetching⟩ := toolDispatcher_of_read hboth hread
              refine not_obey_walk (n := .toolDispatcher) hrun ?_ h
              rw [hinit, hfetching]
              decide
            · intro h
              exact obey_walk_failed (n := .toolDispatcher) (toolDispatcher_of_unread h.2.2)

theorem follows_iff_stopsAtTools {initial : DiagnosisState} (hphase : initial.phase = .init) :
    FollowsTable allowedTransitions deps env initial ↔ StopsAtTools deps env initial := by
  obtain ⟨routed, hrouted, hsame⟩ : ∃ routed, WorkflowNode.intentRouter.run deps env initial {} =
      .done routed {} none ∧ routed = { initial with intent := routed.intent } := ⟨_, rfl, rfl⟩
  have hfollowup : WorkflowNode.isFollowup routed ↔ WorkflowNode.isFollowup initial := by
    rw [hsame]
    exact Iff.rfl
  have hinit : routed.phase = .init := by
    rw [hsame]
    exact hphase
  have hvalid : routed.Valid := by simp [DiagnosisState.Valid, hinit]
  have hnext : WorkflowNode.intentRouter.next routed =
      some (if WorkflowNode.isFollowup routed then .clarificationApplier else .entityParser) := rfl
  show Obey _ _ _ (walk deps env (24 + 1) .intentRouter initial {}).1 ↔ _
  rw [obey_walk_next hrouted hvalid hnext (hinit.trans hphase.symm)]
  by_cases hfollows : WorkflowNode.isFollowup routed
  · rw [if_pos hfollows]
    constructor
    · intro hobey
      obtain ⟨s, hrun, hchanged⟩ : ∃ s, clarificationApplier deps routed {} = .done s {} none ∧
          s.phase ∈ [DiagnosisPhase.evidenceReady, .needUserInput] := by
        unfold clarificationApplier
        dsimp only
        split
        · exact ⟨_, rfl, by simp⟩
        · exact ⟨_, rfl, by simp⟩
      have hnever : ∀ phase ∈ [DiagnosisPhase.evidenceReady, .needUserInput],
          ¬ ChangesBy allowedTransitions .init phase := by decide
      have hnot : ¬ ChangesBy allowedTransitions routed.phase s.phase := by
        rw [hinit]
        exact hnever _ hchanged
      exact absurd hobey (not_obey_walk (n := .clarificationApplier) hrun hnot)
    · intro hstops
      exact absurd (hfollowup.mp hfollows) hstops.starts
  · rw [if_neg hfollows, obey_entityParser_iff hinit]
    have hparsed : parsedEntities deps routed = parsedEntities deps initial := by
      rw [hsame]
      rfl
    have hchecked : routed.checkInput deps.patterns = initial.checkInput deps.patterns := by
      rw [hsame]
      rfl
    rw [hparsed, hchecked]
    constructor
    · rintro ⟨hpasses, hentities, hunread⟩
      exact ⟨fun hstarts => hfollows (hfollowup.mpr hstarts), hpasses, hentities, hunread⟩
    · intro hstops
      exact ⟨hstops.passes, hstops.entities, hstops.unread⟩

/-- **Where the workflow follows the declared phases**: exactly where it raises in `tool_dispatcher`,
before it has left INIT. -/
theorem follows_allowedTransitions_iff {payload : ChatRequest} {session : SessionRow}
    {memory : Option SessionMemory} {runId traceId : String} {initial : DiagnosisState}
    (h : initialState payload session memory runId traceId = .ok initial) :
    FollowsTable allowedTransitions deps env initial ↔ StopsAtTools deps env initial := by
  obtain ⟨-, -, -, -, hphase⟩ := initialState_eq_ok payload traceId h
  exact follows_iff_stopsAtTools hphase

end workflow

/-- The run about the fan goes from INIT to DATA_FETCHING. -/
theorem fan_leaves_allowedTransitions :
    ¬ ∀ deps env payload session memory runId traceId initial,
      initialState payload session memory runId traceId = .ok initial →
        FollowsTable allowedTransitions deps env initial := by
  intro hall
  have hfollows := hall sampleDeps answeringEnvironment _ _ _ _ _ _ fanInitial_eq
  rcases ((follows_iff_stopsAtTools rfl).mp hfollows).unread with hunread | hunread
  · simp [answeringEnvironment, found] at hunread
  · simp [answeringEnvironment, found] at hunread

/-- The tools answer, but there is no profile in the answer. -/
def profileMissing : Environment :=
  { answeringEnvironment with device := ⟨true, .ok, none, false⟩ }

/-- A run that raises on it has followed the table. -/
theorem unread_follows_allowedTransitions :
    FollowsTable allowedTransitions sampleDeps profileMissing fanInitial := by
  apply (follows_allowedTransitions_iff fanInitial_eq).mpr
  exact ⟨by decide, by decide, by decide, Or.inl ⟨rfl, rfl⟩⟩

end EnergyAgent.Agent
