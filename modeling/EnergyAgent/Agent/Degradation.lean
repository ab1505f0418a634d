import EnergyAgent.Agent.Walk

/-!
# What a run says about degraded components

The five lookups of a run (time series, manuals, tickets, cases, graph), the tools that make them
(`tools/implementations/read_tools.py`), and what becomes of a lookup that fails or reports a
degraded component. The ticket tool searches tickets and cases but hands on the report of the ticket
search only; `ticket_fetcher` and `doc_retriever` do not look at the status, and `graph_fetcher`
knows one of three.
-/

namespace EnergyAgent.Agent

open EnergyAgent.Lib

/-! ## The search tools -/

/-- The status of a lookup that did not succeed. -/
def ToolStatus.Failure (status : ToolStatus) : Prop :=
  status = .timeout ∨ status = .degraded ∨ status = .failed

instance (status : ToolStatus) : Decidable status.Failure := inferInstanceAs (Decidable (_ ∨ _))

/-- A row of `ranked_evidence` with its `final_score`. -/
structure ScoredRow where
  row : RankedRow
  finalScore : Rat

/-- A `RetrievalResult` with the fields of its metadata that the tools read. -/
structure RetrievalResult where
  degradedComponents : List String
  partialResult : Bool
  rankedEvidence : List ScoredRow

/-- `_result` of what a search returned: a dictionary with these fields is not empty. -/
def searchResult (degradedComponents : List String) (isPartial : Bool)
    (rankedEvidence : List ScoredRow) : ToolResult SearchPackage where
  success := true
  status := if isPartial then .partialSuccess else .ok
  data := some ⟨degradedComponents, some (rankedEvidence.map ScoredRow.row)⟩
  usable := rankedEvidence ≠ []

/-- `manual`. -/
def manual (result : RetrievalResult) : ToolResult SearchPackage :=
  searchResult result.degradedComponents result.partialResult result.rankedEvidence

/-- `" ".join(content_summary.lower().split())`. -/
def summaryIdentity (lower : String → String) (r : ScoredRow) : String :=
  String.ofList
    (Text.collapseSpaces false (Text.strip (lower r.row.contentSummary)).toList)

/-- The rows of the merge that are taken on top of those taken already: no text twice, at most
`topK` rows of one source, at most `topK` in all. -/
def takeRanked (lower : String → String) (topK : Nat) (taken : List ScoredRow) :
    List ScoredRow → List ScoredRow
  | [] => taken
  | r :: rest =>
      let source := r.row.sourceType.getD "ticket"
      if summaryIdentity lower r ∈ taken.map (summaryIdentity lower) ∨
          topK ≤ (taken.filter fun t => t.row.sourceType.getD "ticket" = source).length then
        takeRanked lower topK taken rest
      else if topK ≤ taken.length + 1 then taken ++ [r]
      else takeRanked lower topK (taken ++ [r]) rest

/-- `tickets`: the rows of both searches, and the metadata of the first. -/
def tickets (lower : String → String) (topK : Nat) (ticketResult caseResult : RetrievalResult) :
    ToolResult SearchPackage :=
  let merged := (ticketResult.rankedEvidence ++ caseResult.rankedEvidence).insertionSort
    fun a b => b.finalScore ≤ a.finalScore
  searchResult ticketResult.degradedComponents
    (ticketResult.partialResult || caseResult.partialResult) (takeRanked lower topK [] merged)

/-- What `execute` makes of a handler: its result, or `_failure`, which carries no data. -/
inductive ToolRun (ρ : Type)
  | returned (result : ρ)
  | failure (status : ToolStatus) (failed : status.Failure)

namespace ToolRun

variable {ρ δ : Type}

def result (handler : ρ → ToolResult δ) : ToolRun ρ → ToolResult δ
  | .returned r => handler r
  | .failure status _ => ⟨false, status, none, false⟩

/-- The lookup did not succeed. -/
def Failed : ToolRun ρ → Prop
  | .returned _ => False
  | .failure _ _ => True

/-- The components that its metadata reports. -/
def reports (components : ρ → List String) : ToolRun ρ → List String
  | .returned r => components r
  | .failure _ _ => []

end ToolRun

/-- The lookups of a run. The ticket tool searches tickets and cases. -/
structure Lookups where
  timeseries : ToolResult (List (String × String))
  manual : ToolRun RetrievalResult
  tickets : ToolRun (RetrievalResult × RetrievalResult)
  graph : ToolResult GraphPackage

namespace Lookups

/-- What the lookups answer; the rest is as `env` says. -/
def answers (lookups : Lookups) (lower : String → String) (topK : Nat) (env : Environment) :
    Environment :=
  { env with
    timeseries := lookups.timeseries
    manuals := lookups.manual.result Agent.manual
    tickets := lookups.tickets.result fun r => Agent.tickets lower topK r.1 r.2
    graph := lookups.graph }

variable (lookups : Lookups)

def ticketReports : List String := lookups.tickets.reports fun r => r.1.degradedComponents

def caseReports : List String := lookups.tickets.reports fun r => r.2.degradedComponents

def manualReports : List String := lookups.manual.reports RetrievalResult.degradedComponents

/-- All components that the metadata of some lookup reports. -/
def reported : List String :=
  lookups.manualReports ++ lookups.ticketReports ++ lookups.caseReports

/-- Some lookup failed, or reports a degraded component. -/
def Degraded : Prop :=
  lookups.timeseries.status.Failure ∨ lookups.manual.Failed ∨ lookups.tickets.Failed ∨
    lookups.graph.status.Failure ∨ lookups.reported ≠ []

/-- **The draft does not hide a degradation.** -/
def ShownIn (draft : DiagnosisResult) : Prop :=
  lookups.Degraded → draft.degradedComponents ≠ [] ∧
    (∀ c ∈ lookups.reported, c ∈ draft.degradedComponents) ∧ draft.recommendTicket = true

/-- A failure that no node takes note of. -/
def SilentFailure : Prop :=
  lookups.manual.Failed ∨ lookups.tickets.Failed ∨ lookups.graph.status = .timeout ∨
    lookups.graph.status = .failed

/-- The components that the nodes add to those of the memory. -/
def noted (initial : DiagnosisState) : List String :=
  initial.degradedComponents ++
    (if lookups.timeseries.status.Failure then ["influxdb"] else []) ++
    lookups.ticketReports ++ lookups.manualReports ++
    if lookups.graph.status = .degraded then ["neo4j"] else []

end Lookups

/-! ## What the nodes add -/

section gathered

variable {deps : Dependencies} {env : Environment}

/-- The components that a node adds. -/
def added (env : Environment) : WorkflowNode → List String
  | .timeseriesFetcher => if env.timeseries.status.Failure then ["influxdb"] else []
  | .ticketFetcher => (env.tickets.data.map SearchPackage.degradedComponents).getD []
  | .docRetriever => (env.manuals.data.map SearchPackage.degradedComponents).getD []
  | .graphFetcher => if env.graph.status = .degraded then ["neo4j"] else []
  | _ => []

theorem mem_degradedComponents_of_run {n : WorkflowNode} {state state' : DiagnosisState}
    {toolData toolData' : ToolData} {written : Option DiagnosisResult}
    (h : n.run deps env state toolData = .done state' toolData' written) (c : String) :
    c ∈ state'.degradedComponents ↔ c ∈ state.degradedComponents ∨ c ∈ added env n := by
  cases n with
  | intentRouter | gapDetector | memoryWriter =>
      cases h
      simp [added]
  | entityParser =>
      simp only [WorkflowNode.run, Agent.entityParser] at h
      repeat' split at h
      all_goals
        cases h
        simp [added]
  | clarificationApplier =>
      simp only [WorkflowNode.run, Agent.clarificationApplier] at h
      split at h
      all_goals
        cases h
        simp [added]
  | planBuilder =>
      simp only [WorkflowNode.run, Agent.planBuilder] at h
      repeat' split at h
      · cases h
      · cases h
        simp [added]
      · cases h
        simp only [planFor]
        split
        all_goals simp [added]
  | timeseriesFetcher =>
      simp only [WorkflowNode.run, Agent.timeseriesFetcher] at h
      split at h
      · cases h
        by_cases hfailed : env.timeseries.status.Failure
        · rw [added, if_pos hfailed, ← List.mem_append]
          exact iff_of_eq (congrArg (c ∈ ·) (if_pos hfailed))
        · rw [added, if_neg hfailed]
          simp only [List.not_mem_nil, or_false]
          exact iff_of_eq (congrArg (c ∈ ·) (if_neg hfailed))
      · cases h
  | ticketFetcher =>
      simp only [WorkflowNode.run, Agent.ticketFetcher] at h
      split at h
      · cases h
        simp [added, searched]
      · cases h
  | docRetriever =>
      simp only [WorkflowNode.run, Agent.docRetriever] at h
      split at h
      · cases h
        simp [added, searched]
      · cases h
  | graphFetcher =>
      simp only [WorkflowNode.run, Agent.graphFetcher] at h
      split at h
      · cases h
        simp [added]
      · cases h
  | toolDispatcher | evidenceAggregator | clarificationGenerator | reasonGenerator |
    responseGenerator | ruleChecker =>
      simp only [WorkflowNode.run, Agent.toolDispatcher, Agent.evidenceAggregator,
        Agent.clarificationGenerator, Agent.reasonGenerator, Agent.responseGenerator,
        Agent.ruleChecker] at h
      repeat' split at h
      all_goals cases h
      all_goals simp [added]

/-- Where a run goes from its first node. -/
theorem next_of_intentRouter {state state' : DiagnosisState} {toolData toolData' : ToolData}
    {written : Option DiagnosisResult}
    (h : WorkflowNode.intentRouter.run deps env state toolData = .done state' toolData' written) :
    WorkflowNode.next state' .intentRouter =
      some (if WorkflowNode.isFollowup state then .clarificationApplier else .entityParser) := by
  cases h
  rfl

/-- The components that a run has gathered when it comes to a node, on the way over the tools. -/
def gathered (env : Environment) (initial : DiagnosisState) : WorkflowNode → List String
  | .intentRouter | .entityParser | .toolDispatcher | .planBuilder | .timeseriesFetcher =>
      initial.degradedComponents
  | .ticketFetcher => initial.degradedComponents ++ added env .timeseriesFetcher
  | .docRetriever =>
      initial.degradedComponents ++ added env .timeseriesFetcher ++ added env .ticketFetcher
  | .graphFetcher =>
      initial.degradedComponents ++ added env .timeseriesFetcher ++ added env .ticketFetcher ++
        added env .docRetriever
  | _ =>
      initial.degradedComponents ++ added env .timeseriesFetcher ++ added env .ticketFetcher ++
        added env .docRetriever ++ added env .graphFetcher

/-- The state of a run that does not answer questions over stored evidence. -/
def Gathered (env : Environment) (initial : DiagnosisState) (n : WorkflowNode)
    (state : DiagnosisState) : Prop :=
  n = .clarificationGenerator ∨ n ≠ .clarificationApplier ∧ (n = .intentRouter → state = initial) ∧
    ∀ c, c ∈ state.degradedComponents ↔ c ∈ gathered env initial n

theorem gathered_next {initial : DiagnosisState} (hnew : ¬ WorkflowNode.isFollowup initial)
    {n m : WorkflowNode} {state state' : DiagnosisState} {toolData toolData' : ToolData}
    {written : Option DiagnosisResult} (h : Gathered env initial n state)
    (hrun : n.run deps env state toolData = .done state' toolData' written)
    (hnext : n.next state' = some m) : Gathered env initial m state' := by
  rcases h with rfl | ⟨happlier, hfirst, hmem⟩
  · cases hnext
  have hrun' := mem_degradedComponents_of_run hrun
  simp only [hmem] at hrun'
  cases n with
  | clarificationApplier => exact absurd rfl happlier
  | clarificationGenerator | memoryWriter => cases hnext
  | intentRouter =>
      have hsame := hfirst rfl
      subst hsame
      rw [next_of_intentRouter hrun, if_neg hnew] at hnext
      cases hnext
      refine Or.inr ⟨by simp, by simp, ?_⟩
      intro c
      rw [hrun']
      simp [gathered, added]
  | entityParser | planBuilder | gapDetector | ruleChecker =>
      simp only [WorkflowNode.next] at hnext
      split at hnext
      · cases hnext
        exact Or.inl rfl
      · cases hnext
        refine Or.inr ⟨by simp, by simp, ?_⟩
        intro c
        rw [hrun']
        simp [gathered, added]
  | toolDispatcher | timeseriesFetcher | ticketFetcher | docRetriever | graphFetcher |
    evidenceAggregator | reasonGenerator | responseGenerator =>
      cases hnext
      refine Or.inr ⟨by simp, by simp, ?_⟩
      intro c
      rw [hrun']
      simp [gathered, added, or_assoc]

/-- A run that fetches the time series does not answer questions over stored evidence. -/
theorem not_isFollowup_of_fetches {limit : Nat} {initial : DiagnosisState} {v : Visit}
    (hv : v ∈ (walk deps env limit .intentRouter initial {}).1)
    (hnode : v.node = .timeseriesFetcher) : ¬ WorkflowNode.isFollowup initial := by
  intro hfollowup
  have hearly := walk_invariant
    (I := fun n state _ => n = .intentRouter ∧ state = initial ∨ n.rank ≤ 6) ?_
    (Or.inl ⟨rfl, rfl⟩) v hv
  · rw [hnode] at hearly
    rcases hearly with ⟨hrouter, -⟩ | hrank
    · cases hrouter
    · exact absurd hrank (by decide)
  · intro n state _ state' _ _ m h hrun _ hnext
    right
    rcases h with ⟨rfl, rfl⟩ | hrank
    · rw [next_of_intentRouter hrun, if_pos hfollowup] at hnext
      cases hnext
      decide
    · have := WorkflowNode.rank_next hnext
      omega

end gathered

/-! ## The draft -/

section shown

variable {deps : Dependencies} {env : Environment} {lookups : Lookups} {lower : String → String}
  {topK : Nat} {initial : DiagnosisState}

/-- What the nodes gather are the reports of the lookups, but for the cases. -/
theorem gathered_answers (c : String) :
    c ∈ gathered (lookups.answers lower topK env) initial .responseGenerator ↔
      c ∈ lookups.noted initial := by
  have htickets : added (lookups.answers lower topK env) .ticketFetcher =
      lookups.ticketReports := by
    unfold Lookups.ticketReports
    cases hrun : lookups.tickets with
    | returned r => simp [added, Lookups.answers, hrun, ToolRun.result, ToolRun.reports, tickets,
        searchResult]
    | failure status failed => simp [added, Lookups.answers, hrun, ToolRun.result, ToolRun.reports]
  have hmanuals : added (lookups.answers lower topK env) .docRetriever = lookups.manualReports := by
    unfold Lookups.manualReports
    cases hrun : lookups.manual with
    | returned r => simp [added, Lookups.answers, hrun, ToolRun.result, ToolRun.reports, manual,
        searchResult]
    | failure status failed => simp [added, Lookups.answers, hrun, ToolRun.result, ToolRun.reports]
  simp only [gathered, htickets, hmanuals]
  rfl

/-- A draft shows what its state has gathered. -/
theorem shownIn_draftResult_iff {state : DiagnosisState} (template : DiagnosisTemplate)
    (hmem : ∀ c, c ∈ state.degradedComponents ↔ c ∈ lookups.noted initial) :
    lookups.ShownIn (draftResult deps state template) ↔
      (∀ c ∈ lookups.caseReports, c ∈ lookups.noted initial) ∧
        (lookups.SilentFailure → lookups.noted initial ≠ []) := by
  have hdraft : ∀ c, c ∈ (draftResult deps state template).degradedComponents ↔
      c ∈ lookups.noted initial := by
    intro c
    rw [← hmem]
    exact mem_sortedSet
  have hnil : state.degradedComponents ≠ [] ↔ lookups.noted initial ≠ [] := by
    simp only [ne_eq, List.eq_nil_iff_forall_not_mem, hmem]
  have hdraftNil : (draftResult deps state template).degradedComponents ≠ [] ↔
      lookups.noted initial ≠ [] := by
    simp only [ne_eq, List.eq_nil_iff_forall_not_mem, hdraft]
  constructor
  · intro hshown
    constructor
    · intro c hc
      have hreported : c ∈ lookups.reported := List.mem_append_right _ hc
      have hdegraded : lookups.Degraded :=
        Or.inr (Or.inr (Or.inr (Or.inr (List.ne_nil_of_mem hreported))))
      exact (hdraft c).mp ((hshown hdegraded).2.1 c hreported)
    · intro hsilent
      have hdegraded : lookups.Degraded := by
        unfold Lookups.Degraded ToolStatus.Failure
        unfold Lookups.SilentFailure at hsilent
        tauto
      exact hdraftNil.mp (hshown hdegraded).1
  · rintro ⟨hcases, hsilent⟩ hdegraded
    have hreported : ∀ c ∈ lookups.reported, c ∈ lookups.noted initial := by
      intro c hc
      rcases List.mem_append.mp hc with hc | hc
      · unfold Lookups.noted
        simp only [List.mem_append] at hc ⊢
        tauto
      · exact hcases c hc
    have hsome : lookups.noted initial ≠ [] := by
      rcases hdegraded with hseries | hmanual | htickets | hgraph | hreports
      · apply List.ne_nil_of_mem (a := "influxdb")
        simp [Lookups.noted, hseries]
      · exact hsilent (Or.inl hmanual)
      · exact hsilent (Or.inr (Or.inl htickets))
      · rcases hgraph with htimeout | hstatus | hfailed
        · exact hsilent (Or.inr (Or.inr (Or.inl htimeout)))
        · apply List.ne_nil_of_mem (a := "neo4j")
          simp [Lookups.noted, hstatus]
        · exact hsilent (Or.inr (Or.inr (Or.inr hfailed)))
      · obtain ⟨c, hc⟩ := List.exists_mem_of_ne_nil _ hreports
        exact List.ne_nil_of_mem (hreported c hc)
    refine ⟨hdraftNil.mpr hsome, ?_, ?_⟩
    · intro c hc
      exact (hdraft c).mpr (hreported c hc)
    · show decide (state.candidateCauses = [] ∨ state.degradedComponents ≠ []) = true
      rw [decide_eq_true_iff]
      exact Or.inr (hnil.mpr hsome)

/-- **When no degradation is hidden.** -/
theorem degradation_shown_iff {u v : Visit} (template : DiagnosisTemplate)
    (hu : u ∈ (walkFrom deps (lookups.answers lower topK env) initial).1)
    (hfetches : u.node = .timeseriesFetcher)
    (hv : v ∈ (walkFrom deps (lookups.answers lower topK env) initial).1)
    (hnode : v.node = .responseGenerator) :
    lookups.ShownIn (draftResult deps v.state template) ↔
      (∀ c ∈ lookups.caseReports, c ∈ lookups.noted initial) ∧
        (lookups.SilentFailure → lookups.noted initial ≠ []) := by
  have hnew := not_isFollowup_of_fetches hu hfetches
  have hgathered := walk_invariant
    (I := fun n state _ => Gathered (lookups.answers lower topK env) initial n state)
    (fun _ _ _ _ _ _ _ h hrun _ hnext => gathered_next hnew h hrun hnext)
    (Or.inr ⟨by simp, fun _ => rfl, fun _ => Iff.rfl⟩) v hv
  rw [hnode] at hgathered
  rcases hgathered with hasks | ⟨-, -, hmem⟩
  · cases hasks
  · apply shownIn_draftResult_iff
    intro c
    rw [hmem, gathered_answers]

end shown

/-! ## Two runs -/

/-- A search that finds a passage, and reports these components. -/
def samplePassage (degradedComponents : List String) : RetrievalResult where
  degradedComponents := degradedComponents
  partialResult := degradedComponents ≠ []
  rankedEvidence := [⟨⟨some "manual", "manual-1", "[手册]", "风扇卡滞", true, 1, 1, none, none⟩, 1⟩]

/-- The lookups of the run about the fan: only the case search reports something. -/
def sampleLookups (caseReports : List String) (graph : ToolStatus) : Lookups where
  timeseries := found [("fan_speed", "rising")]
  manual := .returned (samplePassage [])
  tickets := .returned (samplePassage [], samplePassage caseReports)
  graph := ⟨false, graph, some ⟨some []⟩, false⟩

def sampleRun (caseReports : List String) (graph : ToolStatus) :
    List Visit × Except ExecutionError DiagnosisState :=
  walkFrom sampleDeps ((sampleLookups caseReports graph).answers id 5 answeringEnvironment) fanInitial

/-- A graph that cannot be asked is shown. -/
theorem degraded_graph_shown :
    ∃ v ∈ (sampleRun [] .degraded).1, v.node = .responseGenerator ∧
      (sampleLookups [] .degraded).ShownIn (draftResult sampleDeps v.state sampleTemplate) := by
  have hfetches : (sampleRun [] .degraded).1.any (fun v => v.node = .timeseriesFetcher) := by
    decide +kernel
  have hresponds : (sampleRun [] .degraded).1.any (fun v => v.node = .responseGenerator) := by
    decide +kernel
  obtain ⟨u, hu, hfetcher⟩ := List.any_eq_true.mp hfetches
  obtain ⟨v, hv, hresponder⟩ := List.any_eq_true.mp hresponds
  refine ⟨v, hv, of_decide_eq_true hresponder, ?_⟩
  refine (degradation_shown_iff sampleTemplate hu (of_decide_eq_true hfetcher) hv
    (of_decide_eq_true hresponder)).mpr ⟨?_, ?_⟩
  · intro c hc
    cases hc
  · intro _
    decide

/-- What the case search reports is hidden. -/
theorem degraded_case_search_hidden :
    ¬ ∀ (lookups : Lookups) (env : Environment) (initial : DiagnosisState) (u v : Visit)
      (template : DiagnosisTemplate),
      u ∈ (walkFrom sampleDeps (lookups.answers id 5 env) initial).1 →
      u.node = .timeseriesFetcher →
      v ∈ (walkFrom sampleDeps (lookups.answers id 5 env) initial).1 →
      v.node = .responseGenerator → stateTemplate sampleDeps v.state = some template →
      lookups.ShownIn (draftResult sampleDeps v.state template) := by
  intro hall
  have hfetches : (sampleRun ["embedding", "milvus"] .notFound).1.any
      (fun v => v.node = .timeseriesFetcher) := by
    decide +kernel
  have hresponds : (sampleRun ["embedding", "milvus"] .notFound).1.any
      (fun v => v.node = .responseGenerator ∧ v.state.degradedComponents = [] ∧
        (stateTemplate sampleDeps v.state).isSome) := by
    decide +kernel
  obtain ⟨u, hu, hfetcher⟩ := List.any_eq_true.mp hfetches
  obtain ⟨v, hv, hresponder⟩ := List.any_eq_true.mp hresponds
  obtain ⟨hnode, hnone, hsome⟩ := of_decide_eq_true hresponder
  obtain ⟨template, htemplate⟩ := Option.isSome_iff_exists.mp hsome
  have hshown := hall (sampleLookups ["embedding", "milvus"] .notFound) answeringEnvironment
    fanInitial u v template hu (of_decide_eq_true hfetcher) hv hnode htemplate
  have hdegraded : (sampleLookups ["embedding", "milvus"] .notFound).Degraded :=
    Or.inr (Or.inr (Or.inr (Or.inr (List.cons_ne_nil _ _))))
  apply (hshown hdegraded).1
  show sortedSet v.state.degradedComponents = []
  rw [hnone]
  rfl

end EnergyAgent.Agent
