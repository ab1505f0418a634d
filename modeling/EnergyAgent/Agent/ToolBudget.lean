import EnergyAgent.Agent.Walk
import EnergyAgent.Providers.Executor

/-!
# The budget of the tools

The executor of a run counts the calls of `execute` and refuses those above its budget before it looks at
anything else. It is made for one run, and no run comes near the budget: the nodes execute six tools, each
at most once and none that writes.
-/

namespace EnergyAgent.Agent

open EnergyAgent.Providers

/-! ## The executor -/

def maxToolCallsPerRun : Nat := 8

/-- `self.calls` -/
structure ToolExecutor where
  calls : Nat

/-- What a call of `execute` meets: whether the tool is registered, its arguments are valid and its breaker
admits the call, and the tries of its handler. -/
structure ToolCall where
  registered : Bool
  valid : Bool
  admitted : Bool
  attempts : Nat → ToolAttempt

/-- How a call ends: with a `_failure`, or with the tries of the handler. -/
inductive ToolEnd
  | failure (code : String) (status : ToolStatus)
  | handled (call : CallEnd ToolStatus)

namespace ToolExecutor

def budgetExceeded : ToolEnd := .failure "TOOL_BUDGET_EXCEEDED" .failed

/-- `execute` -/
def execute (executor : ToolExecutor) (call : ToolCall) : ToolExecutor × ToolEnd :=
  (⟨executor.calls + 1⟩,
    if maxToolCallsPerRun < executor.calls + 1 then budgetExceeded
    else if ¬ call.registered then .failure "TOOL_NOT_AVAILABLE" .degraded
    else if ¬ call.valid then .failure "TOOL_ARGUMENT_INVALID" .failed
    else if ¬ call.admitted then .failure "CIRCUIT_OPEN" .degraded
    else .handled (Providers.execute call.attempts))

/-- One call after the other. -/
def executeAll (executor : ToolExecutor) : List ToolCall → List ToolEnd
  | [] => []
  | call :: calls => (executor.execute call).2 :: (executor.execute call).1.executeAll calls

variable {executor : ToolExecutor}

theorem execute_ne {call : ToolCall} (h : executor.calls < maxToolCallsPerRun) :
    (executor.execute call).2 ≠ budgetExceeded := by
  unfold execute budgetExceeded
  rw [if_neg (Nat.not_lt.mpr h)]
  by_cases hregistered : call.registered
  · by_cases hvalid : call.valid
    · by_cases hadmitted : call.admitted
      · simp [hregistered, hvalid, hadmitted]
      · simp [hregistered, hvalid, hadmitted]
    · simp [hregistered, hvalid]
  · simp [hregistered]

/-- As many calls as the budget allows are not refused for it. -/
theorem executeAll_ne {calls : List ToolCall}
    (h : executor.calls + calls.length ≤ maxToolCallsPerRun) :
    ∀ e ∈ executor.executeAll calls, e ≠ budgetExceeded := by
  induction calls generalizing executor with
  | nil => exact fun e he => absurd he List.not_mem_nil
  | cons call calls ih =>
      rw [List.length_cons] at h
      intro e he
      rcases List.mem_cons.mp he with rfl | he
      · exact execute_ne (by omega)
      · refine ih ?_ e he
        show executor.calls + 1 + calls.length ≤ maxToolCallsPerRun
        omega

end ToolExecutor

/-! ## The tools of a run -/

/-- The tools that the nodes execute, in the order of the nodes. -/
def agentTools : List String :=
  ["get_device_profile", "get_alarm_detail", "query_timeseries_window", "search_similar_tickets",
    "search_manual_chunks", "query_graph_relations"]

/-- What a node executes. -/
def WorkflowNode.tools : WorkflowNode → List String
  | .toolDispatcher => ["get_device_profile", "get_alarm_detail"]
  | .timeseriesFetcher => ["query_timeseries_window"]
  | .ticketFetcher => ["search_similar_tickets"]
  | .docRetriever => ["search_manual_chunks"]
  | .graphFetcher => ["query_graph_relations"]
  | _ => []

/-- The `assert`s of these nodes, and the template of the time series. -/
def Visit.asserts (deps : Dependencies) (v : Visit) : Bool :=
  if v.node = .timeseriesFetcher then
    v.state.deviceContext.isSome && (stateTemplate deps v.state).isSome
  else hasEntities v.state

/-- What is executed in a visit. -/
def Visit.tools (deps : Dependencies) (v : Visit) : List String :=
  if v.asserts deps then v.node.tools else []

/-- The tools that a run executes. -/
def executedTools (deps : Dependencies) (env : Environment) (initial : DiagnosisState) : List String :=
  (walkFrom deps env initial).1.flatMap (Visit.tools deps)

/-- How the calls of a run end; `meets i tool` is what the `i`-th one meets. -/
def toolEnds (deps : Dependencies) (env : Environment) (initial : DiagnosisState)
    (meets : Nat → String → ToolCall) : List ToolEnd :=
  ToolExecutor.executeAll ⟨0⟩ ((executedTools deps env initial).mapIdx meets)

/-- The tools that may be executed from a node on. -/
def toolsFrom : WorkflowNode → List String
  | .intentRouter | .entityParser | .toolDispatcher => agentTools
  | .planBuilder | .timeseriesFetcher => agentTools.drop 2
  | .ticketFetcher => agentTools.drop 3
  | .docRetriever => agentTools.drop 4
  | .graphFetcher => agentTools.drop 5
  | _ => []

section run

variable {deps : Dependencies} {env : Environment}

/-- What a node executes comes before what the nodes behind it may execute. -/
theorem tools_next {n m : WorkflowNode} {state : DiagnosisState} (h : n.next state = some m) :
    (n.tools ++ toolsFrom m).Sublist (toolsFrom n) := by
  cases n with
  | clarificationGenerator | memoryWriter => cases h
  | intentRouter | entityParser | planBuilder | gapDetector | ruleChecker =>
      -- the two edges of the node
      obtain rfl := Option.some.inj h
      split
      · decide
      · decide
  | clarificationApplier | toolDispatcher | timeseriesFetcher | ticketFetcher | docRetriever
  | graphFetcher | evidenceAggregator | reasonGenerator | responseGenerator =>
      obtain rfl := Option.some.inj h
      decide

theorem tools_self (n : WorkflowNode) : n.tools.Sublist (toolsFrom n) := by
  cases n <;> decide

theorem Visit.tools_sublist (v : Visit) : (v.tools deps).Sublist v.node.tools := by
  unfold Visit.tools
  split
  · exact List.Sublist.refl _
  · exact List.nil_sublist _

/-- A node that executes tools raises when its `assert`s fail. -/
theorem Visit.run_failed {v : Visit} (htools : v.node.tools ≠ []) (h : v.asserts deps = false) :
    v.node.run deps env v.state v.toolData = .failed := by
  obtain ⟨n, state, toolData⟩ := v
  unfold Visit.asserts at h
  cases n with
  | timeseriesFetcher =>
      rw [if_pos rfl, Bool.and_eq_false_iff] at h
      show Agent.timeseriesFetcher deps env state toolData = .failed
      unfold Agent.timeseriesFetcher
      rw [if_neg]
      rintro ⟨hdevice, htemplate⟩
      simp [hdevice, htemplate] at h
  | toolDispatcher | ticketFetcher | docRetriever | graphFetcher =>
      rw [if_neg (by simp)] at h
      exact if_neg (Bool.eq_false_iff.mp h)
  | _ => exact absurd rfl htools

/-- **A run executes the tools in their order, and none of them twice.** -/
theorem tools_walk {limit : Nat} {n : WorkflowNode} {state : DiagnosisState} {toolData : ToolData} :
    ((walk deps env limit n state toolData).1.flatMap (Visit.tools deps)).Sublist (toolsFrom n) := by
  induction limit generalizing n state toolData with
  | zero => exact List.nil_sublist _
  | succ limit ih =>
      have hlast : ([⟨n, state, toolData⟩].flatMap (Visit.tools deps)).Sublist (toolsFrom n) := by
        rw [List.flatMap_singleton]
        exact (Visit.tools_sublist _).trans (tools_self n)
      cases hrun : n.run deps env state toolData with
      | failed =>
          rw [walk_failed hrun]
          exact hlast
      | done state' toolData' written =>
          by_cases hvalid : state'.Valid
          · cases hnext : n.next state' with
            | none =>
                rw [walk_last hrun hvalid hnext]
                exact hlast
            | some m =>
                rw [walk_next hrun hvalid hnext]
                show (Visit.tools deps ⟨n, state, toolData⟩ ++
                  (walk deps env limit m state' toolData').1.flatMap (Visit.tools deps)).Sublist _
                exact ((Visit.tools_sublist _).append ih).trans (tools_next hnext)
          · rw [walk_invalid hrun hvalid]
            exact hlast

end run

/-- **No run exceeds its budget.** The tools that a run executes are among the six that it has, each at most
once and none that writes, and no call is refused for the budget, whatever it meets. -/
theorem tools_within_budget (deps : Dependencies) (env : Environment) (initial : DiagnosisState)
    (meets : Nat → String → ToolCall) :
    (executedTools deps env initial).Sublist agentTools ∧
      (executedTools deps env initial).Nodup ∧
      (∀ tool ∈ executedTools deps env initial, tool ∉ writeTools) ∧
      ∀ e ∈ toolEnds deps env initial meets, e ≠ ToolExecutor.budgetExceeded := by
  have hsub : (executedTools deps env initial).Sublist agentTools := tools_walk
  refine ⟨hsub, hsub.nodup (by decide), fun tool htool => ?_, ?_⟩
  · have hall : ∀ tool ∈ agentTools, tool ∉ writeTools := by decide
    exact hall tool (hsub.subset htool)
  · apply ToolExecutor.executeAll_ne
    have hlength : (executedTools deps env initial).length ≤ 6 := hsub.length_le
    rw [List.length_mapIdx]
    show 0 + (executedTools deps env initial).length ≤ 8
    omega

end EnergyAgent.Agent
