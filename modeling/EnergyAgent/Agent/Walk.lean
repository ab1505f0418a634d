import EnergyAgent.Agent.Outcomes
import EnergyAgent.Agent.Workflow

/-!
# The workflow alone

What a run of the workflow visits and how it ends, when the tools and the model answer as `env`
says. No node runs twice, and every field of an `Environment` is read by one node only, so one
environment stands for every way in which a run can be answered. `runs_runGraph_eq_walk` says that
`runGraph`, over the stores, does exactly what `walk` does.
-/

namespace EnergyAgent.Agent

open EnergyAgent.Lib

/-- A node that runs, with the state and the tool data it finds. -/
structure Visit where
  node : WorkflowNode
  state : DiagnosisState
  toolData : ToolData

/-- How many nodes may still run, this one included. -/
def WorkflowNode.rank : WorkflowNode → Nat
  | .clarificationGenerator | .memoryWriter => 1
  | .ruleChecker => 2
  | .responseGenerator => 3
  | .reasonGenerator => 4
  | .gapDetector => 5
  | .evidenceAggregator | .clarificationApplier => 6
  | .graphFetcher => 7
  | .docRetriever => 8
  | .ticketFetcher => 9
  | .timeseriesFetcher => 10
  | .planBuilder => 11
  | .toolDispatcher => 12
  | .entityParser => 13
  | .intentRouter => 14

theorem WorkflowNode.rank_next {n m : WorkflowNode} {state : DiagnosisState}
    (h : n.next state = some m) : m.rank < n.rank := by
  cases n with
  | clarificationGenerator | memoryWriter => cases h
  | intentRouter | entityParser | planBuilder | gapDetector | ruleChecker =>
      cases h
      split <;> decide
  | _ =>
      cases h
      decide

section walk

variable (deps : Dependencies) (env : Environment)

/-- What a run visits, and the state or the exception it ends with. After every node `log_step`
validates the state. -/
def walk : Nat → WorkflowNode → DiagnosisState → ToolData →
    List Visit × Except ExecutionError DiagnosisState
  | 0, _, _, _ => ([], .error .recursionLimit)
  | limit + 1, n, state, toolData =>
      match n.run deps env state toolData with
      | .failed => ([⟨n, state, toolData⟩], .error .nodeFailed)
      | .done state' toolData' _ =>
          if state'.Valid then
            match n.next state' with
            | none => ([⟨n, state, toolData⟩], .ok state')
            | some m =>
                let rest := walk limit m state' toolData'
                (⟨n, state, toolData⟩ :: rest.1, rest.2)
          else ([⟨n, state, toolData⟩], .error .validationError)

/-- A whole run, from the state that `diagnose` builds. -/
def walkFrom (initial : DiagnosisState) : List Visit × Except ExecutionError DiagnosisState :=
  walk deps env recursionLimit .intentRouter initial {}

variable {deps env}

theorem walk_zero (n : WorkflowNode) (state : DiagnosisState) (toolData : ToolData) :
    walk deps env 0 n state toolData = ([], .error .recursionLimit) := rfl

theorem walk_succ (limit : Nat) (n : WorkflowNode) (state : DiagnosisState) (toolData : ToolData) :
    walk deps env (limit + 1) n state toolData =
      match n.run deps env state toolData with
      | .failed => ([⟨n, state, toolData⟩], .error .nodeFailed)
      | .done state' toolData' _ =>
          if state'.Valid then
            match n.next state' with
            | none => ([⟨n, state, toolData⟩], .ok state')
            | some m =>
                let rest := walk deps env limit m state' toolData'
                (⟨n, state, toolData⟩ :: rest.1, rest.2)
          else ([⟨n, state, toolData⟩], .error .validationError) := rfl

theorem walk_failed {limit : Nat} {n : WorkflowNode} {state : DiagnosisState} {toolData : ToolData}
    (h : n.run deps env state toolData = .failed) :
    walk deps env (limit + 1) n state toolData = ([⟨n, state, toolData⟩], .error .nodeFailed) := by
  rw [walk_succ, h]

theorem walk_invalid {limit : Nat} {n : WorkflowNode} {state state' : DiagnosisState}
    {toolData toolData' : ToolData} {written : Option DiagnosisResult}
    (h : n.run deps env state toolData = .done state' toolData' written) (hvalid : ¬ state'.Valid) :
    walk deps env (limit + 1) n state toolData =
      ([⟨n, state, toolData⟩], .error .validationError) := by
  rw [walk_succ, h]
  exact if_neg hvalid

theorem walk_last {limit : Nat} {n : WorkflowNode} {state state' : DiagnosisState}
    {toolData toolData' : ToolData} {written : Option DiagnosisResult}
    (h : n.run deps env state toolData = .done state' toolData' written) (hvalid : state'.Valid)
    (hnext : n.next state' = none) :
    walk deps env (limit + 1) n state toolData = ([⟨n, state, toolData⟩], .ok state') := by
  rw [walk_succ, h]
  simp only [if_pos hvalid, hnext]

theorem walk_next {limit : Nat} {n m : WorkflowNode} {state state' : DiagnosisState}
    {toolData toolData' : ToolData} {written : Option DiagnosisResult}
    (h : n.run deps env state toolData = .done state' toolData' written) (hvalid : state'.Valid)
    (hnext : n.next state' = some m) :
    walk deps env (limit + 1) n state toolData =
      (⟨n, state, toolData⟩ :: (walk deps env limit m state' toolData').1,
        (walk deps env limit m state' toolData').2) := by
  rw [walk_succ, h]
  simp only [if_pos hvalid, hnext]

/-- A run visits the node it starts from. -/
theorem mem_walk_self (limit : Nat) (n : WorkflowNode) (state : DiagnosisState)
    (toolData : ToolData) :
    ⟨n, state, toolData⟩ ∈ (walk deps env (limit + 1) n state toolData).1 := by
  rw [walk_succ]
  repeat' split
  all_goals exact List.mem_cons_self ..

/-- What every step keeps holds wherever the run comes. -/
theorem walk_invariant {I : WorkflowNode → DiagnosisState → ToolData → Prop}
    (hstep : ∀ n state toolData state' toolData' written m, I n state toolData →
      n.run deps env state toolData = .done state' toolData' written → state'.Valid →
      n.next state' = some m → I m state' toolData')
    {limit : Nat} {n : WorkflowNode} {state : DiagnosisState} {toolData : ToolData}
    (h : I n state toolData) :
    ∀ v ∈ (walk deps env limit n state toolData).1, I v.node v.state v.toolData := by
  induction limit generalizing n state toolData with
  | zero => simp [walk_zero]
  | succ limit ih =>
      intro v hv
      rw [walk_succ] at hv
      split at hv
      · rw [List.mem_singleton] at hv
        exact hv ▸ h
      · next state' toolData' written hrun =>
          split at hv
          · next hvalid =>
              split at hv
              · rw [List.mem_singleton] at hv
                exact hv ▸ h
              · next m hnext =>
                  rcases List.mem_cons.mp hv with rfl | hrest
                  · exact h
                  · exact ih (hstep _ _ _ _ _ _ _ h hrun hvalid hnext) v hrest
          · rw [List.mem_singleton] at hv
            exact hv ▸ h

theorem rank_le_of_visited {limit : Nat} {n : WorkflowNode} {state : DiagnosisState}
    {toolData : ToolData} {v : Visit} (hv : v ∈ (walk deps env limit n state toolData).1) :
    v.node.rank ≤ n.rank := by
  refine walk_invariant (I := fun m _ _ => m.rank ≤ n.rank) ?_ le_rfl v hv
  intro m _ _ _ _ _ m' hm _ _ hnext
  have := WorkflowNode.rank_next hnext
  omega

/-- A run comes to every node but the first from a node that it has visited. -/
theorem visited_from {limit : Nat} {n : WorkflowNode} {state : DiagnosisState}
    {toolData : ToolData} {w : Visit} (hw : w ∈ (walk deps env limit n state toolData).1) :
    w = ⟨n, state, toolData⟩ ∨ ∃ v ∈ (walk deps env limit n state toolData).1, ∃ written,
      v.node.run deps env v.state v.toolData = .done w.state w.toolData written ∧
      v.node.next w.state = some w.node := by
  induction limit generalizing n state toolData with
  | zero => simp [walk_zero] at hw
  | succ limit ih =>
      by_cases hfirst : w = ⟨n, state, toolData⟩
      · exact Or.inl hfirst
      · right
        have hself := @mem_walk_self deps env limit n state toolData
        rw [walk_succ] at hw
        split at hw
        · simp [hfirst] at hw
        · next state' toolData' written hrun =>
            split at hw
            · next hvalid =>
                split at hw
                · simp [hfirst] at hw
                · next m hnext =>
                    have hrest := (List.mem_cons.mp hw).resolve_left hfirst
                    rw [walk_next hrun hvalid hnext] at hself ⊢
                    rcases ih hrest with rfl | ⟨v, hv, written', hrun', hnext'⟩
                    · exact ⟨_, hself, written, hrun, hnext⟩
                    · exact ⟨v, List.mem_cons_of_mem _ hv, written', hrun', hnext'⟩
            · simp [hfirst] at hw

/-- From a node that it visits on, the run is the run from there. -/
theorem walk_split {limit : Nat} {n : WorkflowNode} {state : DiagnosisState} {toolData : ToolData}
    {v : Visit} (hlimit : n.rank ≤ limit) (hv : v ∈ (walk deps env limit n state toolData).1) :
    ∃ before rest, v.node.rank ≤ rest ∧ (∀ u ∈ before, v.node.rank < u.node.rank) ∧
      walk deps env limit n state toolData =
        (before ++ (walk deps env rest v.node v.state v.toolData).1,
          (walk deps env rest v.node v.state v.toolData).2) := by
  induction limit generalizing n state toolData with
  | zero => simp [walk_zero] at hv
  | succ limit ih =>
      by_cases hfirst : v = ⟨n, state, toolData⟩
      · subst hfirst
        exact ⟨[], limit + 1, hlimit, by simp, rfl⟩
      · rw [walk_succ] at hv
        split at hv
        · simp [hfirst] at hv
        · next state' toolData' written hrun =>
            split at hv
            · next hvalid =>
                split at hv
                · simp [hfirst] at hv
                · next m hnext =>
                    have hm := WorkflowNode.rank_next hnext
                    have hv' := (List.mem_cons.mp hv).resolve_left hfirst
                    obtain ⟨before, rest, hrest, hbefore, hwalk⟩ := ih (by omega) hv'
                    refine ⟨⟨n, state, toolData⟩ :: before, rest, hrest, ?_, ?_⟩
                    · intro u hu
                      rcases List.mem_cons.mp hu with rfl | hu
                      · have := rank_le_of_visited hv'
                        show v.node.rank < n.rank
                        omega
                      · exact hbefore u hu
                    · rw [walk_next hrun hvalid hnext, hwalk]
                      rfl
            · simp [hfirst] at hv

end walk

/-! ## The workflow over the stores -/

section runs

variable {settings : DedupSettings} {deps : Dependencies} {env : Environment} {s t : Store}
  {calls : List (backend settings (workflow deps)).Call}

/-- The node that a call runs. -/
def visitOf : (backend settings (workflow deps)).Call → Option Visit
  | ⟨.node n state toolData, _⟩ => some ⟨n, state, toolData⟩
  | _ => none

/-- The inputs of a run in which the tools and the model answer as `env` says. -/
def AnsweredBy (env : Environment) (x : CallInput (workflow deps)) : Prop := x.node = env

/-- The call runs no node. -/
def Op.NoNode : Op (workflow deps) → Prop
  | .node _ _ _ => False
  | _ => True

theorem uses_logStep_noNode (k : Nat) (n : WorkflowNode) (progress : DiagnosisState) :
    (logStep settings none k n progress : Call settings (workflow deps) Unit).Uses Op.NoNode := by
  refine .bind (Proc.uses_raiseIf _ _) fun _ =>
    .bind (uses_recordTemplate (fun _ _ _ _ => trivial) progress) fun _ =>
    .bind (Proc.uses_raiseIf _ _) fun _ => .bind (uses_updateSession trivial) fun _ =>
    .bind (Proc.uses_raiseIf _ _) fun _ => uses_ask trivial

/-- `log_step` without a cancellation: it runs no node, and raises when the state is not valid. -/
theorem runs_logStep_eq {ok : CallInput (workflow deps) → Prop} {k : Nat} {n : WorkflowNode}
    {progress : DiagnosisState} {r : Except ExecutionError Unit}
    (hsome : (s.session progress.sessionId).isSome)
    (h : (logStep settings none k n progress : Call settings (workflow deps) Unit).Runs ok s calls
      r t) :
    (t.session progress.sessionId).isSome ∧ calls.filterMap visitOf = [] ∧
      r = if progress.Valid then .ok () else .error .validationError := by
  obtain ⟨row, hrow⟩ := Option.isSome_iff_exists.mp hsome
  obtain ⟨hsome', -⟩ := runs_logStep rfl hrow h
  have hcalls := h.calls (uses_logStep_noNode k n progress)
  have hnone : calls.filterMap visitOf = [] := by
    rw [List.filterMap_eq_nil_iff]
    intro c hc
    have hop := hcalls c hc
    obtain ⟨op, a⟩ := c
    cases op with
    | node => exact hop.elim
    | _ => rfl
  refine ⟨hsome', hnone, ?_⟩
  rcases Proc.runs_raiseIf_bind h with ⟨hinvalid, -, rfl, -⟩ | ⟨hvalid, hrest⟩
  · rw [if_neg hinvalid]
  · rw [not_not] at hvalid
    rw [if_pos hvalid]
    obtain ⟨u, _, ⟨hsession, -⟩, hpoint⟩ := runs_recordTemplate_bind progress.sessionId hrest
    rcases runs_awaitPoint_bind hpoint with ⟨hcancel, -⟩ | hupdate
    · cases hcancel
    obtain ⟨_, v, _, -, -, -, hpoint', -⟩ := runs_updateSession_bind (hsession.trans hrow) hupdate
    rcases runs_awaitPoint_bind hpoint' with ⟨hcancel, -⟩ | hsave
    · cases hcancel
    obtain ⟨_, _, w, _, -, -, hend, -⟩ := Proc.runs_call hsave
    exact (Proc.runs_ret hend).2.1

/-- **The workflow over the stores is the workflow alone**: a run of `runGraph` on a stored session,
without a cancellation, visits what `walk` visits and ends as `walk` ends. -/
theorem runs_runGraph_eq_walk {limit k : Nat} {n : WorkflowNode} {state : DiagnosisState}
    {toolData : ToolData} {r : Except ExecutionError DiagnosisState}
    (hsome : (s.session state.sessionId).isSome)
    (h : (runGraph settings none limit k n state toolData :
      Call settings (workflow deps) DiagnosisState).Runs (AnsweredBy env) s calls r t) :
    walk deps env limit n state toolData = (calls.filterMap visitOf, r) := by
  induction limit generalizing k n state toolData s calls with
  | zero =>
      obtain ⟨rfl, rfl, -⟩ := Proc.runs_raise h
      rfl
  | succ limit ih =>
      rcases runs_awaitPoint_bind h with ⟨hcancel, -⟩ | hnode
      · cases hcancel
      obtain ⟨x, outcome, u, rest, hx, hexec, hstep, rfl⟩ := Proc.runs_call hnode
      obtain ⟨hsession, -⟩ : Untouched state.sessionId s u := exec_quiet hexec trivial
      have hsome' : (u.session state.sessionId).isSome := hsession ▸ hsome
      have hrun : n.run deps env state toolData = outcome := by
        have hnow := (exec_eq_some hexec).2
        have hx' : x.node = env := hx
        simp only [execNow] at hnow
        split at hnow
        · next hfailed =>
            cases hnow
            rw [← hx']
            exact hfailed
        · next hdone =>
            cases hnow
            rw [← hx']
            exact hdone
      rw [List.filterMap_cons]
      cases outcome with
      | failed =>
          obtain ⟨rfl, rfl, -⟩ := Proc.runs_raise hstep
          rw [walk_failed hrun]
          rfl
      | done state' toolData' written =>
          have hid : state'.sessionId = state.sessionId :=
            (sameRun_of_answers ⟨x, s, u, hexec⟩).sessionId
          rw [← hid] at hsome'
          rcases Proc.runs_bind (x := @logStep (workflow deps) settings none k n state') hstep with
            ⟨_, before, v, after, hlog, hrest, rfl⟩ | ⟨e, hlog, rfl⟩
          · obtain ⟨hsome'', hbefore, hvalid⟩ := runs_logStep_eq hsome' hlog
            have hvalid : state'.Valid := by
              by_contra hinvalid
              rw [if_neg hinvalid] at hvalid
              cases hvalid
            rcases runs_awaitPoint_bind hrest with ⟨hcancel, -⟩ | hnext
            · cases hcancel
            rw [List.filterMap_append, hbefore, List.nil_append]
            cases hm : n.next state' with
            | none =>
                have hnext' : (Proc.ret state').Runs (AnsweredBy env) v after r t := by
                  have hm' : (workflow deps).next n state' = none := hm
                  rwa [hm'] at hnext
                obtain ⟨rfl, rfl, -⟩ := Proc.runs_ret hnext'
                rw [walk_last hrun hvalid hm]
                rfl
            | some m =>
                have hm' : (workflow deps).next n state' = some m := hm
                rw [hm'] at hnext
                rw [walk_next hrun hvalid hm, ih hsome'' hnext]
                rfl
          · obtain ⟨-, hbefore, hinvalid⟩ := runs_logStep_eq hsome' hlog
            have hinvalid' : ¬ state'.Valid := by
              intro hvalid
              rw [if_pos hvalid] at hinvalid
              cases hinvalid
            rw [if_neg hinvalid'] at hinvalid
            rw [walk_invalid hrun hinvalid', hbefore, Except.error.inj hinvalid]
            rfl

end runs

end EnergyAgent.Agent
