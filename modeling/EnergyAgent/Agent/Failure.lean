import EnergyAgent.Agent.Outcomes
import EnergyAgent.Agent.Workflow

/-!
# A failed session

The exception path of `diagnose` writes the phase FAILED, and `diagnose` refuses a session whose row
says so. But it reads the row once, at its start: a run, or a review that asks for more
information, which has read the row before the failure goes on to write another phase.
`FailsAlone` is the condition under which FAILED is the last phase of a session: when the
exception path writes it, nobody else is under way who has read the session as one to work on.
-/

namespace EnergyAgent.Agent

open EnergyAgent.Lib

section failure

variable {settings : DedupSettings} {deps : Dependencies}

/-- The call has made the session FAILED. -/
def failedBy (id : String) : Event (backend settings (workflow deps)) Request → Bool
  | ⟨_, _, .updateSession id' update, updated⟩ => id' = id ∧ update.phase = some .failed ∧ updated
  | _ => false

/-- **FAILED is terminal**: a session that some call has made FAILED is FAILED. -/
def FailedStays (p : AgentPool settings (workflow deps)) : Prop :=
  ∀ id, (∃ e ∈ p.config.history, failedBy id e) →
    ∃ row, p.config.store.session id = some row ∧ row.phase = .failed

/-! ## The condition -/

/-- A request that has read this row of the session may go on to write its phase. -/
def Request.WorksOn (row : SessionRow) : Request → Prop
  | .diagnose _ _ _ _ => row.phase ≠ .failed ∧ row.phase ≠ .completed
  | .reviewDiagnosis _ payload recorded =>
      payload.reviewResult = .needsMoreInfo ∧ recorded = true ∧
        (row.phase = .completed ∨ row.phase = .needUserInput)
  | _ => False

/-- The call has read the session as one to work on. -/
def Opens (id : String) : Event (backend settings (workflow deps)) Request → Prop
  | ⟨_, r, .getSession id', some row⟩ => id' = id ∧ r.WorksOn row
  | _ => False

/-- When a call makes a session FAILED, no other request that works on the session is under way. -/
def FailsAlone (p : AgentPool settings (workflow deps)) : AgentMove settings (workflow deps) → Prop
  | .start _ => True
  | .step i _ => ∀ r id update k, p.tasks[i]? = some ⟨r, .call (.updateSession id update) k⟩ →
      update.phase = some .failed → ∀ j t, j ≠ i → p.tasks[j]? = some t → ¬ t.rest.finished →
      ∀ e ∈ own j p.config.history, ¬ Opens id e

/-! ## What the calls of a request do to the phase -/

/-- The call leaves the phases as they are. -/
def Op.KeepsPhase : Op (workflow deps) → Prop
  | .updateSession _ update => update.phase = none
  | _ => True

/-- The call may move the session on, but not to FAILED. -/
def Op.MovesOn (id : String) : Op (workflow deps) → Prop
  | .updateSession id' update => update.phase = none ∨ (id' = id ∧ update.phase ≠ some .failed)
  | _ => True

/-- The call makes the session FAILED. -/
def Op.Fails (id : String) : Op (workflow deps) → Prop
  | .updateSession id' update => id' = id ∧ update.phase = some .failed
  | _ => False

theorem Op.Quiet.keepsPhase {op : Op (workflow deps)} (h : op.Quiet) : op.KeepsPhase := by
  cases op with
  | updateSession => exact h.elim
  | _ => exact trivial

theorem Op.KeepsPhase.movesOn {op : Op (workflow deps)} (h : op.KeepsPhase) (id : String) :
    op.MovesOn id := by
  cases op with
  | updateSession => exact Or.inl h
  | _ => exact trivial

/-- No node leaves the phase FAILED. -/
theorem WorkflowNode.phase_ne_failed {env : Environment} {n : WorkflowNode}
    {state state' : DiagnosisState} {toolData toolData' : ToolData}
    {written : Option DiagnosisResult}
    (h : n.run deps env state toolData = .done state' toolData' written)
    (hphase : state.phase ≠ .failed) : state'.phase ≠ .failed := by
  cases n with
  | intentRouter | gapDetector =>
      cases h
      exact hphase
  | memoryWriter =>
      cases h
      simp
  | entityParser =>
      simp only [run, Agent.entityParser] at h
      repeat' split at h
      all_goals cases h
      exacts [by simp, hphase, by simp]
  | clarificationApplier =>
      simp only [run, Agent.clarificationApplier] at h
      split at h
      all_goals cases h; simp
  | planBuilder =>
      simp only [run, Agent.planBuilder] at h
      repeat' split at h
      · cases h
      · cases h
        simp
      · cases h
        simp only [planFor]
        split
        exacts [hphase, by simp]
  | toolDispatcher =>
      simp only [run, Agent.toolDispatcher] at h
      repeat' split at h
      all_goals cases h
      simp
  | timeseriesFetcher =>
      simp only [run, Agent.timeseriesFetcher] at h
      split at h
      all_goals cases h
      exact hphase
  | ticketFetcher =>
      simp only [run, Agent.ticketFetcher] at h
      split at h
      all_goals cases h
      exact hphase
  | docRetriever =>
      simp only [run, Agent.docRetriever] at h
      split at h
      all_goals cases h
      exact hphase
  | graphFetcher =>
      simp only [run, Agent.graphFetcher] at h
      split at h
      all_goals cases h
      exact hphase
  | evidenceAggregator =>
      simp only [run, Agent.evidenceAggregator] at h
      split at h
      all_goals cases h
      simp
  | clarificationGenerator =>
      simp only [run, Agent.clarificationGenerator] at h
      split at h
      all_goals cases h
      simp
  | reasonGenerator =>
      simp only [run, Agent.reasonGenerator] at h
      split at h
      all_goals cases h
      simp
  | responseGenerator =>
      simp only [run, Agent.responseGenerator] at h
      split at h
      all_goals cases h
      exact hphase
  | ruleChecker =>
      simp only [run, Agent.ruleChecker] at h
      repeat' split at h
      all_goals cases h
      exacts [hphase, by simp]

section programs

variable (payload : ChatRequest) (key : Option String) (traceId : String) (interrupt : Interrupt)

/-- The calls of a run that does not leave the phase FAILED. -/
theorem movesOn_runCalls (sessionId : String) : RunCalls settings
    (fun state => state.sessionId = sessionId ∧ state.phase ≠ .failed)
    (Op.MovesOn sessionId : Op (workflow deps) → Prop) where
  node _ _ _ := trivial
  setTemplate _ _ _ _ := trivial
  progress _ h := Or.inr ⟨h.1, fun hphase => h.2 (Option.some.inj hphase)⟩
  saveMemory _ _ _ _ := trivial
  kept hanswer h := by
    obtain ⟨x, hrun⟩ := run_of_answers hanswer
    exact ⟨(sameRun_of_answers hanswer).sessionId.trans h.1,
      WorkflowNode.phase_ne_failed hrun h.2⟩

/-- The two `except` clauses: FAILED is the last that an exception writes. -/
theorem until_onWorkflowError {α : Type} {session : SessionRow} (hphase : session.phase ≠ .failed)
    (sessionId runId : String) (e : ExecutionError) :
    (onWorkflowError settings sessionId session runId e :
      Call settings (workflow deps) α).UsesUntil (Op.MovesOn sessionId) (Op.Fails sessionId) := by
  cases e with
  | cancelled =>
      refine Proc.Uses.usesUntil (.bind (uses_ask trivial) fun _ =>
        .bind (uses_updateSession ?_) fun _ => trivial)
      exact Or.inr ⟨rfl, fun h => hphase (Option.some.inj h)⟩
  | _ =>
      refine Or.inl ⟨trivial, fun _ _ => Or.inr ⟨⟨rfl, rfl⟩, fun updated => ?_⟩⟩
      cases updated <;> exact ⟨_, rfl⟩

theorem until_runDiagnosis {session : SessionRow} (hphase : session.phase ≠ .failed)
    (memory : Option SessionMemory) (runId : String) :
    (runDiagnosis settings payload traceId interrupt session memory runId :
      Call settings (workflow deps) _).UsesUntil (Op.MovesOn payload.sessionId)
      (Op.Fails payload.sessionId) := by
  have hinit : (Op.updateSession payload.sessionId
      { phase := some .init, runId := some runId } : Op (workflow deps)).MovesOn
        payload.sessionId := Or.inr ⟨rfl, nofun⟩
  have hreturns : (liftExcept settings (initialState payload session memory runId traceId) :
      Call settings (workflow deps) _).Returns
        fun initial => initial.sessionId = payload.sessionId ∧ initial.phase ≠ .failed := by
    refine returns_liftExcept fun initial hok => ?_
    obtain ⟨hid, -, -, -, hinit⟩ := initialState_eq_ok payload traceId hok
    exact ⟨hid, by simp [hinit]⟩
  refine .bind (Proc.Uses.usesUntil (uses_updateSession hinit)) (Proc.returns_true _) fun _ _ =>
    .bind (Proc.Uses.usesUntil (uses_liftExcept _)) hreturns fun initial hinitial => ?_
  · refine .bind (Proc.Uses.handleUntil
        (uses_runGraph (movesOn_runCalls _) interrupt _ _ _ _ hinitial)
        fun e => until_onWorkflowError hphase _ _ e)
      (.handle (returns_runGraph_kept (movesOn_runCalls _).kept interrupt _ _ _ _ hinitial)
        fun e => returns_onWorkflowError _ _ _ e) fun state hstate => Proc.Uses.usesUntil ?_
    refine .bind (uses_ask trivial) fun _ => .bind (uses_ask trivial) fun _ =>
      .bind (uses_updateSession ?_) fun _ => .bind (uses_ask trivial) fun _ => trivial
    exact Or.inr ⟨rfl, fun h => hstate.2 (Option.some.inj h)⟩

theorem until_diagnoseNew {session : SessionRow} (hfailed : session.phase ≠ .failed)
    (hcompleted : session.phase ≠ .completed) :
    (diagnoseNew settings payload key traceId interrupt session :
      Call settings (workflow deps) _).UsesUntil (Op.MovesOn payload.sessionId)
      (Op.Fails payload.sessionId) := by
  refine .bind (Proc.Uses.usesUntil (Proc.uses_raiseIf _ _)) (Proc.returns_true _) fun _ _ =>
    .bind (Proc.Uses.usesUntil (uses_ask trivial)) (Proc.returns_true _) fun memory _ => ?_
  rw [if_neg hcompleted]
  refine .bind (Proc.Uses.usesUntil (uses_liftExcept _)) (Proc.returns_true _) fun _ _ =>
    .bind (Proc.Uses.usesUntil (uses_ask trivial)) (Proc.returns_true _) fun _ _ =>
    .bind (Proc.Uses.usesUntil (uses_orRaise _ _)) (Proc.returns_true _) fun runId _ => ?_
  exact until_runDiagnosis payload traceId interrupt hfailed memory runId

/-- A session that has failed or is completed is not written. -/
theorem quiet_diagnoseNew {session : SessionRow}
    (hphase : session.phase = .failed ∨ session.phase = .completed) :
    (diagnoseNew settings payload key traceId interrupt session :
      Call settings (workflow deps) _).Uses Op.Quiet := by
  refine Proc.uses_raiseIf_bind fun hfailed => .bind (uses_ask trivial) fun memory => ?_
  rw [if_pos (hphase.resolve_left hfailed)]
  by_cases hmode : chatMode payload ≠ "explain_previous_result"
  · simp only [if_pos hmode]
    exact trivial
  · simp only [if_neg hmode]
    exact explainPrevious_quiet

/-- A session to work on is moved on until it fails; any other is not written. -/
theorem until_diagnoseRead {session : SessionRow} (hfailed : session.phase ≠ .failed)
    (hcompleted : session.phase ≠ .completed) :
    (diagnoseRead settings payload key traceId interrupt session :
      Call settings (workflow deps) _).UsesUntil (Op.MovesOn payload.sessionId)
      (Op.Fails payload.sessionId) := by
  unfold diagnoseRead
  cases Text.truthy key with
  | none => exact until_diagnoseNew payload key traceId interrupt hfailed hcompleted
  | some k =>
      refine .bind (Proc.Uses.usesUntil (uses_ask trivial)) (Proc.returns_true _)
        fun existing _ => ?_
      cases existing with
      | none => exact until_diagnoseNew payload key traceId interrupt hfailed hcompleted
      | some existing =>
          exact Proc.Uses.usesUntil (.bind (Proc.uses_raiseIf _ _) fun _ =>
            uses_getSession (fun _ h => (quiet_read h).keepsPhase.movesOn _) _)

theorem quiet_diagnoseRead {session : SessionRow}
    (hphase : session.phase = .failed ∨ session.phase = .completed) :
    (diagnoseRead settings payload key traceId interrupt session :
      Call settings (workflow deps) _).Uses Op.Quiet := by
  unfold diagnoseRead
  cases Text.truthy key with
  | none => exact quiet_diagnoseNew payload key traceId interrupt hphase
  | some k =>
      refine .bind (uses_ask trivial) fun existing => ?_
      cases existing with
      | none => exact quiet_diagnoseNew payload key traceId interrupt hphase
      | some existing =>
          exact .bind (Proc.uses_raiseIf _ _) fun _ => uses_getSession (fun _ => quiet_read) _

end programs

/-! ## The first call of a request -/

/-- What a request does before and after it reads the session. -/
inductive Entry (r : Request) (p : Call settings (workflow deps) Reply) : Prop
  | quiet (huses : p.Uses Op.KeepsPhase)
  | reads (id : String) (k : Option SessionRow → Call settings (workflow deps) Reply)
      (heq : p = .call (B := backend settings (workflow deps)) (.getSession id) k)
      (hnone : (k none).Uses Op.KeepsPhase)
      (hquiet : ∀ row, ¬ r.WorksOn row → (k (some row)).Uses Op.KeepsPhase)
      (hworks : ∀ row, r.WorksOn row → (k (some row)).UsesUntil (Op.MovesOn id) (Op.Fails id))

theorem entry_diagnose (payload : ChatRequest) (key : Option String) (traceId : String)
    (interrupt : Interrupt) : Entry (.diagnose payload key traceId interrupt)
      (serve settings (.diagnose payload key traceId interrupt) :
        Call settings (workflow deps) Reply) := by
  refine .reads payload.sessionId (fun found => (orRaise .resourceNotFound found >>=
    diagnoseRead settings payload key traceId interrupt) >>= fun r => .ret (.answered r)) rfl
    trivial (fun row hrow => ?_) fun row hrow => ?_
  · have hphase : row.phase = .failed ∨ row.phase = .completed := by
      simp only [Request.WorksOn] at hrow
      tauto
    exact .bind ((quiet_diagnoseRead payload key traceId interrupt hphase).mono
      fun _ => Op.Quiet.keepsPhase) fun _ => trivial
  · exact .bind (until_diagnoseRead payload key traceId interrupt hrow.1 hrow.2)
      (Proc.returns_true _) fun _ _ => trivial

/-- A review writes the phase when it asks for more information about a session it may review. -/
theorem entry_reviewDiagnosis (sessionId : String) (payload : DiagnosisReviewRequest)
    (recorded : Bool) : Entry (.reviewDiagnosis sessionId payload recorded)
      (serve settings (.reviewDiagnosis sessionId payload recorded) :
        Call settings (workflow deps) Reply) := by
  refine .reads sessionId _ rfl ?_ (fun row hrow => ?_) fun row hrow => ?_
  · exact .bind (.bind (x := ask (.latestResult sessionId)) (uses_ask trivial) fun _ => trivial)
      fun _ => trivial
  · refine .bind (.bind (x := ask (.latestResult sessionId)) (uses_ask trivial) fun result =>
      .bind (x := orRaise .sessionNotReviewable result) (uses_orRaise _ _) fun result =>
      Proc.uses_raiseIf_bind fun hphase => .bind (Proc.uses_raiseIf _ _) fun _ =>
      .bind (Proc.uses_raiseIf _ _) fun _ => Proc.uses_raiseIf_bind fun hrecorded => ?_)
      fun _ => trivial
    cases hresult : payload.reviewResult with
    | confirmed => exact trivial
    | rejected => exact uses_updateSession rfl
    | needsMoreInfo =>
        refine absurd ⟨hresult, by simpa using hrecorded, ?_⟩ hrow
        tauto
  · refine Proc.Uses.usesUntil (.bind (.bind (x := ask (.latestResult sessionId)) (uses_ask trivial)
      fun result => .bind (x := orRaise .sessionNotReviewable result) (uses_orRaise _ _) fun result =>
      .bind (Proc.uses_raiseIf _ _) fun _ => .bind (Proc.uses_raiseIf _ _) fun _ =>
      .bind (Proc.uses_raiseIf _ _) fun _ => .bind (Proc.uses_raiseIf _ _) fun _ => ?_)
      fun _ => trivial)
    rw [hrow.1]
    exact uses_updateSession (Or.inr ⟨rfl, nofun⟩)

theorem entry_serve (r : Request) :
    Entry r (serve settings r : Call settings (workflow deps) Reply) := by
  -- only a diagnosis and a review update a session
  have hquiet : (∀ id update, ¬ r.Calls settings (.updateSession id update : Op (workflow deps))) →
      Entry r (serve settings r : Call settings (workflow deps) Reply) := by
    refine fun hnone => .quiet ((uses_serve r).mono fun op hop => ?_)
    cases op with
    | updateSession id update => exact absurd hop (hnone id update)
    | _ => exact trivial
  cases r with
  | diagnose payload key traceId interrupt => exact entry_diagnose payload key traceId interrupt
  | reviewDiagnosis sessionId payload recorded =>
      exact entry_reviewDiagnosis sessionId payload recorded
  | createSession | getSession | expire =>
      exact hquiet fun id update h => by simp [Request.Calls] at h

/-! ## The invariant -/

section step

variable {c d : Config (backend settings (workflow deps)) Request} {i : Nat} {r : Request}
  {op : Op (workflow deps)} {x : CallInput (workflow deps)} {a : Ans (workflow deps) op}
  {id : String}

/-- Some call has made the session FAILED. -/
def HasFailed (id : String) (c : Config (backend settings (workflow deps)) Request) : Prop :=
  ∃ e ∈ c.history, failedBy id e

/-- Every session that some call has made FAILED is. -/
def FailedKept (c : Config (backend settings (workflow deps)) Request) : Prop :=
  ∀ id, HasFailed id c → ∃ row, c.store.session id = some row ∧ row.phase = .failed

theorem HasFailed.of_exec (h : HasFailed id d) (hexec : c.exec i r op x = some (a, d)) :
    HasFailed id c ∨ failedBy id (⟨i, r, op, a⟩ : Event (backend settings (workflow deps)) Request) := by
  obtain ⟨e, he, hfailed⟩ := h
  rw [(Config.exec_eq_some hexec).2, List.mem_append, List.mem_singleton] at he
  rcases he with hold | rfl
  · exact Or.inl ⟨e, hold, hfailed⟩
  · exact Or.inr hfailed

theorem exec_phase {row : SessionRow} (hexec : c.exec i r op x = some (a, d))
    (hop : ∀ update, op = .updateSession id update →
      update.phase = none ∨ update.phase = some .failed)
    (hrow : c.store.session id = some row) (hphase : row.phase = .failed) :
    ∃ row', d.store.session id = some row' ∧ row'.phase = .failed := by
  have hsession := exec_session (Config.exec_eq_some hexec).1 id
  rw [hrow] at hsession
  cases op with
  | createSession values => exact ⟨row, hsession, hphase⟩
  | updateSession id' update =>
      simp only [Op.onSession, Option.map_some] at hsession
      split at hsession
      · next heq =>
          subst heq
          refine ⟨_, hsession, ?_⟩
          rcases hop update rfl with hnone | hfailed
          · simpa [SessionUpdate.apply, hnone] using hphase
          · simp [SessionUpdate.apply, hfailed]
      · exact ⟨row, hsession, hphase⟩
  | _ => exact ⟨row, hsession, hphase⟩

/-- A call that moves on a session that has not failed. -/
theorem FailedKept.moved (h : FailedKept c) (hexec : c.exec i r op x = some (a, d))
    (hop : op.MovesOn id) (hid : op.KeepsPhase ∨ ¬ HasFailed id c) :
    FailedKept d ∧ ∀ id', HasFailed id' d → HasFailed id' c := by
  have hold : ∀ id', HasFailed id' d → HasFailed id' c := by
    refine fun id' hd => (hd.of_exec hexec).resolve_right fun hfailed => ?_
    cases op with
    | updateSession id₁ update =>
        obtain ⟨-, hphase, -⟩ := of_decide_eq_true hfailed
        rcases hop with hnone | ⟨-, hne⟩
        · exact nomatch hnone.symm.trans hphase
        · exact hne hphase
    | _ => cases hfailed
  refine ⟨fun id' hd => ?_, hold⟩
  obtain ⟨row, hrow, hphase⟩ := h id' (hold id' hd)
  refine exec_phase hexec (fun update heq => Or.inl ?_) hrow hphase
  subst heq
  rcases hid with hkeeps | hfresh
  · exact hkeeps
  · exact hop.resolve_right fun hmoves => hfresh (hmoves.1 ▸ hold id' hd)

/-- A call that makes a session FAILED. -/
theorem FailedKept.failed (h : FailedKept c) (hexec : c.exec i r op x = some (a, d))
    (hop : op.Fails id) : FailedKept d ∧ ∀ id', HasFailed id' d → HasFailed id' c ∨ id' = id := by
  cases op with
  | updateSession id₁ update =>
      obtain ⟨rfl, hphase⟩ := hop
      have hnew : ∀ id', HasFailed id' d → HasFailed id' c ∨ id' = id₁ := fun id' hd =>
        (hd.of_exec hexec).imp_right fun hfailed => (of_decide_eq_true hfailed).1.symm
      refine ⟨fun id' hd => ?_, hnew⟩
      rcases hd.of_exec hexec with hold | hfailed
      · obtain ⟨row, hrow, hfailed⟩ := h id' hold
        refine exec_phase hexec (fun update' heq => Or.inr ?_) hrow hfailed
        cases heq
        exact hphase
      · obtain ⟨rfl, -, rfl⟩ := of_decide_eq_true hfailed
        have hexec' := (Config.exec_eq_some hexec).1
        obtain ⟨row, hrow⟩ := Option.isSome_iff_exists.mp (exec_updateSession hexec').1.symm
        refine ⟨update.apply row, ?_, by simp [SessionUpdate.apply, hphase]⟩
        rw [exec_session hexec' id₁, hrow]
        simp [Op.onSession]
  | _ => exact hop.elim

theorem Request.WorksOn.not_failed {row : SessionRow} (h : r.WorksOn row) :
    row.phase ≠ .failed := by
  cases r with
  | diagnose => exact h.1
  | reviewDiagnosis =>
      rcases h.2.2 with hphase | hphase <;> simp [hphase]
  | createSession | getSession | expire => exact h.elim

/-- Where request `r`, the `i`-th of the pool, is with `p` left to do: it has not started, it writes
no phase any more, or it works on a session that has not failed. -/
inductive Stage (c : Config (backend settings (workflow deps)) Request) (i : Nat) (r : Request)
    (p : Call settings (workflow deps) Reply) : Prop
  | waiting (hnone : ∀ e ∈ c.history, e.task ≠ i) (heq : p = serve settings r)
  | quiet (huses : p.Uses Op.KeepsPhase)
  | working (id : String) (hopens : ∃ e ∈ own i c.history, Opens id e)
      (hfresh : ¬ HasFailed id c) (huntil : p.UsesUntil (Op.MovesOn id) (Op.Fails id))

/-- A call of a request leads it to its next stage, and makes at most its session FAILED. -/
theorem Stage.exec {k : Ans (workflow deps) op → Call settings (workflow deps) Reply}
    (hstage : Stage c i r (.call (B := backend settings (workflow deps)) op k))
    (hkept : FailedKept c) (hexec : c.exec i r op x = some (a, d)) :
    FailedKept d ∧ Stage d i r (k a) ∧
      ∀ id, HasFailed id d → HasFailed id c ∨ op.Fails id := by
  have hanswer : (backend settings (workflow deps)).Answers op a :=
    ⟨x, c.store, d.store, (Config.exec_eq_some hexec).1⟩
  have hquiet : op.KeepsPhase → FailedKept d ∧ ∀ id, HasFailed id d → HasFailed id c :=
    fun hop => hkept.moved hexec (hop.movesOn "") (Or.inl hop)
  cases hstage with
  | waiting hnone heq =>
      cases (entry_serve r : Entry r (serve settings r : Call settings (workflow deps) _)) with
      | quiet huses =>
          rw [← heq] at huses
          obtain ⟨hd, hold⟩ := hquiet huses.1
          exact ⟨hd, .quiet (huses.2 a hanswer), fun id h => Or.inl (hold id h)⟩
      | reads id k' heq' hnone' hquiet' hworks =>
          rw [heq'] at heq
          cases heq
          obtain ⟨hd, hold⟩ := hquiet trivial
          refine ⟨hd, ?_, fun id h => Or.inl (hold id h)⟩
          have hread : c.store.session id = a :=
            (Prod.mk.inj (Option.some.inj (exec_eq_some (Config.exec_eq_some hexec).1).2)).1
          cases a with
          | none => exact .quiet hnone'
          | some row =>
              by_cases hrow : r.WorksOn row
              · have hopens : Opens id (⟨i, r, .getSession id, some row⟩ :
                    Event (backend settings (workflow deps)) Request) := ⟨rfl, hrow⟩
                refine .working id ⟨_, ?_, hopens⟩ (fun hfailed => ?_) (hworks row hrow)
                · rw [Config.exec_own hexec]
                  exact List.mem_append_right _ (List.mem_singleton_self _)
                · obtain ⟨row', hrow', hphase⟩ := hkept id (hold id hfailed)
                  cases hread.symm.trans hrow'
                  exact hrow.not_failed hphase
              · exact .quiet (hquiet' row hrow)
  | quiet huses =>
      obtain ⟨hd, hold⟩ := hquiet huses.1
      exact ⟨hd, .quiet (huses.2 a hanswer), fun id h => Or.inl (hold id h)⟩
  | working id hopens hfresh huntil =>
      rcases huntil with ⟨hop, hk⟩ | ⟨hop, hraise⟩
      · obtain ⟨hd, hold⟩ := hkept.moved hexec hop (Or.inr hfresh)
        refine ⟨hd, .working id ?_ (fun h => hfresh (hold id h)) (hk a hanswer),
          fun id h => Or.inl (hold id h)⟩
        obtain ⟨e, he, heopens⟩ := hopens
        exact ⟨e, Config.exec_own hexec ▸ List.mem_append_left _ he, heopens⟩
      · obtain ⟨hd, hnew⟩ := hkept.failed hexec hop
        obtain ⟨e, he⟩ := hraise a
        refine ⟨hd, .quiet ?_, fun id' h => (hnew id' h).imp_right ?_⟩
        · rw [he]
          exact trivial
        · rintro rfl
          exact hop

/-- A call of another request leaves a request at its stage, unless it fails the session that the
request works on. -/
theorem Stage.others {j : Nat} {r' : Request} {p : Call settings (workflow deps) Reply}
    (hstage : Stage c j r' p) (hj : j ≠ i) (hexec : c.exec i r op x = some (a, d))
    (hfailed : ∀ id, HasFailed id d → HasFailed id c ∨ op.Fails id)
    (halone : ∀ id, op.Fails id → ¬ p.finished → ∀ e ∈ own j c.history, ¬ Opens id e) :
    Stage d j r' p := by
  have hothers : Config.Others j c d := Config.exec_others hexec hj
  cases hstage with
  | waiting hnone heq =>
      refine .waiting (fun e he => ?_) heq
      rw [(Config.exec_eq_some hexec).2, List.mem_append, List.mem_singleton] at he
      rcases he with hold | rfl
      · exact hnone e hold
      · exact Ne.symm hj
  | quiet huses => exact .quiet huses
  | working id hopens hfresh huntil =>
      by_cases hfinished : p.finished
      · refine .quiet ?_
        cases p with
        | ret | raise => exact trivial
        | call => cases hfinished
      · obtain ⟨e, he, heopens⟩ := hopens
        refine .working id ⟨e, hothers.own_eq ▸ he, heopens⟩ (fun h => ?_) huntil
        rcases hfailed id h with hold | hop
        · exact hfresh hold
        · exact halone id hop hfinished e he heopens

end step

/-- What guarded runs keep. -/
structure FailureInvariant (p : AgentPool settings (workflow deps)) : Prop where
  kept : FailedKept p.config
  made : ∀ e ∈ p.config.history, e.task < p.tasks.length
  stage : ∀ (i : Nat) (t : Task _ Request ExecutionError Reply), p.tasks[i]? = some t →
    Stage p.config i t.request t.rest

theorem failureInvariant_of_reachable {p : AgentPool settings (workflow deps)}
    (h : (system settings (workflow deps)).ReachableVia FailsAlone p) : FailureInvariant p := by
  refine h.invariant ?_ ?_
  · rintro p ⟨-, hhist, htasks⟩
    refine ⟨?_, by simp [hhist], fun i t ht => by simp [htasks] at ht⟩
    rintro id ⟨e, he, -⟩
    simp [hhist] at he
  · intro p m q hp hok hstep
    rcases Pool.step_cases hstep with ⟨r, rfl, rfl⟩ |
      ⟨i, x, r, op, k, a, c, rfl, htask, hexec, rfl⟩
    · refine ⟨hp.kept, fun e he => ?_, fun j t ht => ?_⟩
      · have := hp.made e he
        rw [List.length_append]
        omega
      · rcases Pool.task_start ht with hold | ⟨rfl, rfl⟩
        · exact hp.stage j t hold
        · exact .waiting (fun e he => Nat.ne_of_lt (hp.made e he)) rfl
    · obtain ⟨hkept, hstage, hfailed⟩ := (hp.stage i _ htask).exec hp.kept hexec
      refine ⟨hkept, fun e he => ?_, fun j t ht => ?_⟩
      · rw [List.length_set]
        rw [(Config.exec_eq_some hexec).2, List.mem_append, List.mem_singleton] at he
        rcases he with hold | rfl
        · exact hp.made e hold
        · exact (List.getElem?_eq_some_iff.mp htask).1
      · rcases Pool.task_step ht with ⟨rfl, rfl⟩ | ⟨hj, hold⟩
        · exact hstage
        · refine (hp.stage j t hold).others hj hexec hfailed fun id hop hrest => ?_
          cases op with
          | updateSession id' update =>
              obtain ⟨rfl, hphase⟩ := hop
              exact hok r id' update k htask hphase j t hj hold hrest
          | _ => exact hop.elim

/-- **FAILED is terminal**, in every run in which a session is made FAILED only while no other
request that works on it is under way. -/
theorem failed_stays {p : AgentPool settings (workflow deps)}
    (h : (system settings (workflow deps)).ReachableVia FailsAlone p) : FailedStays p :=
  (failureInvariant_of_reachable h).kept

end failure

/-! ## Two runs -/

/-- `FailsAlone` holds when nobody else is under way. -/
def aloneCheck (p : SamplePool) : SampleMove → Bool
  | .start _ => true
  | .step i _ => p.tasks.zipIdx.all fun (t, j) => j = i || t.rest.head.isNone

theorem failsAlone_of_check (p : SamplePool) (m : SampleMove) (h : aloneCheck p m = true) :
    FailsAlone p m := by
  cases m with
  | start r => exact trivial
  | step i x =>
      intro r id update k _ _ j t hj htask hrest
      have hmem : (t, j) ∈ p.tasks.zipIdx := List.mk_mem_zipIdx_iff_getElem?.mpr htask
      have hdone := List.all_eq_true.mp h _ hmem
      simp only [hj, decide_false, Bool.false_or, Option.isNone_iff_eq_none] at hdone
      exact absurd hdone hrest

/-- A session about an alarm of a device. -/
def devicePayload : CreateSessionRequest :=
  ⟨.chat, some "site-1", some "pcs-1", some "alarm-1", some "fan", nofun⟩

/-- A call at time `now` at which the device profile cannot be read. -/
def brokenInput (now : Nat) (runId : String) : CallInput (workflow sampleDeps) :=
  ⟨now, "", runId, "", { sampleEnvironment with device := ⟨true, .ok, none, false⟩ }⟩

def deviceSession : List SampleMove :=
  [.start (.createSession devicePayload none "trace-1")] ++
    calls 0 [sampleInput 1 "session-1" "run-1", sampleInput 1 "" "run-1'", sampleInput 1 "" ""]

/-- A question that fails, and one that is refused then. -/
def refusedMoves : List SampleMove :=
  deviceSession ++ [.start (.diagnose sampleQuestion none "trace-2" none)] ++
    calls 1 (List.replicate 13 (brokenInput 2 "run-2")) ++
    [.start (.diagnose sampleQuestion none "trace-3" none)] ++ calls 2 [brokenInput 3 ""]

def hasFailed (p : SamplePool) : Bool := p.config.history.any (failedBy "session-1")

theorem failed_session_stays : ∃ p, sampleSystem.ReachableVia FailsAlone p ∧
    hasFailed p = true ∧ FailedStays p := by
  have hends : ((sampleSystem.runChecked aloneCheck emptyPool refusedMoves).any
      fun p => hasFailed p) = true := by decide +kernel
  obtain ⟨p, hrun, hfailed⟩ := (Option.any_eq_true _ _).mp hends
  have hreach : sampleSystem.ReachableVia FailsAlone p :=
    TransitionSystem.ReachableVia.of_runChecked failsAlone_of_check (.init emptyPool_init) hrun
  exact ⟨p, hreach, hfailed, failed_stays hreach⟩

/-- The first question is under way when the second one fails, and goes on after that. -/
def revivedMoves : List SampleMove :=
  deviceSession ++ [.start (.diagnose sampleQuestion none "trace-2" none),
      .start (.diagnose sampleQuestion none "trace-3" none)] ++
    calls 1 (List.replicate 5 (sampleInput 2 "" "run-2")) ++
    calls 2 (List.replicate 13 (brokenInput 2 "run-3")) ++
    calls 1 [sampleInput 2 "" ""]

/-- A run that is under way takes a FAILED session back to INIT. -/
theorem failed_session_revived : ¬ ∀ p, sampleSystem.Reachable p → FailedStays p := by
  intro hall
  have hends : ((sampleSystem.run emptyPool revivedMoves).any fun p => hasFailed p &&
      (p.config.store.session "session-1").all fun row => row.phase = .init) = true := by
    decide +kernel
  obtain ⟨p, hrun, hrevived⟩ := (Option.any_eq_true _ _).mp hends
  obtain ⟨hfailed, hinit⟩ := Bool.and_eq_true_iff.mp hrevived
  have hreach : sampleSystem.Reachable p :=
    TransitionSystem.Reachable.of_run (.init emptyPool_init) hrun
  obtain ⟨row, hrow, hphase⟩ := hall p hreach "session-1" (List.any_eq_true.mp hfailed)
  rw [hrow] at hinit
  simp [hphase] at hinit

end EnergyAgent.Agent
