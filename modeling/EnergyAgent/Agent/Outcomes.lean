import EnergyAgent.Agent.CallRules
import EnergyAgent.Lib.Runs

/-!
# What a request leaves when it runs alone

For one session: its row and its memory after a whole run of each program, case by case. A run of
`diagnose` that has recorded its run ends in one of four ways (`RunOutcome`); how much of the
workflow the memory shows is said by `Progress`.
-/

namespace EnergyAgent.Agent

open EnergyAgent.Lib

section outcomes

variable {settings : DedupSettings} {rt : Runtime} {ok : CallInput rt → Prop} {α : Type}
  {s t : Store} {id : String}

/-! ## One call -/

/-- The row of a session after a call. -/
def Op.onSession (id : String) : (op : Op rt) → Ans rt op → Option SessionRow → Option SessionRow
  | .createSession values, (sessionId, runId), row =>
      row.or (if (values sessionId runId).id = id then some (values sessionId runId) else none)
  | .updateSession id' update, _, row => if id' = id then row.map update.apply else row
  | _, _, row => row

/-- The memory of a session after a call. -/
def Op.onMemory (id : String) : Op rt → Option SessionMemory → Option SessionMemory
  | .saveMemory payload, memory => if payload.sessionId = id then some payload else memory
  | .expireMemory id', memory => if id' = id then none else memory
  | _, memory => memory

theorem exec_session {op : Op rt} {x : CallInput rt} {a : Ans rt op}
    (h : exec settings op x s = some (a, t)) (id : String) :
    t.session id = op.onSession id a (s.session id) := by
  cases op with
  | createSession values =>
      obtain ⟨-, -, hsessions, -⟩ := exec_createSession h
      unfold Store.session Table.get
      rw [hsessions, List.find?_append]
      congr 1
      simp only [List.find?_singleton, decide_eq_true_eq]
  | updateSession id' update =>
      rw [session_update (exec_updateSession h).2 id]
      simp only [Op.onSession]
      by_cases hid : id = id'
      · simp [hid]
      · simp [hid, Ne.symm hid]
  | _ =>
      unfold Store.session
      rw [(exec_frame h).sessions (by simp [Op.writes])]
      rfl

theorem exec_memory {op : Op rt} {x : CallInput rt} {a : Ans rt op}
    (h : exec settings op x s = some (a, t)) (id : String) :
    t.memory id = op.onMemory id (s.memory id) := by
  cases op with
  | saveMemory payload =>
      obtain ⟨-, rfl⟩ := Prod.mk.inj (Option.some.inj (exec_eq_some h).2)
      simp only [Op.onMemory, Store.memory]
      split
      · next hid => rw [← hid, Table.get_upsert_self]
      · next hid => exact Table.get_upsert_ne _ (Ne.symm hid)
  | expireMemory id' =>
      obtain ⟨-, rfl⟩ := Prod.mk.inj (Option.some.inj (exec_eq_some h).2)
      simp only [Op.onMemory, Store.memory, Table.get_delete]
      by_cases hid : id = id'
      · simp [hid]
      · simp [hid, Ne.symm hid]
  | _ =>
      unfold Store.memory
      rw [(exec_frame h).memories (by simp [Op.writes])]
      rfl

/-- The calls that leave every session and every memory as they are. -/
def Op.Quiet : Op rt → Prop
  | .createSession _ | .updateSession _ _ | .saveMemory _ | .expireMemory _ => False
  | _ => True

/-- The row and the memory of a session are as they were. -/
structure Untouched (id : String) (s t : Store) : Prop where
  session : t.session id = s.session id
  memory : t.memory id = s.memory id

theorem Untouched.refl : Untouched id s s := ⟨rfl, rfl⟩

theorem Untouched.trans {u : Store} (h : Untouched id s t) (h' : Untouched id t u) :
    Untouched id s u :=
  ⟨h'.session.trans h.session, h'.memory.trans h.memory⟩

theorem exec_quiet {op : Op rt} {x : CallInput rt} {a : Ans rt op}
    (h : exec settings op x s = some (a, t)) (hop : op.Quiet) : Untouched id s t := by
  have hsession := exec_session h id
  have hmemory := exec_memory h id
  cases op with
  | createSession | updateSession | saveMemory | expireMemory => exact hop.elim
  | _ => exact ⟨hsession, hmemory⟩

/-- A run of quiet calls. -/
theorem runs_quiet {p : Call settings rt α} {calls : List (backend settings rt).Call}
    {r : Except ExecutionError α} (h : p.Runs ok s calls r t) (huses : p.Uses Op.Quiet) :
    Untouched id s t :=
  h.preserves huses (P := Untouched id s)
    (fun _ _ _ _ _ hop hexec hs => hs.trans (exec_quiet hexec hop)) .refl

/-- Nothing but reads has happened. -/
structure Later (s u : Store) : Prop where
  sessions : u.sessions = s.sessions
  memories : u.memories = s.memories
  runs : u.runs = s.runs
  drawn : ∀ id ∈ s.drawn, id ∈ u.drawn
  clock : s.clock ≤ u.clock

theorem Later.refl : Later s s := ⟨rfl, rfl, rfl, fun _ h => h, Nat.le_refl _⟩

theorem Later.trans {u : Store} (h : Later s t) (h' : Later t u) : Later s u where
  sessions := h'.sessions.trans h.sessions
  memories := h'.memories.trans h.memories
  runs := h'.runs.trans h.runs
  drawn id hid := h'.drawn id (h.drawn id hid)
  clock := h.clock.trans h'.clock

theorem later_of_read {op : Op rt} {x : CallInput rt} {a : Ans rt op}
    (hexec : exec settings op x s = some (a, t)) (hread : op.writes = none) : Later s t := by
  have hframe := exec_frame hexec
  have hne : ∀ name, op.writes ≠ some name := by simp [hread]
  exact ⟨hframe.sessions (hne _), hframe.memories (hne _), hframe.runs (hne _), hframe.drawn,
    hframe.clock.1.trans hframe.clock.2.ge⟩

theorem Later.session (h : Later s t) (id : String) : t.session id = s.session id := by
  unfold Store.session
  rw [h.sessions]

theorem Later.memory (h : Later s t) (id : String) : t.memory id = s.memory id := by
  unfold Store.memory
  rw [h.memories]

theorem Later.untouched (h : Later s t) (id : String) : Untouched id s t :=
  ⟨h.session id, h.memory id⟩

section inversion

variable {calls : List (backend settings rt).Call}

/-- A call, and what follows its answer. -/
theorem runs_ask_bind {op : Op rt} {f : Ans rt op → Call settings rt α}
    {r : Except ExecutionError α} (h : (ask op >>= f).Runs ok s calls r t) :
    ∃ x a u rest, ok x ∧ exec settings op x s = some (a, u) ∧ (f a).Runs ok u rest r t ∧
      calls = ⟨op, a⟩ :: rest :=
  Proc.runs_call h

theorem runs_orRaise_bind {β : Type} {e : ExecutionError} {o : Option β}
    {f : β → Call settings rt α} {r : Except ExecutionError α}
    (h : (orRaise e o >>= f).Runs ok s calls r t) :
    (o = none ∧ calls = [] ∧ r = .error e ∧ t = s) ∨
      ∃ a, o = some a ∧ (f a).Runs ok s calls r t := by
  cases o with
  | none => exact Or.inl ⟨rfl, Proc.runs_raise h⟩
  | some a => exact Or.inr ⟨a, rfl, h⟩

theorem runs_liftExcept_bind {β : Type} {result : Except ExecutionError β}
    {f : β → Call settings rt α} {r : Except ExecutionError α}
    (h : (liftExcept settings result >>= f).Runs ok s calls r t) :
    (∃ e, result = .error e ∧ calls = [] ∧ r = .error e ∧ t = s) ∨
      ∃ a, result = .ok a ∧ (f a).Runs ok s calls r t := by
  cases result with
  | error e => exact Or.inl ⟨e, rfl, Proc.runs_raise h⟩
  | ok a => exact Or.inr ⟨a, rfl, h⟩

/-- An update of a session that is stored. -/
theorem runs_updateSession_bind {update : SessionUpdate} {f : Unit → Call settings rt α}
    {r : Except ExecutionError α} {row : SessionRow} (hrow : s.session id = some row)
    (h : ((updateSession id update : Call settings rt Unit) >>= f).Runs ok s calls r t) :
    ∃ (x : CallInput rt) (u : Store) (rest : List (backend settings rt).Call),
      exec settings (.updateSession id update) x s = some (true, u) ∧
      u.session id = some (update.apply row) ∧ u.memory id = s.memory id ∧
      (f ()).Runs ok u rest r t ∧ calls = ⟨.updateSession id update, true⟩ :: rest := by
  obtain ⟨x, a, u, rest, -, hexec, hrest, rfl⟩ := Proc.runs_call h
  obtain rfl : a = true := by
    rw [(exec_updateSession hexec).1, hrow]
    rfl
  have hsession := exec_session hexec id
  have hmemory := exec_memory hexec id
  refine ⟨x, u, rest, hexec, ?_, hmemory, ?_, rfl⟩
  · simpa [Op.onSession, hrow] using hsession
  · exact hrest

/-! ## The workflow -/

section workflow

variable {interrupt : Interrupt} {row : SessionRow}

/-- What is saved after a node. -/
def savedMemory (n : rt.Node) (progress : DiagnosisState) : SessionMemory :=
  { memoryPayload progress none with lastCompletedNode := some (rt.name n) }

theorem runs_awaitPoint_bind {k : Nat} {point : CancelPoint} {f : Unit → Call settings rt α}
    {r : Except ExecutionError α}
    (h : (awaitPoint settings interrupt k point >>= f).Runs ok s calls r t) :
    (interrupt = some (k, point) ∧ calls = [] ∧ r = .error .cancelled ∧ t = s) ∨
      (f ()).Runs ok s calls r t :=
  (Proc.runs_raiseIf_bind h).imp_right And.right

theorem runs_recordTemplate_bind {progress : DiagnosisState} {f : Unit → Call settings rt α}
    {r : Except ExecutionError α} (id : String)
    (h : (recordTemplate settings progress >>= f).Runs ok s calls r t) :
    ∃ u rest, Untouched id s u ∧ (f ()).Runs ok u rest r t := by
  unfold recordTemplate at h
  cases htemplate : Text.truthy progress.diagnosisTemplateId with
  | none =>
      rw [htemplate] at h
      exact ⟨s, calls, .refl, h⟩
  | some _ =>
      rw [htemplate] at h
      obtain ⟨_, _, u, rest, -, hexec, hrest, -⟩ := Proc.runs_call h
      exact ⟨u, rest, exec_quiet hexec trivial, hrest⟩

/-- The step log of a node either saves the memory, or leaves it and raises. -/
theorem runs_logStep {k : Nat} {n : rt.Node} {progress : DiagnosisState}
    {r : Except ExecutionError Unit} (hid : progress.sessionId = id)
    (hrow : s.session id = some row)
    (h : (logStep settings interrupt k n progress).Runs ok s calls r t) :
    (t.session id).isSome ∧
      ((r = .ok () ∧ t.memory id = some (savedMemory n progress)) ∨
        ∃ e, r = .error e ∧ t.memory id = s.memory id ∧
          (e = .cancelled → ∃ point, interrupt = some (k, point) ∧ point ≠ .done)) := by
  subst hid
  have hsome : (s.session progress.sessionId).isSome := by simp [hrow]
  rcases Proc.runs_raiseIf_bind h with ⟨-, -, rfl, rfl⟩ | ⟨-, hvalid⟩
  · exact ⟨hsome, Or.inr ⟨_, rfl, rfl, nofun⟩⟩
  obtain ⟨u, _, ⟨hsession, hmemory⟩, hpoint⟩ := runs_recordTemplate_bind progress.sessionId hvalid
  rcases runs_awaitPoint_bind hpoint with ⟨hcancel, -, rfl, rfl⟩ | hupdate
  · exact ⟨hsession ▸ hsome, Or.inr ⟨_, rfl, hmemory, fun _ => ⟨_, hcancel, nofun⟩⟩⟩
  obtain ⟨_, v, _, -, hrow', hmemory', hpoint', -⟩ :=
    runs_updateSession_bind (hsession.trans hrow) hupdate
  rcases runs_awaitPoint_bind hpoint' with ⟨hcancel, -, rfl, rfl⟩ | hsave
  · exact ⟨by simp [hrow'], Or.inr ⟨_, rfl, hmemory'.trans hmemory,
      fun _ => ⟨_, hcancel, nofun⟩⟩⟩
  obtain ⟨_, _, w, _, -, hexec, hend, -⟩ := Proc.runs_call hsave
  obtain ⟨-, rfl, rfl⟩ := Proc.runs_ret hend
  have hsaved := exec_memory hexec progress.sessionId
  refine ⟨?_, Or.inl ⟨rfl, ?_⟩⟩
  · rw [exec_session hexec progress.sessionId]
    simp [Op.onSession, hrow']
  · simpa [Op.onMemory, memoryPayload, savedMemory] using hsaved

/-- How the workflow ends: nothing has been saved, or the memory of its run has. -/
inductive WorkflowEnd (interrupt : Interrupt) (k : Nat) (state : DiagnosisState) (id : String)
    (s t : Store) : Except ExecutionError DiagnosisState → Prop
  | unsaved {e : ExecutionError} (hmemory : t.memory id = s.memory id)
      (hpoint : e = .cancelled → ∃ point, interrupt = some (k, point) ∧ point ≠ .done) :
      WorkflowEnd interrupt k state id s t (.error e)
  | saved {r : Except ExecutionError DiagnosisState} {m : SessionMemory}
      (hmemory : t.memory id = some m) (hrevision : m.memoryRevision = state.memoryRevision)
      (hpoint : r = .error .cancelled →
        ∃ k' point, interrupt = some (k', point) ∧ (k < k' ∨ (k = k' ∧ point = .done))) :
      WorkflowEnd interrupt k state id s t r

/-- **The workflow**, from its `k`-th node on. -/
theorem runs_runGraph {limit k : Nat} {n : rt.Node} {state : DiagnosisState}
    {toolData : rt.ToolData} {r : Except ExecutionError DiagnosisState}
    (hid : state.sessionId = id) (hrow : s.session id = some row)
    (h : (runGraph settings interrupt limit k n state toolData).Runs ok s calls r t) :
    (t.session id).isSome ∧ WorkflowEnd interrupt k state id s t r := by
  have hsome : (s.session id).isSome := by simp [hrow]
  induction limit generalizing k n state toolData s calls row with
  | zero =>
      obtain ⟨-, rfl, rfl⟩ := Proc.runs_raise h
      exact ⟨hsome, .unsaved rfl nofun⟩
  | succ limit ih =>
      rcases runs_awaitPoint_bind h with ⟨hcancel, -, rfl, rfl⟩ | hnode
      · exact ⟨hsome, .unsaved rfl fun _ => ⟨_, hcancel, nofun⟩⟩
      obtain ⟨x, outcome, u, rest, -, hexec, hstep, -⟩ := Proc.runs_call hnode
      obtain ⟨hsession, hmemory⟩ : Untouched id s u := exec_quiet hexec trivial
      cases outcome with
      | failed =>
          obtain ⟨-, rfl, rfl⟩ := Proc.runs_raise hstep
          exact ⟨hsession ▸ hsome, .unsaved hmemory nofun⟩
      | done state' toolData' written =>
          have hsame := sameRun_of_answers ⟨x, s, u, hexec⟩
          have hid' : state'.sessionId = id := hsame.sessionId.trans hid
          rcases Proc.runs_bind (x := logStep settings interrupt k n state') hstep with ⟨_, _, v, after, hlog, hrest, -⟩ | ⟨e, hlog, rfl⟩
          · obtain ⟨hsome', ⟨-, hsaved⟩ | ⟨e, herror, -⟩⟩ :=
              runs_logStep hid' (hsession.trans hrow) hlog
            · have hrevision : (savedMemory n state').memoryRevision = state.memoryRevision :=
                hsame.memoryRevision
              rcases runs_awaitPoint_bind hrest with ⟨hcancel, -, rfl, rfl⟩ | hnext
              · exact ⟨hsome', .saved hsaved hrevision
                  fun _ => ⟨_, _, hcancel, Or.inr ⟨rfl, rfl⟩⟩⟩
              cases hm : rt.next n state' with
              | none =>
                  rw [hm] at hnext
                  obtain ⟨-, rfl, rfl⟩ := Proc.runs_ret hnext
                  exact ⟨hsome', .saved hsaved hrevision nofun⟩
              | some m =>
                  rw [hm] at hnext
                  obtain ⟨row', hrow'⟩ := Option.isSome_iff_exists.mp hsome'
                  obtain ⟨hsome'', hend⟩ := ih hid' hrow' hnext hsome'
                  refine ⟨hsome'', ?_⟩
                  cases hend with
                  | unsaved hmemory' hpoint =>
                      refine .saved (hmemory'.trans hsaved) hrevision fun hcancelled => ?_
                      obtain ⟨point, hcancel, -⟩ := hpoint (Except.error.inj hcancelled)
                      exact ⟨_, _, hcancel, Or.inl (Nat.lt_succ_self _)⟩
                  | saved hmemory' hrevision' hpoint =>
                      refine .saved hmemory' (hrevision'.trans hsame.memoryRevision)
                        fun hcancelled => ?_
                      obtain ⟨k', point, hcancel, hlt⟩ := hpoint hcancelled
                      exact ⟨k', point, hcancel, Or.inl (by omega)⟩
            · cases herror
          · obtain ⟨hsome', ⟨herror, -⟩ | ⟨e', herror, hsaved, hpoint⟩⟩ :=
              runs_logStep hid' (hsession.trans hrow) hlog
            · cases herror
            · cases herror
              exact ⟨hsome', .unsaved (hsaved.trans hmemory) hpoint⟩

end workflow

/-! ## `diagnose` -/

theorem onWorkflowError_of_ne {session : SessionRow} {runId : String} {e : ExecutionError}
    (h : e ≠ .cancelled) :
    (onWorkflowError settings id session runId e : Call settings rt α) =
      (ask (.finishRun runId .failed "failed") >>= fun _ =>
        updateSession id { phase := some .failed, runId := some runId } >>= fun _ => .raise e) := by
  cases e <;> first | rfl | exact absurd rfl h

/-- The cancel clause gives the session row back. -/
theorem runs_cancelled {session row : SessionRow} {runId : String} {r : Except ExecutionError α}
    (hrow : s.session id = some row)
    (h : (onWorkflowError settings id session runId .cancelled).Runs ok s calls r t) :
    r = .error .cancelled ∧ t.memory id = s.memory id ∧
      ∃ row', t.session id = some row' ∧ row'.phase = session.phase ∧
        row'.runId = session.runId := by
  obtain ⟨_, _, u, _, -, hexec, hupdate, -⟩ := Proc.runs_call h
  obtain ⟨hsession, hmemory⟩ : Untouched id s u := exec_quiet hexec trivial
  obtain ⟨_, v, _, -, hrow', hmemory', hend, -⟩ :=
    runs_updateSession_bind (hsession.trans hrow) hupdate
  obtain ⟨-, rfl, rfl⟩ := Proc.runs_raise hend
  exact ⟨rfl, hmemory'.trans hmemory, _, hrow', rfl, rfl⟩

/-- The exception clause fails the session. -/
theorem runs_failed {session row : SessionRow} {runId : String} {e : ExecutionError}
    {r : Except ExecutionError α} (he : e ≠ .cancelled) (hrow : s.session id = some row)
    (h : (onWorkflowError settings id session runId e).Runs ok s calls r t) :
    r = .error e ∧ t.memory id = s.memory id ∧
      (∃ row', t.session id = some row' ∧ row'.phase = .failed ∧ row'.runId = runId) ∧
      ⟨.finishRun runId .failed "failed", ()⟩ ∈ calls := by
  rw [onWorkflowError_of_ne he] at h
  obtain ⟨_, _, u, _, -, hexec, hupdate, rfl⟩ := Proc.runs_call h
  obtain ⟨hsession, hmemory⟩ : Untouched id s u := exec_quiet hexec trivial
  obtain ⟨_, v, _, -, hrow', hmemory', hend, -⟩ :=
    runs_updateSession_bind (hsession.trans hrow) hupdate
  obtain ⟨-, rfl, rfl⟩ := Proc.runs_raise hend
  exact ⟨rfl, hmemory'.trans hmemory, ⟨_, hrow', rfl, rfl⟩, List.mem_cons_self ..⟩

theorem runs_finishDiagnosis {row : SessionRow} {runId : String} {state : DiagnosisState}
    {r : Except ExecutionError DiagnosisResponse} (hid : state.sessionId = id)
    (hrow : s.session id = some row)
    (h : (finishDiagnosis settings id runId state).Runs ok s calls r t) :
    r = .ok (finalResponse state) ∧ t.memory id = some (memoryPayload state state.finalResponse) ∧
      ∃ row', t.session id = some row' ∧ row'.phase = state.phase ∧ row'.runId = runId := by
  obtain ⟨_, _, u, _, -, htemplate, h₁, -⟩ := Proc.runs_call h
  obtain ⟨_, _, v, _, -, hfinish, h₂, -⟩ := Proc.runs_call h₁
  have hquiet : Untouched id s v := (exec_quiet htemplate trivial).trans (exec_quiet hfinish trivial)
  obtain ⟨_, w, _, -, hrow', -, h₃, -⟩ := runs_updateSession_bind (hquiet.session.trans hrow) h₂
  obtain ⟨_, _, z, _, -, hsave, h₄, -⟩ := Proc.runs_call h₃
  obtain ⟨-, rfl, rfl⟩ := Proc.runs_ret h₄
  refine ⟨rfl, ?_, _, (exec_session hsave id).trans hrow', rfl, rfl⟩
  rw [exec_memory hsave id]
  exact if_pos hid

/-- The run that the call has recorded; every other run was there before. -/
structure NewRun (id : String) (s t : Store) (runId : String) (time : Nat) : Prop where
  fresh : runId ∉ s.drawn
  drawn : runId ∈ t.drawn
  unused : ∀ run ∈ s.runs, run.id ≠ runId
  clock : s.clock ≤ time
  stored : ∃ run ∈ t.runs, run.id = runId ∧ run.sessionId = id ∧ run.createdAt = time
  others : ∀ run ∈ t.runs, run.createdAt = time ∨ ∃ old ∈ s.runs, old.Same run

theorem NewRun.exec {op : Op rt} {x : CallInput rt} {a : Ans rt op} {u : Store} {runId : String}
    {time : Nat} (h : NewRun id s t runId time) (hop : ∀ values, op ≠ .createRun values)
    (hexec : exec settings op x t = some (a, u)) : NewRun id s u runId time where
  fresh := h.fresh
  drawn := (exec_frame hexec).drawn _ h.drawn
  unused := h.unused
  clock := h.clock
  stored := by
    obtain ⟨run, hrun, hid, hsession, htime⟩ := h.stored
    obtain ⟨run', hrun', hsame⟩ := exec_runs_kept hexec run hrun
    exact ⟨run', hrun', hsame.id.trans hid, hsame.sessionId.trans hsession,
      hsame.createdAt.trans htime⟩
  others := by
    intro run hrun
    obtain ⟨before, hbefore, hsame⟩ := exec_runs hexec hop run hrun
    rcases h.others before hbefore with htime | ⟨old, hold, hsame'⟩
    · exact Or.inl (hsame.createdAt.trans htime)
    · exact Or.inr ⟨old, hold, hsame'.trans hsame⟩

/-- A run that is accepted. -/
theorem newRun_of_createRun {values : String → RunRow} {x : CallInput rt} {runId : String}
    (hvalues : ∀ id', (values id').id = id' ∧ (values id').sessionId = id)
    (hexec : exec settings (.createRun values) x s = some (some runId, t)) :
    NewRun id s t runId x.now := by
  have hclock := (exec_frame hexec).clock.1
  have h := (exec_eq_some hexec).2
  simp only [execNow] at h
  split at h
  · cases h
  · next hfresh =>
      simp only [createRun] at h
      split at h
      · cases h
      · next haccepted =>
          obtain ⟨hid, hsession⟩ := hvalues x.runId
          obtain ⟨ha, rfl⟩ := Prod.mk.inj (Option.some.inj h)
          obtain rfl : x.runId = runId := hid.symm.trans (Option.some.inj ha)
          push Not at haccepted
          refine ⟨hfresh, List.mem_cons_self .., ?_, hclock, ?_, ?_⟩
          · intro run hrun heq
            refine absurd (List.any_eq_true.mpr ⟨run, hrun, ?_⟩) haccepted.1
            simp [heq, hid]
          · exact ⟨_, List.mem_append_right _ (List.mem_singleton_self _), hid, hsession, rfl⟩
          · intro run hrun
            rcases List.mem_append.mp hrun with hold | hnew
            · exact Or.inr ⟨run, hold, .refl run⟩
            · rw [List.mem_singleton.mp hnew]
              exact Or.inl rfl

theorem newRun_kept {u : Store} {runId : String} {time : Nat} {p : Call settings rt α}
    {r : Except ExecutionError α} (h : NewRun id s t runId time) (hrun : p.Runs ok t calls r u)
    (huses : p.Uses fun op : Op rt => ∀ values, op ≠ .createRun values) : NewRun id s u runId time :=
  hrun.preserves huses (P := fun v => NewRun id s v runId time)
    (fun _ _ _ _ _ hop hexec hnew => hnew.exec hop hexec) h

/-- The workflow creates no run. -/
theorem workflow_creates_no_run :
    WorkflowCalls id fun op : Op rt => ∀ values, op ≠ .createRun values where
  node _ _ _ _ := nofun
  setTemplate _ _ _ _ _ := nofun
  finishRun _ _ _ _ := nofun
  updateSession _ _ := nofun
  saveMemory _ _ _ _ _ := nofun

section diagnose

variable {payload : ChatRequest} {key : Option String} {traceId : String} {interrupt : Interrupt}
  {session : SessionRow} {memory : Option SessionMemory} {runId : String}

theorem initialState_error {e : ExecutionError}
    (h : initialState payload session memory runId traceId = .error e) : e = .validationError := by
  have hdevice : ∀ e, initialDevice session memory = .error e → e = .validationError := by
    intro e he
    unfold initialDevice at he
    repeat' split at he
    all_goals cases he
    rfl
  have halarm : ∀ e, initialAlarm session memory = .error e → e = .validationError := by
    intro e he
    unfold initialAlarm at he
    repeat' split at he
    all_goals cases he
    rfl
  unfold initialState at h
  cases hd : initialDevice session memory with
  | error e' =>
      simp only [hd, bind, Except.bind, Except.error.injEq] at h
      exact h ▸ hdevice e' hd
  | ok device =>
      cases ha : initialAlarm session memory with
      | error e' =>
          simp only [hd, ha, bind, Except.bind, Except.error.injEq] at h
          exact h ▸ halarm e' ha
      | ok alarm =>
          simp only [hd, ha, bind, Except.bind, pure, Except.pure] at h
          cases h

variable (payload session runId interrupt traceId) in
/-- **How a recorded run ends**, for the row and the memory of its session. -/
inductive RunOutcome (s t : Store) (calls : List (backend settings rt).Call) :
    Except ExecutionError DiagnosisResponse → Prop
  /-- The contexts that the memory has stored are refused. -/
  | invalid {row : SessionRow}
      (hinvalid : initialState payload session (s.memory payload.sessionId) runId traceId =
        .error .validationError)
      (hrow : t.session payload.sessionId = some row) (hphase : row.phase = .init)
      (hrun : row.runId = runId) (hmemory : t.memory payload.sessionId = s.memory payload.sessionId) :
      RunOutcome s t calls (.error .validationError)
  | cancelled {row : SessionRow} (hrow : t.session payload.sessionId = some row)
      (hphase : row.phase = session.phase) (hrun : row.runId = session.runId)
      (hmemory : (t.memory payload.sessionId = s.memory payload.sessionId ∧
          ∃ point, interrupt = some (0, point) ∧ point ≠ .done) ∨
        ∃ m k point, t.memory payload.sessionId = some m ∧
          m.memoryRevision =
            ((s.memory payload.sessionId).map fun old => old.memoryRevision + 1).getD 1 ∧
          interrupt = some (k, point) ∧ (0 < k ∨ point = .done)) :
      RunOutcome s t calls (.error .cancelled)
  | failed {e : ExecutionError} {row : SessionRow} (he : e ≠ .cancelled)
      (hrow : t.session payload.sessionId = some row) (hphase : row.phase = .failed)
      (hrun : row.runId = runId) (hfailed : ⟨.finishRun runId .failed "failed", ()⟩ ∈ calls) :
      RunOutcome s t calls (.error e)
  | finished {state : DiagnosisState} {row : SessionRow}
      (hrow : t.session payload.sessionId = some row) (hphase : row.phase = state.phase)
      (hrun : row.runId = runId)
      (hmemory : t.memory payload.sessionId = some (memoryPayload state state.finalResponse)) :
      RunOutcome s t calls (.ok (finalResponse state))

theorem runs_runDiagnosis {r : Except ExecutionError DiagnosisResponse} {row : SessionRow}
    (hrow : s.session payload.sessionId = some row) (hmem : s.memory payload.sessionId = memory)
    (h : (runDiagnosis settings payload traceId interrupt session memory runId).Runs ok s calls r t) :
    RunOutcome payload traceId interrupt session runId s t calls r := by
  subst hmem
  obtain ⟨_, u, rest, -, hrow', hmemory', hinit, rfl⟩ := runs_updateSession_bind hrow h
  rcases runs_liftExcept_bind hinit with ⟨e, hinvalid, rfl, rfl, rfl⟩ | ⟨initial, hinitial, hrun⟩
  · obtain rfl := initialState_error hinvalid
    exact .invalid hinvalid hrow' rfl rfl hmemory'
  obtain ⟨hid, hrunId, hrevision, -⟩ := initialState_eq_ok payload traceId hinitial
  rcases Proc.runs_bind hrun with ⟨state, before, w, after, hhandled, hfinish, rfl⟩ |
    ⟨e, hhandled, rfl⟩
  · rcases Proc.runs_handle hhandled with ⟨_, hgraph, hok⟩ | ⟨e, _, v, _, hgraph, herror, -⟩
    · cases hok
      obtain ⟨hsome, -⟩ := runs_runGraph hid hrow' hgraph
      obtain ⟨row'', hrow''⟩ := Option.isSome_iff_exists.mp hsome
      have hsame := hgraph.returns (returns_runGraph interrupt _ _ _ _ _)
      obtain ⟨rfl, hmemory, row₃, hrow₃, hphase, hrun₃⟩ :=
        runs_finishDiagnosis (hsame.sessionId.trans hid) hrow'' hfinish
      exact .finished hrow₃ hphase hrun₃ hmemory
    · obtain ⟨hsome, -⟩ := runs_runGraph hid hrow' hgraph
      obtain ⟨row'', hrow''⟩ := Option.isSome_iff_exists.mp hsome
      by_cases he : e = .cancelled
      · subst he
        cases (runs_cancelled hrow'' herror).1
      · cases (runs_failed he hrow'' herror).1
  · rcases Proc.runs_handle hhandled with ⟨_, _, hok⟩ | ⟨e', before, v, after, hgraph, herror, rfl⟩
    · cases hok
    obtain ⟨hsome, hend⟩ := runs_runGraph hid hrow' hgraph
    obtain ⟨row'', hrow''⟩ := Option.isSome_iff_exists.mp hsome
    by_cases he : e' = .cancelled
    · subst he
      obtain ⟨hr, hmemory, row₃, hrow₃, hphase, hrun₃⟩ := runs_cancelled hrow'' herror
      cases hr
      refine .cancelled hrow₃ hphase hrun₃ ?_
      cases hend with
      | unsaved hmemory'' hpoint =>
          exact Or.inl ⟨hmemory.trans (hmemory''.trans hmemory'), hpoint rfl⟩
      | saved hmemory'' hrevision' hpoint =>
          obtain ⟨k, point, hcancel, hlt⟩ := hpoint rfl
          exact Or.inr ⟨_, k, point, hmemory.trans hmemory'', hrevision'.trans hrevision, hcancel,
            hlt.imp id And.right⟩
    · obtain ⟨hr, hmemory, ⟨row₃, hrow₃, hphase, hrun₃⟩, hfailed⟩ := runs_failed he hrow'' herror
      cases hr
      refine .failed he hrow₃ hphase hrun₃ ?_
      exact List.mem_cons_of_mem _ (List.mem_append_right _ hfailed)

variable (payload traceId interrupt) in
/-- **How `diagnose` ends**: the session is left alone, or a run was recorded. -/
inductive DiagnoseOutcome (s t : Store) (calls : List (backend settings rt).Call) :
    Except ExecutionError DiagnosisResponse → Prop
  | untouched {r : Except ExecutionError DiagnosisResponse}
      (h : Untouched payload.sessionId s t) (hr : r ≠ .error .cancelled) :
      DiagnoseOutcome s t calls r
  | ran {session : SessionRow} {runId : String} {time : Nat}
      {r : Except ExecutionError DiagnosisResponse}
      (hsession : s.session payload.sessionId = some session)
      (hfailed : session.phase ≠ .failed) (hcompleted : session.phase ≠ .completed)
      (haccepted : checkAnswers payload (s.memory payload.sessionId) = .ok ())
      (hnew : NewRun payload.sessionId s t runId time)
      (h : RunOutcome payload traceId interrupt session runId s t calls r) :
      DiagnoseOutcome s t calls r

theorem explainPrevious_quiet : (explainPrevious settings payload key traceId memory :
    Call settings rt _).Uses Op.Quiet := by
  refine .bind ?_ fun _ => .bind (uses_ask trivial) fun _ => .bind (uses_ask trivial) fun _ =>
    .bind (uses_orRaise _ _) fun _ => .bind (uses_ask trivial) fun _ => trivial
  unfold previousResult
  cases memory.bind SessionMemory.finalResult with
  | some result => exact trivial
  | none => exact .bind (uses_ask trivial) fun _ => uses_orRaise _ _

theorem quiet_read {op : Op rt} (h : op.writes = none) : op.Quiet := by
  cases op with
  | createSession | updateSession | saveMemory | expireMemory => cases h
  | _ => exact trivial

/-- `get_session` is not cancelled. -/
theorem getSession_raises (sessionId : String) :
    (getSession settings sessionId : Call settings rt _).Raises (· ≠ .cancelled) := by
  refine .bind (fun _ _ => trivial) fun session => .bind ?_ fun _ =>
    .bind (fun _ _ => trivial) fun memory => ?_
  · cases session with
    | none => exact nofun
    | some session => exact trivial
  · cases memory with
    | some memory => exact trivial
    | none => exact .bind (fun _ _ => trivial) fun _ => .bind (fun _ _ => trivial) fun _ => trivial

theorem raises_orRaise {post : ExecutionError → Prop} {e : ExecutionError} {o : Option α}
    (h : post e) : (orRaise e o : Call settings rt α).Raises post := by
  cases o with
  | none => exact h
  | some a => exact trivial

theorem explainPrevious_raises : (explainPrevious settings payload key traceId memory :
    Call settings rt _).Raises (· ≠ .cancelled) := by
  refine .bind ?_ fun _ => .bind (fun _ _ => trivial) fun _ => .bind (fun _ _ => trivial) fun _ =>
    .bind (raises_orRaise nofun) fun _ => .bind (fun _ _ => trivial) fun _ => trivial
  unfold previousResult
  cases memory.bind SessionMemory.finalResult with
  | some result => exact trivial
  | none => exact .bind (fun _ _ => trivial) fun _ => raises_orRaise nofun

theorem checkAnswer_ne_cancelled (m : SessionMemory) (seen : List String)
    (answers : List UserFeedback) : checkAnswer m seen answers ≠ .error .cancelled := by
  induction answers generalizing seen with
  | nil => exact nofun
  | cons answer rest ih =>
      unfold checkAnswer
      repeat' split
      · exact nofun
      · exact nofun
      · exact nofun
      · exact ih _

theorem checkAnswers_ne_cancelled (h : checkAnswers payload memory = .error .cancelled) : False := by
  unfold checkAnswers at h
  repeat' split at h
  · cases h
  · cases h
  · cases h
  · exact checkAnswer_ne_cancelled _ _ _ h

theorem Later.newRun {u : Store} {time : Nat} (h : Later s t) (hnew : NewRun id t u runId time) :
    NewRun id s u runId time where
  fresh hdrawn := hnew.fresh (h.drawn _ hdrawn)
  drawn := hnew.drawn
  unused run hrun := hnew.unused run (h.runs ▸ hrun)
  clock := h.clock.trans hnew.clock
  stored := hnew.stored
  others run hrun := h.runs ▸ hnew.others run hrun

/-- The outcome, seen from an earlier store with the same memory. -/
theorem RunOutcome.from_earlier {u : Store} {calls' : List (backend settings rt).Call}
    {r : Except ExecutionError DiagnosisResponse}
    (h : RunOutcome payload traceId interrupt session runId u t calls r)
    (hmemory : u.memory payload.sessionId = s.memory payload.sessionId)
    (hcalls : ∀ c ∈ calls, c ∈ calls') :
    RunOutcome payload traceId interrupt session runId s t calls' r := by
  cases h with
  | invalid hinvalid hrow hphase hrun hmem =>
      exact .invalid (hmemory ▸ hinvalid) hrow hphase hrun (hmem.trans hmemory)
  | cancelled hrow hphase hrun hmem =>
      rw [hmemory] at hmem
      exact .cancelled hrow hphase hrun hmem
  | failed he hrow hphase hrun hfailed =>
      exact .failed he hrow hphase hrun (hcalls _ hfailed)
  | finished hrow hphase hrun hmem => exact .finished hrow hphase hrun hmem

theorem runs_diagnoseNew {u : Store} {calls' : List (backend settings rt).Call}
    {r : Except ExecutionError DiagnosisResponse} (hlater : Later s u)
    (hcalls : ∀ c ∈ calls, c ∈ calls') (hsession : s.session payload.sessionId = some session)
    (h : (diagnoseNew settings payload key traceId interrupt session).Runs ok u calls r t) :
    DiagnoseOutcome payload traceId interrupt s t calls' r := by
  rcases Proc.runs_raiseIf_bind h with ⟨-, -, rfl, rfl⟩ | ⟨hfailed, hopen⟩
  · exact .untouched (hlater.untouched _) nofun
  obtain ⟨_, memory, v, rest, -, hexec, hrest, rfl⟩ := runs_ask_bind hopen
  have hlater' : Later s v := hlater.trans (later_of_read hexec rfl)
  have hmemory : memory = s.memory payload.sessionId := by
    rw [← hlater.memory]
    exact (Prod.mk.inj (Option.some.inj (exec_eq_some hexec).2)).1.symm
  by_cases hcompleted : session.phase = .completed
  · rw [if_pos hcompleted] at hrest
    by_cases hmode : chatMode payload ≠ "explain_previous_result"
    · rw [if_pos hmode] at hrest
      obtain ⟨-, rfl, rfl⟩ := Proc.runs_raise hrest
      exact .untouched (hlater'.untouched _) nofun
    · rw [if_neg hmode] at hrest
      refine .untouched ((hlater'.untouched _).trans (runs_quiet hrest explainPrevious_quiet)) ?_
      rintro rfl
      exact hrest.raises explainPrevious_raises rfl
  rw [if_neg hcompleted] at hrest
  rcases runs_liftExcept_bind hrest with ⟨e, herror, rfl, rfl, rfl⟩ | ⟨_, haccepted, hrun⟩
  · refine .untouched (hlater'.untouched _) fun hcancelled => ?_
    cases hcancelled
    exact checkAnswers_ne_cancelled herror
  obtain ⟨x, run, w, rest', -, hcreate, hstart, rfl⟩ := runs_ask_bind hrun
  have huntouched : Untouched payload.sessionId s w :=
    (hlater'.untouched _).trans (exec_quiet hcreate trivial)
  rcases runs_orRaise_bind hstart with ⟨-, rfl, rfl, rfl⟩ | ⟨runId, rfl, hrunning⟩
  · exact .untouched huntouched nofun
  have hown := chatRun_own payload key traceId session memory
  have hnew : NewRun payload.sessionId v w runId x.now :=
    newRun_of_createRun (fun id => ⟨(hown id).1, (hown id).2.1⟩) hcreate
  have hkept : NewRun payload.sessionId v t runId x.now :=
    newRun_kept hnew hrunning (uses_runDiagnosis payload traceId interrupt workflow_creates_no_run
      session memory runId)
  have hrow := huntouched.session.trans hsession
  have hmem := huntouched.memory.trans hmemory.symm
  rw [hmemory] at haccepted
  refine .ran hsession hfailed hcompleted haccepted (hlater'.newRun hkept)
    ((runs_runDiagnosis hrow hmem hrunning).from_earlier huntouched.memory fun c hc => ?_)
  exact hcalls c (List.mem_cons_of_mem _ (List.mem_cons_of_mem _ hc))

/-- **Every run of `diagnose`.** -/
theorem runs_diagnose {r : Except ExecutionError DiagnosisResponse}
    (h : (diagnose settings payload key traceId interrupt).Runs ok s calls r t) :
    DiagnoseOutcome payload traceId interrupt s t calls r := by
  obtain ⟨_, session, u, rest, -, hexec, hrest, rfl⟩ := runs_ask_bind h
  have hlater : Later s u := later_of_read hexec rfl
  obtain hsession : s.session payload.sessionId = session :=
    (Prod.mk.inj (Option.some.inj (exec_eq_some hexec).2)).1
  rcases runs_orRaise_bind hrest with ⟨-, rfl, rfl, rfl⟩ | ⟨session, rfl, hfound⟩
  · exact .untouched (hlater.untouched _) nofun
  cases hkey : Text.truthy key with
  | none =>
      rw [hkey] at hfound
      exact runs_diagnoseNew hlater (fun c hc => List.mem_cons_of_mem _ hc) hsession hfound
  | some k =>
      rw [hkey] at hfound
      obtain ⟨_, existing, v, rest', -, hexec', hrest', rfl⟩ := runs_ask_bind hfound
      have hlater' : Later s v := hlater.trans (later_of_read hexec' rfl)
      cases existing with
      | none =>
          refine runs_diagnoseNew hlater' (fun c hc => ?_) hsession hrest'
          exact List.mem_cons_of_mem _ (List.mem_cons_of_mem _ hc)
      | some existing =>
          rcases Proc.runs_raiseIf_bind hrest' with ⟨-, -, rfl, rfl⟩ | ⟨-, hreplay⟩
          · exact .untouched (hlater'.untouched _) nofun
          · refine .untouched ((hlater'.untouched _).trans
              (runs_quiet hreplay (uses_getSession (fun _ => quiet_read) _))) ?_
            rintro rfl
            exact hreplay.raises (getSession_raises _) rfl

end diagnose

end inversion

end outcomes

end EnergyAgent.Agent
