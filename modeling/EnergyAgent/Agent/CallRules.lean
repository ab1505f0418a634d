import EnergyAgent.Agent.Execution

/-!
# The calls of each request

`Request.Calls r op` says what the call `op` looks like when request `r` makes it: which rows it
may write and with what. `uses_serve` proves it of the programs once; the results about
interleavings then argue about single calls and never unfold a program again.
-/

namespace EnergyAgent.Agent

open EnergyAgent.Lib

section calls

variable {settings : DedupSettings} {rt : Runtime}

/-! ## What a call does -/

theorem exec_eq_some {op : Op rt} {x : CallInput rt} {s t : Store} {a : Ans rt op}
    (h : exec settings op x s = some (a, t)) :
    s.clock ≤ x.now ∧ execNow settings op x { s with clock := x.now } = some (a, t) := by
  unfold exec at h
  split at h
  · cases h
  · next hnow => exact ⟨Nat.le_of_not_lt hnow, h⟩

/-- `hit` writes nothing but the dedup table. -/
theorem hit_frame (window : Nat) (key : String) (now : Nat) (s : Store) :
    (hit window key now s).2 = { s with dedup := (hit window key now s).2.dedup } := by
  unfold hit
  repeat' split
  all_goals rfl

theorem register_frame (window : Nat) (key sessionId : String) (found : Bool) (now : Nat)
    (s : Store) : (register window key sessionId found now s).2 =
      { s with dedup := (register window key sessionId found now s).2.dedup } := by
  unfold register
  dsimp only
  repeat' split
  all_goals rfl

theorem exec_hit {key : String} {x : CallInput rt} {s t : Store} {a : Option AlarmDedupHit × Nat}
    (h : exec settings (.hit key) x s = some (a, t)) :
    a = ((hit settings.window key x.now { s with clock := x.now }).1, x.now) ∧
      t = (hit settings.window key x.now { s with clock := x.now }).2 := by
  obtain ⟨rfl, rfl⟩ := Prod.mk.inj (Option.some.inj (exec_eq_some h).2)
  exact ⟨rfl, rfl⟩

theorem exec_register {key sessionId : String} {found : Bool} {x : CallInput rt} {s t : Store}
    {a : Option Nat} (h : exec settings (.register key sessionId found) x s = some (a, t)) :
    a = (register settings.window key sessionId found x.now { s with clock := x.now }).1 ∧
      t = (register settings.window key sessionId found x.now { s with clock := x.now }).2 := by
  obtain ⟨rfl, rfl⟩ := Prod.mk.inj (Option.some.inj (exec_eq_some h).2)
  exact ⟨rfl, rfl⟩

theorem newest_mem {ρ : Type} {createdAt : ρ → Nat} {id : ρ → String} {pick : String}
    {rows : List ρ} {row : ρ} (h : newest createdAt id pick rows = some row) : row ∈ rows := by
  unfold newest at h
  rcases Option.or_eq_some_iff.mp h with hpick | ⟨-, hhead⟩
  · exact List.mem_of_mem_filter (List.mem_of_find?_eq_some hpick)
  · exact List.mem_of_mem_filter (List.mem_of_mem_head? hhead)

theorem exec_findIdempotentGlobal {key : String} {x : CallInput rt} {s t : Store} {row : RunRow}
    (h : exec settings (.findIdempotentGlobal key) x s = some (some row, t)) :
    row ∈ s.runs ∧ row.idempotencyKey = some key := by
  have hfound := newest_mem (Prod.mk.inj (Option.some.inj (exec_eq_some h).2)).1
  simpa using List.mem_filter.mp hfound

theorem exec_createSession {values : String → String → SessionRow} {x : CallInput rt}
    {s t : Store} {a : String × String}
    (h : exec settings (.createSession values) x s = some (a, t)) :
    a.1 ∉ s.drawn ∧ a.2 ∉ s.drawn ∧ t.sessions = s.sessions ++ [values a.1 a.2] ∧
      t.drawn = a.1 :: a.2 :: s.drawn := by
  have h := (exec_eq_some h).2
  simp only [execNow] at h
  split at h
  · cases h
  · next hnew =>
      cases h
      push Not at hnew
      exact ⟨hnew.1, hnew.2.1, rfl, rfl⟩

theorem exec_updateSession {id : String} {update : SessionUpdate} {x : CallInput rt} {s t : Store}
    {a : Bool} (h : exec settings (.updateSession id update) x s = some (a, t)) :
    a = (s.session id).isSome ∧ t.sessions = Table.update SessionRow.id s.sessions id update.apply := by
  obtain ⟨rfl, rfl⟩ := Prod.mk.inj (Option.some.inj (exec_eq_some h).2)
  exact ⟨rfl, rfl⟩

/-- An update of a session, read back. -/
theorem session_update {s t : Store} {id : String} {update : SessionUpdate}
    (h : t.sessions = Table.update SessionRow.id s.sessions id update.apply) (id' : String) :
    t.session id' = (s.session id').map fun row => if id' = id then update.apply row else row := by
  have hkey : ∀ r : SessionRow, r.id = id → (update.apply r).id = id := fun r hr => hr
  unfold Store.session
  rw [h]
  by_cases hid : id' = id
  · subst hid
    rw [Table.get_update_self hkey]
    simp
  · rw [Table.get_update_ne hkey hid]
    simp [hid]

/-- A session that is stored is found after another one has been added. -/
theorem session_append {s t : Store} {row row' : SessionRow} {id : String}
    (h : t.sessions = s.sessions ++ [row']) (hrow : s.session id = some row) :
    t.session id = some row := by
  unfold Store.session Table.get at hrow ⊢
  rw [h, List.find?_append, hrow]
  rfl

inductive TableName
  | sessions | runs | results | memories | dedup
  deriving DecidableEq, Repr

/-- The table that a call may write. -/
def Op.writes : Op rt → Option TableName
  | .createSession _ | .updateSession _ _ => some .sessions
  | .createRun _ | .finishRun _ _ _ | .setTemplate _ _ _ _ => some .runs
  | .node _ _ _ => some .results
  | .saveMemory _ | .expireMemory _ => some .memories
  | .hit _ | .register _ _ _ => some .dedup
  | _ => none

/-- What a call leaves as it was. -/
structure Frame (op : Op rt) (x : CallInput rt) (s t : Store) : Prop where
  clock : s.clock ≤ x.now ∧ t.clock = x.now
  sessions : op.writes ≠ some .sessions → t.sessions = s.sessions
  runs : op.writes ≠ some .runs → t.runs = s.runs
  results : op.writes ≠ some .results → t.results = s.results
  memories : op.writes ≠ some .memories → t.memories = s.memories
  dedup : op.writes ≠ some .dedup → t.dedup = s.dedup
  drawn : ∀ id ∈ s.drawn, id ∈ t.drawn

/-- **The frame of every call.** -/
theorem exec_frame {op : Op rt} {x : CallInput rt} {s t : Store} {a : Ans rt op}
    (hexec : exec settings op x s = some (a, t)) : Frame op x s t := by
  obtain ⟨hclock, h⟩ := exec_eq_some hexec
  cases op with
  | createSession values =>
      simp only [execNow] at h
      split at h
      · cases h
      · cases h
        exact ⟨⟨hclock, rfl⟩, nofun, fun _ => rfl, fun _ => rfl, fun _ => rfl, fun _ => rfl,
          fun id hid => List.mem_cons_of_mem _ (List.mem_cons_of_mem _ hid)⟩
  | createRun values =>
      simp only [execNow] at h
      split at h
      · cases h
      · simp only [createRun] at h
        split at h <;> cases h <;>
          exact ⟨⟨hclock, rfl⟩, fun _ => rfl, nofun, fun _ => rfl, fun _ => rfl, fun _ => rfl,
            fun id hid => List.mem_cons_of_mem _ hid⟩
  | hit key =>
      obtain ⟨-, rfl⟩ := exec_hit hexec
      rw [hit_frame]
      exact ⟨⟨hclock, rfl⟩, fun _ => rfl, fun _ => rfl, fun _ => rfl, fun _ => rfl, nofun,
        fun _ hid => hid⟩
  | register key sessionId found =>
      obtain ⟨-, rfl⟩ := exec_register hexec
      rw [register_frame]
      exact ⟨⟨hclock, rfl⟩, fun _ => rfl, fun _ => rfl, fun _ => rfl, fun _ => rfl, nofun,
        fun _ hid => hid⟩
  | node n state toolData =>
      simp only [execNow] at h
      split at h
      · cases h
        exact ⟨⟨hclock, rfl⟩, fun _ => rfl, fun _ => rfl, fun _ => rfl, fun _ => rfl,
          fun _ => rfl, fun _ hid => hid⟩
      · cases h
        split <;>
          exact ⟨⟨hclock, rfl⟩, fun _ => rfl, fun _ => rfl, nofun, fun _ => rfl, fun _ => rfl,
            fun _ hid => hid⟩
  | updateSession =>
      cases h
      exact ⟨⟨hclock, rfl⟩, nofun, fun _ => rfl, fun _ => rfl, fun _ => rfl, fun _ => rfl,
        fun _ hid => hid⟩
  | finishRun | setTemplate =>
      cases h
      exact ⟨⟨hclock, rfl⟩, fun _ => rfl, nofun, fun _ => rfl, fun _ => rfl, fun _ => rfl,
        fun _ hid => hid⟩
  | saveMemory | expireMemory =>
      cases h
      exact ⟨⟨hclock, rfl⟩, fun _ => rfl, fun _ => rfl, fun _ => rfl, nofun, fun _ => rfl,
        fun _ hid => hid⟩
  | getSession | findIdempotent | findIdempotentGlobal | latestRun | latestResult | getMemory
  | registered =>
      cases h
      exact ⟨⟨hclock, rfl⟩, fun _ => rfl, fun _ => rfl, fun _ => rfl, fun _ => rfl, fun _ => rfl,
        fun _ hid => hid⟩

/-- The run keeps its identity. -/
structure RunRow.Same (row row' : RunRow) : Prop where
  id : row'.id = row.id
  sessionId : row'.sessionId = row.sessionId
  idempotencyKey : row'.idempotencyKey = row.idempotencyKey
  requestHash : row'.requestHash = row.requestHash
  runType : row'.runType = row.runType
  createdAt : row'.createdAt = row.createdAt

theorem RunRow.Same.refl (row : RunRow) : row.Same row := ⟨rfl, rfl, rfl, rfl, rfl, rfl⟩

theorem RunRow.Same.trans {row row' row'' : RunRow} (h : row.Same row') (h' : row'.Same row'') :
    row.Same row'' where
  id := h'.id.trans h.id
  sessionId := h'.sessionId.trans h.sessionId
  idempotencyKey := h'.idempotencyKey.trans h.idempotencyKey
  requestHash := h'.requestHash.trans h.requestHash
  runType := h'.runType.trans h.runType
  createdAt := h'.createdAt.trans h.createdAt

theorem same_of_mem_update {runs : List RunRow} {id : String} {f : RunRow → RunRow}
    (hf : ∀ r : RunRow, r.Same (f r)) {row : RunRow} (h : row ∈ Table.update RunRow.id runs id f) :
    ∃ old ∈ runs, old.Same row := by
  obtain ⟨old, hold, rfl⟩ := List.mem_map.mp h
  refine ⟨old, hold, ?_⟩
  split
  · exact hf old
  · exact .refl old

/-- A call that creates no run leaves the runs what they were, up to their outcome. -/
theorem exec_runs {op : Op rt} {x : CallInput rt} {s t : Store} {a : Ans rt op}
    (hexec : exec settings op x s = some (a, t)) (hop : ∀ values, op ≠ .createRun values) :
    ∀ row ∈ t.runs, ∃ old ∈ s.runs, old.Same row := by
  intro row hrow
  by_cases hwrites : op.writes = some .runs
  · have h := (exec_eq_some hexec).2
    cases op with
    | createRun values => exact absurd rfl (hop values)
    | finishRun runId phase status =>
        cases h
        refine same_of_mem_update ?_ hrow
        exact fun _ => ⟨rfl, rfl, rfl, rfl, rfl, rfl⟩
    | setTemplate runId templateId version category =>
        cases h
        refine same_of_mem_update ?_ hrow
        exact fun _ => ⟨rfl, rfl, rfl, rfl, rfl, rfl⟩
    | _ => cases hwrites
  · exact ⟨row, (exec_frame hexec).runs hwrites ▸ hrow, .refl row⟩

/-- Runs are not deleted. -/
theorem exec_runs_kept {op : Op rt} {x : CallInput rt} {s t : Store} {a : Ans rt op}
    (hexec : exec settings op x s = some (a, t)) :
    ∀ row ∈ s.runs, ∃ row' ∈ t.runs, row.Same row' := by
  intro row hrow
  have hupdated : ∀ (id : String) (f : RunRow → RunRow), (∀ r : RunRow, r.Same (f r)) →
      ∃ row' ∈ Table.update RunRow.id s.runs id f, row.Same row' := by
    intro id f hf
    refine ⟨_, List.mem_map_of_mem hrow, ?_⟩
    split
    · exact hf row
    · exact .refl row
  by_cases hwrites : op.writes = some .runs
  · have h := (exec_eq_some hexec).2
    cases op with
    | createRun values =>
        simp only [execNow] at h
        split at h
        · cases h
        · simp only [createRun] at h
          split at h <;> cases h
          · exact ⟨row, hrow, .refl row⟩
          · exact ⟨row, List.mem_append_left _ hrow, .refl row⟩
    | finishRun runId phase status =>
        cases h
        exact hupdated _ _ fun _ => ⟨rfl, rfl, rfl, rfl, rfl, rfl⟩
    | setTemplate runId templateId version category =>
        cases h
        exact hupdated _ _ fun _ => ⟨rfl, rfl, rfl, rfl, rfl, rfl⟩
    | _ => cases hwrites
  · exact ⟨row, (exec_frame hexec).runs hwrites ▸ hrow, .refl row⟩

/-- `createRun` adds the run, or nothing. -/
theorem exec_createRun {values : String → RunRow} {x : CallInput rt} {s t : Store}
    {a : Option String} (h : exec settings (.createRun values) x s = some (a, t)) :
    (a = none ∧ t.runs = s.runs) ∨
      (a = some (values x.runId).id ∧
        t.runs = s.runs ++ [{ values x.runId with createdAt := x.now }]) := by
  have h := (exec_eq_some h).2
  simp only [execNow] at h
  split at h
  · cases h
  · simp only [createRun] at h
    split at h
    · cases h
      exact Or.inl ⟨rfl, rfl⟩
    · cases h
      exact Or.inr ⟨rfl, rfl⟩

/-! ## What a request may call -/

/-- Which writes a request may make. Reads and the nodes of the workflow are open to all. -/
def Request.Calls (settings : DedupSettings) (r : Request) : Op rt → Prop
  | .createSession values => ∃ payload key traceId,
      r = .createSession payload key traceId ∧ values = newSessionRow payload traceId
  | .createRun values =>
      (∃ payload key traceId sessionId runId, r = .createSession payload key traceId ∧
        values = fun _ => initRun payload key traceId sessionId runId) ∨
      (∃ payload key traceId interrupt, r = .diagnose payload key traceId interrupt ∧
        ∀ id, (values id).id = id ∧ (values id).sessionId = payload.sessionId ∧
          (values id).idempotencyKey = key ∧ (values id).runType ≠ .sessionInit)
  | .hit key => ∃ payload k traceId, r = .createSession payload k traceId ∧
      dedupKeyOf settings payload = some key
  | .register key _ _ => ∃ payload k traceId, r = .createSession payload k traceId ∧
      dedupKeyOf settings payload = some key
  | .updateSession id update =>
      (∃ payload key traceId interrupt, r = .diagnose payload key traceId interrupt ∧
        id = payload.sessionId) ∨
      (∃ payload recorded, r = .reviewDiagnosis id payload recorded ∧
        (update.phase = none ∨ update.phase = some .needUserInput) ∧ update.runId = none)
  | .saveMemory memory =>
      (∃ payload key traceId sessionId runId, r = .createSession payload key traceId ∧
        memory = initialMemory payload sessionId runId traceId) ∨
      (∃ payload key traceId interrupt, r = .diagnose payload key traceId interrupt ∧
        ∃ state result node, state.sessionId = payload.sessionId ∧
          memory = { memoryPayload state result with lastCompletedNode := node })
  | .expireMemory sessionId => r = .expire sessionId
  | .finishRun _ _ _ => ∃ payload key traceId interrupt, r = .diagnose payload key traceId interrupt
  | .setTemplate _ _ _ _ =>
      ∃ payload key traceId interrupt, r = .diagnose payload key traceId interrupt
  | _ => True

variable {allowed : Op rt → Prop} {α : Type}

theorem uses_ask {op : Op rt} (hop : allowed op) : (ask op : Call settings rt _).Uses allowed :=
  ⟨hop, fun _ _ => trivial⟩

/-- A call, and what follows each answer it can have. -/
theorem uses_ask_bind {op : Op rt} {f : Ans rt op → Call settings rt α} (hop : allowed op)
    (hf : ∀ a, (backend settings rt).Answers op a → (f a).Uses allowed) :
    (ask op >>= f).Uses allowed :=
  ⟨hop, hf⟩

theorem uses_orRaise (e : ExecutionError) (o : Option α) :
    (orRaise e o : Call settings rt α).Uses allowed := by
  cases o <;> exact trivial

theorem uses_liftExcept (r : Except ExecutionError α) :
    (liftExcept settings r : Call settings rt α).Uses allowed := by
  cases r <;> exact trivial

theorem uses_updateSession {id : String} {update : SessionUpdate}
    (hop : allowed (.updateSession id update)) :
    (updateSession id update : Call settings rt Unit).Uses allowed :=
  .bind (uses_ask hop) fun _ => Proc.uses_raiseIf _ _

theorem uses_registerAlarm {key sessionId : String} (hread : allowed (.registered key))
    (hop : ∀ found, allowed (.register key sessionId found)) :
    (registerAlarm settings key sessionId : Call settings rt Unit).Uses allowed :=
  .bind (uses_ask hread) fun found => .bind (uses_ask (hop found)) fun _ =>
    .bind (uses_orRaise _ _) fun _ => trivial

theorem uses_registerSession (payload : CreateSessionRequest) (key : Option String)
    (traceId sessionId : String) :
    (registerSession settings payload sessionId : Call settings rt Unit).Uses
      (Request.Calls settings (.createSession payload key traceId)) := by
  unfold registerSession
  cases hkey : dedupKeyOf settings payload with
  | none => exact trivial
  | some dedupKey =>
      exact uses_registerAlarm trivial fun _ => ⟨payload, key, traceId, rfl, hkey⟩

/-! ## `create_session` and `get_session` -/

theorem uses_createFresh (payload : CreateSessionRequest) (key : Option String)
    (traceId : String) : (createFresh settings payload key traceId : Call settings rt _).Uses
      (Request.Calls settings (.createSession payload key traceId)) := by
  refine .bind (uses_ask ⟨payload, key, traceId, rfl, rfl⟩) fun ids => ?_
  refine .bind (uses_ask (Or.inl ⟨payload, key, traceId, ids.1, ids.2, rfl, rfl⟩)) fun _ => ?_
  refine .bind (uses_orRaise _ _) fun _ => ?_
  refine .bind (uses_ask (Or.inl ⟨payload, key, traceId, ids.1, ids.2, rfl, rfl⟩)) fun _ => ?_
  exact .bind (uses_registerSession payload key traceId ids.1) fun _ => trivial

theorem uses_createUnlessMerged (payload : CreateSessionRequest) (key : Option String)
    (traceId : String) : (createUnlessMerged settings payload key traceId : Call settings rt _).Uses
      (Request.Calls settings (.createSession payload key traceId)) := by
  unfold createUnlessMerged
  cases hkey : dedupKeyOf settings payload with
  | none => exact uses_createFresh payload key traceId
  | some dedupKey =>
      refine .bind (uses_ask ⟨payload, key, traceId, rfl, hkey⟩) fun ⟨found, _⟩ => ?_
      cases found with
      | none => exact uses_createFresh payload key traceId
      | some hit =>
          exact .bind (uses_ask trivial) fun _ => .bind (uses_orRaise _ _) fun _ => trivial

theorem uses_createSession (payload : CreateSessionRequest) (key : Option String)
    (traceId : String) : (createSession settings payload key traceId : Call settings rt _).Uses
      (Request.Calls settings (.createSession payload key traceId)) := by
  unfold createSession
  cases Text.truthy key with
  | none => exact uses_createUnlessMerged payload key traceId
  | some k =>
      refine .bind (uses_ask trivial) fun existing => ?_
      cases existing with
      | none => exact uses_createUnlessMerged payload key traceId
      | some existing =>
          exact .bind (Proc.uses_raiseIf _ _) fun _ => .bind (uses_ask trivial) fun _ =>
            .bind (uses_orRaise _ _) fun _ => trivial

/-- Reads are open to all. -/
theorem calls_read (r : Request) {op : Op rt} (h : op.writes = none) : r.Calls settings op := by
  cases op with
  | getSession | findIdempotent | findIdempotentGlobal | latestRun | latestResult | getMemory
  | registered => exact trivial
  | _ => cases h

theorem uses_getSession (h : ∀ op : Op rt, op.writes = none → allowed op) (sessionId : String) :
    (getSession settings sessionId : Call settings rt _).Uses allowed := by
  refine .bind (uses_ask (h _ rfl)) fun _ => .bind (uses_orRaise _ _) fun _ =>
    .bind (uses_ask (h _ rfl)) fun memory => ?_
  cases memory with
  | some memory => exact trivial
  | none => exact .bind (uses_ask (h _ rfl)) fun _ => .bind (uses_ask (h _ rfl)) fun _ => trivial

/-! ## `diagnose` -/

/-- The calls by which the workflow of a session works are allowed. -/
structure WorkflowCalls (sessionId : String) (allowed : Op rt → Prop) : Prop where
  node : ∀ n state toolData, allowed (.node n state toolData)
  setTemplate : ∀ runId templateId version category,
    allowed (.setTemplate runId templateId version category)
  finishRun : ∀ runId phase status, allowed (.finishRun runId phase status)
  updateSession : ∀ update, allowed (.updateSession sessionId update)
  saveMemory : ∀ state result node, state.sessionId = sessionId →
    allowed (.saveMemory { memoryPayload state result with lastCompletedNode := node })

/-- A node that answers has run. -/
theorem run_of_answers {n : rt.Node} {state state' : DiagnosisState}
    {toolData toolData' : rt.ToolData} {written : Option DiagnosisResult}
    (h : (backend settings rt).Answers (.node n state toolData) (.done state' toolData' written)) :
    ∃ x, rt.run n state toolData x = .done state' toolData' written := by
  obtain ⟨x, s, t, hexec⟩ := h
  simp only [exec, execNow] at hexec
  split at hexec
  · cases hexec
  · split at hexec
    · cases hexec
    · next hrun =>
        cases hexec
        exact ⟨x.node, hrun⟩

/-- A node leaves a state of the same run. -/
theorem sameRun_of_answers {n : rt.Node} {state state' : DiagnosisState}
    {toolData toolData' : rt.ToolData} {written : Option DiagnosisResult}
    (h : (backend settings rt).Answers (.node n state toolData) (.done state' toolData' written)) :
    state.SameRun state' := by
  obtain ⟨x, hrun⟩ := run_of_answers h
  exact rt.sameRun hrun

/-- The calls of a run whose states are as `P` says are allowed, and its nodes keep `P`. -/
structure RunCalls (settings : DedupSettings) (P : DiagnosisState → Prop)
    (allowed : Op rt → Prop) : Prop where
  node : ∀ n state toolData, allowed (.node n state toolData)
  setTemplate : ∀ runId templateId version category,
    allowed (.setTemplate runId templateId version category)
  progress : ∀ state, P state → allowed (.updateSession state.sessionId
    { phase := some state.phase, runId := some state.runId })
  saveMemory : ∀ state result node, P state →
    allowed (.saveMemory { memoryPayload state result with lastCompletedNode := node })
  kept : ∀ {n state toolData state' toolData' written},
    (backend settings rt).Answers (.node n state toolData) (.done state' toolData' written) →
    P state → P state'

/-- The calls by which the workflow of a session works are those of a run of the session. -/
theorem WorkflowCalls.runCalls {sessionId : String} (h : WorkflowCalls sessionId allowed) :
    RunCalls settings (fun state => state.sessionId = sessionId) allowed where
  node := h.node
  setTemplate := h.setTemplate
  progress _ hid := hid ▸ h.updateSession _
  saveMemory := h.saveMemory
  kept hanswer hid := (sameRun_of_answers hanswer).sessionId.trans hid

section run

variable {P : DiagnosisState → Prop}

theorem uses_recordTemplate (h : ∀ runId templateId version category,
      allowed (.setTemplate runId templateId version category)) (progress : DiagnosisState) :
    (recordTemplate settings progress : Call settings rt _).Uses allowed := by
  unfold recordTemplate
  cases Text.truthy progress.diagnosisTemplateId with
  | none => exact trivial
  | some _ => exact uses_ask (h ..)

theorem uses_logStep (h : RunCalls settings P allowed) (interrupt : Interrupt) (k : Nat)
    (n : rt.Node) {progress : DiagnosisState} (hstate : P progress) :
    (logStep settings interrupt k n progress : Call settings rt _).Uses allowed := by
  refine .bind (Proc.uses_raiseIf _ _) fun _ => .bind (uses_recordTemplate h.setTemplate progress) fun _ =>
    .bind (Proc.uses_raiseIf _ _) fun _ => .bind ?_ fun _ =>
    .bind (Proc.uses_raiseIf _ _) fun _ => uses_ask ?_
  · exact uses_updateSession (h.progress progress hstate)
  · exact h.saveMemory progress none _ hstate

theorem uses_runGraph (h : RunCalls settings P allowed) (interrupt : Interrupt)
    (limit k : Nat) (n : rt.Node) {state : DiagnosisState} (toolData : rt.ToolData)
    (hstate : P state) :
    (runGraph settings interrupt limit k n state toolData : Call settings rt _).Uses allowed := by
  induction limit generalizing k n state toolData with
  | zero => exact trivial
  | succ limit ih =>
      refine .bind (Proc.uses_raiseIf _ _) fun _ =>
        uses_ask_bind (h.node ..) fun outcome hanswer => ?_
      cases outcome with
      | failed => exact trivial
      | done state' toolData' written =>
          have hstate' : P state' := h.kept hanswer hstate
          refine .bind (uses_logStep h interrupt k n hstate') fun _ =>
            .bind (Proc.uses_raiseIf _ _) fun _ => ?_
          cases rt.next n state' with
          | none => exact trivial
          | some m => exact ih (k + 1) m toolData' hstate'

/-- What the nodes keep holds of the state the workflow ends in. -/
theorem returns_runGraph_kept (hkept : ∀ {n state toolData state' toolData' written},
      (backend settings rt).Answers (.node n state toolData) (.done state' toolData' written) →
      P state → P state')
    (interrupt : Interrupt) (limit k : Nat) (n : rt.Node) {state : DiagnosisState}
    (toolData : rt.ToolData) (hstate : P state) :
    (runGraph settings interrupt limit k n state toolData : Call settings rt _).Returns P := by
  induction limit generalizing k n state toolData with
  | zero => exact trivial
  | succ limit ih =>
      refine .bind (Proc.returns_true _) fun _ _ outcome hanswer => ?_
      cases outcome with
      | failed => exact trivial
      | done state' toolData' written =>
          have hstate' : P state' := hkept hanswer hstate
          refine Proc.Returns.bind (x := logStep settings interrupt k n state')
            (Proc.returns_true _) fun _ _ => .bind (Proc.returns_true _) fun _ _ => ?_
          cases rt.next n state' with
          | none => exact hstate'
          | some m => exact ih (k + 1) m toolData' hstate'

/-- The workflow ends in a state of the run it started. -/
theorem returns_runGraph (interrupt : Interrupt) (limit k : Nat) (n : rt.Node)
    (state : DiagnosisState) (toolData : rt.ToolData) :
    (runGraph settings interrupt limit k n state toolData : Call settings rt _).Returns
      state.SameRun :=
  returns_runGraph_kept (fun hanswer hsame => hsame.trans (sameRun_of_answers hanswer))
    interrupt limit k n toolData ⟨rfl, rfl, rfl, rfl, rfl⟩

end run

section workflow

variable {sessionId : String}

theorem uses_onWorkflowError (h : WorkflowCalls sessionId allowed) (session : SessionRow)
    (runId : String) (e : ExecutionError) :
    (onWorkflowError settings sessionId session runId e : Call settings rt α).Uses allowed := by
  cases e <;>
    exact .bind (uses_ask (h.finishRun ..)) fun _ =>
      .bind (uses_updateSession (h.updateSession _)) fun _ => trivial

theorem uses_finishDiagnosis (h : WorkflowCalls sessionId allowed) (runId : String)
    {state : DiagnosisState} (hid : state.sessionId = sessionId) :
    (finishDiagnosis settings sessionId runId state : Call settings rt _).Uses allowed :=
  .bind (uses_ask (h.setTemplate ..)) fun _ => .bind (uses_ask (h.finishRun ..)) fun _ =>
    .bind (uses_updateSession (h.updateSession _)) fun _ =>
    .bind (uses_ask (h.saveMemory state state.finalResponse _ hid)) fun _ => trivial

theorem returns_onWorkflowError {post : α → Prop} (sessionId : String) (session : SessionRow)
    (runId : String) (e : ExecutionError) :
    (onWorkflowError settings sessionId session runId e : Call settings rt α).Returns post := by
  cases e <;>
    exact .bind (Proc.returns_true _) fun _ _ => .bind (Proc.returns_true _) fun _ _ => trivial

end workflow

section diagnose

variable (payload : ChatRequest) (key : Option String) (traceId : String) (interrupt : Interrupt)

theorem workflowCalls_diagnose : WorkflowCalls payload.sessionId
    (Request.Calls settings (.diagnose payload key traceId interrupt) : Op rt → Prop) where
  node _ _ _ := trivial
  setTemplate _ _ _ _ := ⟨payload, key, traceId, interrupt, rfl⟩
  finishRun _ _ _ := ⟨payload, key, traceId, interrupt, rfl⟩
  updateSession _ := Or.inl ⟨payload, key, traceId, interrupt, rfl, rfl⟩
  saveMemory state result node h :=
    Or.inr ⟨payload, key, traceId, interrupt, rfl, state, result, node, h, rfl⟩

/-- The state the workflow starts from is one of the request. -/
theorem initialState_eq_ok {session : SessionRow} {memory : Option SessionMemory} {runId : String}
    {initial : DiagnosisState}
    (h : initialState payload session memory runId traceId = .ok initial) :
    initial.sessionId = payload.sessionId ∧ initial.runId = runId ∧
      initial.memoryRevision = (memory.map fun m => m.memoryRevision + 1).getD 1 ∧
      initial.userFeedback = (memory.map SessionMemory.userFeedbackHistory).getD [] ++
        payload.clarificationAnswers ∧ initial.phase = .init := by
  unfold initialState at h
  cases hdevice : initialDevice session memory with
  | error e => simp [hdevice, bind, Except.bind] at h
  | ok device =>
      cases halarm : initialAlarm session memory with
      | error e => simp [hdevice, halarm, bind, Except.bind] at h
      | ok alarm =>
          simp only [hdevice, halarm, bind, Except.bind, pure, Except.pure, Except.ok.injEq] at h
          subst h
          exact ⟨rfl, rfl, rfl, rfl, rfl⟩

theorem returns_liftExcept {post : α → Prop} {r : Except ExecutionError α}
    (h : ∀ a, r = .ok a → post a) : (liftExcept settings r : Call settings rt α).Returns post := by
  cases r with
  | ok a => exact h a rfl
  | error e => exact trivial

theorem uses_runDiagnosis (h : WorkflowCalls payload.sessionId allowed) (session : SessionRow)
    (memory : Option SessionMemory) (runId : String) :
    (runDiagnosis settings payload traceId interrupt session memory runId :
      Call settings rt _).Uses allowed := by
  refine .bind (uses_updateSession (h.updateSession _)) fun _ =>
    .bind_of_returns (uses_liftExcept _)
      (returns_liftExcept fun initial hok => (initialState_eq_ok payload traceId hok).1)
      fun initial hid => .bind_of_returns ?_ ?_ fun state hsame => uses_finishDiagnosis h runId hsame
  · exact .handle (uses_runGraph h.runCalls interrupt _ _ _ _ hid) fun e =>
      uses_onWorkflowError h session runId e
  · exact .handle ((returns_runGraph interrupt _ _ _ _ _).mono fun _ h => h.sessionId.trans hid)
      fun e => returns_onWorkflowError _ _ _ e

theorem chatRun_own (session : SessionRow) (memory : Option SessionMemory) (runId : String) :
    (chatRun payload key session memory traceId runId).id = runId ∧
      (chatRun payload key session memory traceId runId).sessionId = payload.sessionId ∧
      (chatRun payload key session memory traceId runId).idempotencyKey = key ∧
      (chatRun payload key session memory traceId runId).runType ≠ .sessionInit := by
  refine ⟨rfl, rfl, rfl, ?_⟩
  unfold chatRun
  dsimp only
  split <;> decide

theorem uses_diagnoseRun (session : SessionRow) (memory : Option SessionMemory) :
    (diagnoseRun settings payload key traceId interrupt session memory : Call settings rt _).Uses
      (Request.Calls settings (.diagnose payload key traceId interrupt)) :=
  .bind (uses_ask (Or.inr ⟨payload, key, traceId, interrupt, rfl,
      chatRun_own payload key traceId session memory⟩)) fun _ =>
    .bind (uses_orRaise _ _) fun runId =>
    uses_runDiagnosis payload traceId interrupt
      (workflowCalls_diagnose payload key traceId interrupt) session memory runId

theorem uses_explainPrevious (memory : Option SessionMemory) :
    (explainPrevious settings payload key traceId memory : Call settings rt _).Uses
      (Request.Calls settings (.diagnose payload key traceId interrupt)) := by
  refine .bind ?_ fun _ => .bind (uses_ask trivial) fun _ =>
    .bind (uses_ask (Or.inr ⟨payload, key, traceId, interrupt, rfl, fun id => ?_⟩)) fun _ =>
    .bind (uses_orRaise _ _) fun _ =>
    .bind (uses_ask ⟨payload, key, traceId, interrupt, rfl⟩) fun _ => trivial
  · unfold previousResult
    cases memory.bind SessionMemory.finalResult with
    | some result => exact trivial
    | none => exact .bind (uses_ask trivial) fun _ => uses_orRaise _ _
  · exact ⟨rfl, rfl, rfl, by simp⟩

theorem uses_diagnoseNew (session : SessionRow) :
    (diagnoseNew settings payload key traceId interrupt session : Call settings rt _).Uses
      (Request.Calls settings (.diagnose payload key traceId interrupt)) := by
  refine .bind (Proc.uses_raiseIf _ _) fun _ => .bind (uses_ask trivial) fun memory => ?_
  by_cases hcompleted : session.phase = .completed
  · by_cases hmode : chatMode payload ≠ "explain_previous_result"
    · simp only [hcompleted, hmode, if_true, not_false_eq_true, ne_eq]
      exact trivial
    · simp only [hcompleted, hmode, if_true, if_false]
      exact uses_explainPrevious payload key traceId interrupt memory
  · simp only [hcompleted, if_false]
    exact .bind (uses_liftExcept _) fun _ =>
      uses_diagnoseRun payload key traceId interrupt session memory

theorem uses_diagnose :
    (diagnose settings payload key traceId interrupt : Call settings rt _).Uses
      (Request.Calls settings (.diagnose payload key traceId interrupt)) := by
  refine .bind (uses_ask trivial) fun _ => .bind (uses_orRaise _ _) fun session => ?_
  cases Text.truthy key with
  | none => exact uses_diagnoseNew payload key traceId interrupt session
  | some k =>
      refine .bind (uses_ask trivial) fun existing => ?_
      cases existing with
      | none => exact uses_diagnoseNew payload key traceId interrupt session
      | some existing => exact .bind (Proc.uses_raiseIf _ _) fun _ =>
          uses_getSession (fun _ => calls_read _) _

end diagnose

/-- `diagnose` behind the read of the session. -/
def diagnoseRead (settings : DedupSettings) (payload : ChatRequest) (key : Option String)
    (traceId : String) (interrupt : Interrupt) (session : SessionRow) :
    Call settings rt DiagnosisResponse :=
  match Text.truthy key with
  | none => diagnoseNew settings payload key traceId interrupt session
  | some k => do
      match ← ask (.findIdempotent payload.sessionId k) with
      | none => diagnoseNew settings payload key traceId interrupt session
      | some existing => do
          Proc.raiseIf (existing.requestHash ≠ .chat payload.sessionId payload)
            .idempotencyConflict
          getSession settings payload.sessionId

theorem diagnose_eq (payload : ChatRequest) (key : Option String) (traceId : String)
    (interrupt : Interrupt) :
    (diagnose settings payload key traceId interrupt : Call settings rt _) =
      (ask (.getSession payload.sessionId) >>= fun found => orRaise .resourceNotFound found >>=
        diagnoseRead settings payload key traceId interrupt) := rfl

/-! ## All requests -/

theorem uses_reviewDiagnosis (sessionId : String) (payload : DiagnosisReviewRequest)
    (recorded : Bool) :
    (reviewDiagnosis settings sessionId payload recorded : Call settings rt _).Uses
      (Request.Calls settings (.reviewDiagnosis sessionId payload recorded)) := by
  refine .bind (uses_ask trivial) fun _ => .bind (uses_ask trivial) fun _ =>
    .bind (uses_orRaise _ _) fun _ => .bind (uses_orRaise _ _) fun _ =>
    .bind (Proc.uses_raiseIf _ _) fun _ => .bind (Proc.uses_raiseIf _ _) fun _ =>
    .bind (Proc.uses_raiseIf _ _) fun _ => .bind (Proc.uses_raiseIf _ _) fun _ => ?_
  cases payload.reviewResult with
  | confirmed => exact trivial
  | needsMoreInfo =>
      exact uses_updateSession (Or.inr ⟨payload, recorded, rfl, Or.inr rfl, rfl⟩)
  | rejected => exact uses_updateSession (Or.inr ⟨payload, recorded, rfl, Or.inl rfl, rfl⟩)

/-- **Every call of a request is one that `Request.Calls` describes.** -/
theorem uses_serve (r : Request) : (serve settings r : Call settings rt _).Uses (r.Calls settings) := by
  cases r with
  | createSession payload key traceId =>
      exact .bind (uses_createSession payload key traceId) fun _ => trivial
  | diagnose payload key traceId interrupt =>
      exact .bind (uses_diagnose payload key traceId interrupt) fun _ => trivial
  | getSession sessionId => exact .bind (uses_getSession (fun _ => calls_read _) sessionId) fun _ => trivial
  | reviewDiagnosis sessionId payload recorded =>
      exact .bind (uses_reviewDiagnosis sessionId payload recorded) fun _ => trivial
  | expire sessionId => exact .bind (uses_ask rfl) fun _ => trivial

end calls

end EnergyAgent.Agent
