import EnergyAgent.Agent.Outcomes

/-!
# Whole operations, one after the other

The states of the stores between operations, when each request runs alone: whatever was asked
before, whatever was cancelled or failed. `Coherent` is what holds in all of them.
-/

namespace EnergyAgent.Agent

open EnergyAgent.Lib

section operations

variable {settings : DedupSettings} {rt : Runtime} {ok : CallInput rt → Prop} {s t : Store}
  {calls : List (backend settings rt).Call}

/-- A request with what the environment decides during its calls. -/
structure Operation (rt : Runtime) where
  request : Request
  inputs : List (CallInput rt)

variable (settings rt) in
/-- One request after the other, from empty tables. -/
def operations : TransitionSystem Store (Operation rt) where
  init := Fresh
  step s op := ((serve settings op.request).solo op.inputs s).map fun (_, _, t) => t

/-- An operation is a run of its request. -/
theorem operations_step {op : Operation rt} (h : (operations settings rt).step s op = some t) :
    ∃ calls r, (serve settings op.request).solo op.inputs s = some (calls, r, t) ∧
      (serve settings op.request).Runs (fun _ => True) s calls r t := by
  obtain ⟨⟨calls, r, t'⟩, hsolo, rfl⟩ := Option.map_eq_some_iff.mp h
  exact ⟨calls, r, hsolo, Proc.runs_of_solo (fun _ _ => trivial) hsolo⟩

/-- Drawn ids stay drawn. -/
theorem runs_drawn {α : Type} {p : Call settings rt α} {r : Except ExecutionError α}
    (h : p.Runs ok s calls r t) : ∀ id ∈ s.drawn, id ∈ t.drawn :=
  h.preserves p.uses_true (P := fun u : Store => ∀ id ∈ s.drawn, id ∈ u.drawn)
    (fun _ _ _ _ _ _ hexec hs id hid => (exec_frame hexec).drawn id (hs id hid)) fun _ hid => hid

/-! ## Creation and review -/

/-- How `create_session` ends. -/
inductive CreateOutcome (s t : Store) : Prop
  | untouched (h : ∀ id, Untouched id s t)
  | created {id : String} {row : SessionRow} (hfresh : id ∉ s.drawn) (hid : id ∈ t.drawn)
      (hsession : t.session id = (s.session id).or (some row)) (hphase : row.phase = .init)
      (hrun : row.runId ∈ t.drawn)
      (hmemory : t.memory id = s.memory id ∨ ∃ m, t.memory id = some m ∧ m.phase = .init)
      (hothers : ∀ id', id' ≠ id → Untouched id' s t)

section create

variable {payload : CreateSessionRequest} {key : Option String} {traceId : String}

theorem registerSession_quiet (sessionId : String) :
    (registerSession settings payload sessionId : Call settings rt Unit).Uses Op.Quiet := by
  unfold registerSession
  cases dedupKeyOf settings payload with
  | none => exact trivial
  | some dedupKey => exact uses_registerAlarm trivial fun _ => trivial

theorem runs_createFresh {u : Store} {r : Except ExecutionError CreateSessionResponse}
    (hbefore : ∀ id, Untouched id s u) (hdrawn : ∀ id ∈ s.drawn, id ∈ u.drawn)
    (h : (createFresh settings payload key traceId).Runs ok u calls r t) : CreateOutcome s t := by
  obtain ⟨_, ⟨sessionId, runId⟩, v, _, -, hcreate, h₁, -⟩ := runs_ask_bind h
  obtain ⟨hnew, -, -, hids⟩ := exec_createSession hcreate
  obtain ⟨_, run, w, _, -, hrun, h₂, -⟩ := runs_ask_bind h₁
  have hsession : ∀ id, w.session id = (s.session id).or
      (if sessionId = id then some (newSessionRow payload traceId sessionId runId) else none) := by
    intro id
    rw [(exec_quiet hrun trivial : Untouched id v w).session, exec_session hcreate,
      (hbefore id).session]
    rfl
  have hmemory : ∀ id, w.memory id = s.memory id := by
    intro id
    rw [(exec_quiet hrun trivial : Untouched id v w).memory, exec_memory hcreate,
      (hbefore id).memory]
    rfl
  have hdrawn' : sessionId ∈ w.drawn ∧ runId ∈ w.drawn :=
    ⟨(exec_frame hrun).drawn _ (by simp [hids]), (exec_frame hrun).drawn _ (by simp [hids])⟩
  have hfresh : sessionId ∉ s.drawn := fun hold => hnew (hdrawn _ hold)
  rcases runs_orRaise_bind h₂ with ⟨-, -, -, rfl⟩ | ⟨_, -, h₃⟩
  · refine .created hfresh hdrawn'.1 (by simpa using hsession sessionId) rfl hdrawn'.2
      (Or.inl (hmemory _)) fun id hid => ⟨?_, hmemory id⟩
    simpa [Ne.symm hid] using hsession id
  obtain ⟨_, _, z, _, -, hsave, h₄, -⟩ := runs_ask_bind h₃
  have hafter : ∀ id, Untouched id z t := fun id =>
    runs_quiet h₄ (.bind (registerSession_quiet sessionId) fun _ => trivial)
  have hdrawn'' : ∀ id ∈ w.drawn, id ∈ t.drawn :=
    fun id hid => runs_drawn h₄ id ((exec_frame hsave).drawn id hid)
  have hsession' : ∀ id, t.session id = w.session id :=
    fun id => (hafter id).session.trans (exec_session hsave id)
  have hmemory' : ∀ id, t.memory id = if sessionId = id then
      some (initialMemory payload sessionId runId traceId) else w.memory id :=
    fun id => (hafter id).memory.trans (exec_memory hsave id)
  have hrow : t.session sessionId =
      (s.session sessionId).or (some (newSessionRow payload traceId sessionId runId)) := by
    rw [hsession', hsession, if_pos rfl]
  refine .created hfresh (hdrawn'' _ hdrawn'.1) hrow rfl (hdrawn'' _ hdrawn'.2) (Or.inr ?_)
    fun id hid => ⟨?_, ?_⟩
  · exact ⟨_, (hmemory' sessionId).trans (if_pos rfl), rfl⟩
  · rw [hsession', hsession, if_neg (Ne.symm hid), Option.or_none]
  · rw [hmemory', if_neg (Ne.symm hid), hmemory]

theorem runs_createUnlessMerged {u : Store} {r : Except ExecutionError CreateSessionResponse}
    (hbefore : ∀ id, Untouched id s u) (hdrawn : ∀ id ∈ s.drawn, id ∈ u.drawn)
    (h : (createUnlessMerged settings payload key traceId).Runs ok u calls r t) :
    CreateOutcome s t := by
  unfold createUnlessMerged at h
  cases hkey : dedupKeyOf settings payload with
  | none =>
      rw [hkey] at h
      exact runs_createFresh hbefore hdrawn h
  | some dedupKey =>
      rw [hkey] at h
      obtain ⟨_, ⟨found, time⟩, v, _, -, hhit, h₁, -⟩ := runs_ask_bind h
      have hbefore' : ∀ id, Untouched id s v :=
        fun id => (hbefore id).trans (exec_quiet hhit trivial)
      cases found with
      | none =>
          exact runs_createFresh hbefore' (fun id hid => (exec_frame hhit).drawn id (hdrawn id hid)) h₁
      | some hit =>
          refine .untouched fun id => (hbefore' id).trans (runs_quiet h₁ ?_)
          exact .bind (uses_ask trivial) fun _ => .bind (uses_orRaise _ _) fun _ => trivial

theorem runs_createSession {r : Except ExecutionError CreateSessionResponse}
    (h : (createSession settings payload key traceId).Runs ok s calls r t) : CreateOutcome s t := by
  unfold createSession at h
  cases hkey : Text.truthy key with
  | none =>
      rw [hkey] at h
      exact runs_createUnlessMerged (fun _ => .refl) (fun _ hid => hid) h
  | some k =>
      rw [hkey] at h
      obtain ⟨_, existing, u, _, -, hfind, h₁, -⟩ := runs_ask_bind h
      have hbefore : ∀ id, Untouched id s u := fun id => exec_quiet hfind trivial
      cases existing with
      | none => exact runs_createUnlessMerged hbefore (exec_frame hfind).drawn h₁
      | some existing =>
          refine .untouched fun id => (hbefore id).trans (runs_quiet h₁ ?_)
          exact .bind (Proc.uses_raiseIf _ _) fun _ => .bind (uses_ask trivial) fun _ =>
            .bind (uses_orRaise _ _) fun _ => trivial

end create

/-- How `review_diagnosis` ends: the session may be given back for more information. -/
inductive ReviewOutcome (sessionId : String) (payload : DiagnosisReviewRequest) (s t : Store) :
    Except ExecutionError Unit → Prop
  | untouched {r : Except ExecutionError Unit} (h : ∀ id, Untouched id s t) :
      ReviewOutcome sessionId payload s t r
  | reviewed {row row' : SessionRow} (hrow : s.session sessionId = some row)
      (hrow' : t.session sessionId = some row') (hrun : row'.runId = row.runId)
      (hphase : row'.phase = row.phase ∨
        (payload.reviewResult = .needsMoreInfo ∧ row'.phase = .needUserInput ∧
          (row.phase = .completed ∨ row.phase = .needUserInput)))
      (hmemory : ∀ id, t.memory id = s.memory id)
      (hothers : ∀ id, id ≠ sessionId → t.session id = s.session id) :
      ReviewOutcome sessionId payload s t (.ok ())

/-- An update of the session row alone. -/
theorem runs_updateSession {id : String} {update : SessionUpdate} {row : SessionRow}
    {r : Except ExecutionError Unit} (hrow : s.session id = some row)
    (h : (updateSession id update : Call settings rt Unit).Runs ok s calls r t) :
    r = .ok () ∧ t.session id = some (update.apply row) ∧ (∀ id', t.memory id' = s.memory id') ∧
      ∀ id', id' ≠ id → t.session id' = s.session id' := by
  obtain ⟨_, updated, u, _, -, hexec, hend, -⟩ := runs_ask_bind h
  obtain rfl : updated = true := by
    rw [(exec_updateSession hexec).1, hrow]
    rfl
  obtain ⟨-, rfl, ⟨hfalse, -⟩ | ⟨-, rfl⟩⟩ := Proc.runs_raiseIf hend
  · cases hfalse
  refine ⟨rfl, ?_, exec_memory hexec, fun id' hne => ?_⟩
  · simpa [Op.onSession, hrow] using exec_session hexec id
  · rw [exec_session hexec id']
    exact if_neg (Ne.symm hne)

theorem runs_reviewDiagnosis {sessionId : String} {payload : DiagnosisReviewRequest}
    {recorded : Bool} {r : Except ExecutionError Unit}
    (h : (reviewDiagnosis settings sessionId payload recorded).Runs ok s calls r t) :
    ReviewOutcome sessionId payload s t r := by
  obtain ⟨_, session, u, _, -, hsession, h₁, -⟩ := runs_ask_bind h
  obtain ⟨_, result, v, _, -, hresult, h₂, -⟩ := runs_ask_bind h₁
  have hlater : Later s v := (later_of_read hsession rfl).trans (later_of_read hresult rfl)
  have huntouched : ∀ id, Untouched id s v := hlater.untouched
  obtain hrow : s.session sessionId = session :=
    (Prod.mk.inj (Option.some.inj (exec_eq_some hsession).2)).1
  rcases runs_orRaise_bind h₂ with ⟨-, -, rfl, rfl⟩ | ⟨row, rfl, h₃⟩
  · exact .untouched huntouched
  rcases runs_orRaise_bind h₃ with ⟨-, -, rfl, rfl⟩ | ⟨result, rfl, h₄⟩
  · exact .untouched huntouched
  rcases Proc.runs_raiseIf_bind h₄ with ⟨-, -, rfl, rfl⟩ | ⟨hopen, h₅⟩
  · exact .untouched huntouched
  rcases Proc.runs_raiseIf_bind h₅ with ⟨-, -, rfl, rfl⟩ | ⟨-, h₆⟩
  · exact .untouched huntouched
  rcases Proc.runs_raiseIf_bind h₆ with ⟨-, -, rfl, rfl⟩ | ⟨-, h₇⟩
  · exact .untouched huntouched
  rcases Proc.runs_raiseIf_bind h₇ with ⟨-, -, rfl, rfl⟩ | ⟨-, h₈⟩
  · exact .untouched huntouched
  have hreviewable : row.phase = .completed ∨ row.phase = .needUserInput := by
    by_contra hnot
    exact hopen (not_or.mp hnot)
  have hrow' : v.session sessionId = some row := (huntouched sessionId).session.trans hrow
  cases hverdict : payload.reviewResult with
  | confirmed =>
      rw [hverdict] at h₈
      obtain ⟨-, rfl, rfl⟩ := Proc.runs_ret h₈
      exact .untouched huntouched
  | needsMoreInfo =>
      rw [hverdict] at h₈
      obtain ⟨rfl, hupdated, hmemory, hothers⟩ := runs_updateSession hrow' h₈
      exact .reviewed hrow hupdated rfl (Or.inr ⟨hverdict, rfl, hreviewable⟩)
        (fun id => (hmemory id).trans (huntouched id).memory)
        fun id hne => (hothers id hne).trans (huntouched id).session
  | rejected =>
      rw [hverdict] at h₈
      obtain ⟨rfl, hupdated, hmemory, hothers⟩ := runs_updateSession hrow' h₈
      exact .reviewed hrow hupdated rfl (Or.inl rfl)
        (fun id => (hmemory id).trans (huntouched id).memory)
        fun id hne => (hothers id hne).trans (huntouched id).session

/-! ## Requests on other sessions -/

/-- A diagnosis leaves the other sessions alone. -/
theorem diagnose_others {payload : ChatRequest} {key : Option String} {traceId : String}
    {interrupt : Interrupt} {r : Except ExecutionError DiagnosisResponse}
    (h : (diagnose settings payload key traceId interrupt).Runs ok s calls r t) {id : String}
    (hid : id ≠ payload.sessionId) : Untouched id s t := by
  refine h.preserves (uses_diagnose payload key traceId interrupt)
    (P := fun u : Store => Untouched id s u) ?_ .refl
  intro op x u a v hcalls hexec hbefore
  refine hbefore.trans ⟨?_, ?_⟩
  · rw [exec_session hexec id]
    cases op with
    | createSession values =>
        obtain ⟨_, _, _, hrequest, -⟩ := hcalls
        cases hrequest
    | updateSession id' update =>
        rcases hcalls with ⟨_, _, _, _, hrequest, rfl⟩ | ⟨_, _, hrequest, -⟩
        · cases hrequest
          exact if_neg (Ne.symm hid)
        · cases hrequest
    | _ => rfl
  · rw [exec_memory hexec id]
    cases op with
    | saveMemory memory =>
        rcases hcalls with ⟨_, _, _, _, _, hrequest, -⟩ |
          ⟨_, _, _, _, hrequest, state, _, _, hstate, rfl⟩
        · cases hrequest
        · cases hrequest
          exact if_neg fun heq => hid (heq.symm.trans hstate)
    | expireMemory id' => cases hcalls
    | _ => rfl

/-! ## The invariant -/

/-- What holds between the operations. -/
structure Coherent (s : Store) : Prop where
  runs : ∀ run ∈ s.runs, run.createdAt ≤ s.clock
  sessions : ∀ id row, s.session id = some row → id ∈ s.drawn ∧ row.runId ∈ s.drawn
  memories : ∀ id m, s.memory id = some m → id ∈ s.drawn
  /-- The contexts of a creation may be incomplete, those of a diagnosis are not. -/
  contexts : ∀ id m, s.memory id = some m → m.phase = .init ∨ m.Restorable

/-- No run is from the future. -/
theorem exec_runs_recent {op : Op rt} {x : CallInput rt} {a : Ans rt op}
    (hexec : exec settings op x s = some (a, t)) (hs : ∀ run ∈ s.runs, run.createdAt ≤ s.clock) :
    ∀ run ∈ t.runs, run.createdAt ≤ t.clock := by
  obtain ⟨hnow, hclock⟩ := (exec_frame hexec).clock
  have hkept : ∀ old ∈ s.runs, ∀ run : RunRow, old.Same run → run.createdAt ≤ t.clock := by
    intro old hold run hsame
    have hle := hs old hold
    rw [hsame.createdAt, hclock]
    exact hle.trans hnow
  intro run hrun
  by_cases hop : ∃ values, op = .createRun values
  · obtain ⟨values, rfl⟩ := hop
    rcases exec_createRun hexec with ⟨-, hruns⟩ | ⟨-, hruns⟩
    · exact hkept run (hruns ▸ hrun) run (.refl run)
    · rcases List.mem_append.mp (hruns ▸ hrun) with hold | hnew
      · exact hkept run hold run (.refl run)
      · rw [List.mem_singleton.mp hnew]
        exact hclock.ge
  · obtain ⟨old, hold, hsame⟩ := exec_runs hexec (fun values heq => hop ⟨values, heq⟩) run hrun
    exact hkept old hold run hsame

/-- What a request saves can be restored, or is the memory of a new session. -/
theorem exec_contexts {r : Request} {op : Op rt} {x : CallInput rt} {a : Ans rt op}
    (hcalls : r.Calls settings op) (hexec : exec settings op x s = some (a, t))
    (hs : ∀ id m, s.memory id = some m → m.phase = .init ∨ m.Restorable) :
    ∀ id m, t.memory id = some m → m.phase = .init ∨ m.Restorable := by
  intro id m hm
  rw [exec_memory hexec id] at hm
  cases op with
  | saveMemory memory =>
      simp only [Op.onMemory] at hm
      split at hm
      · cases hm
        rcases hcalls with ⟨_, _, _, _, _, -, rfl⟩ | ⟨_, _, _, _, -, state, result, node, -, rfl⟩
        · exact Or.inl rfl
        · exact Or.inr (restorable_memoryPayload state result node)
      · exact hs id m hm
  | expireMemory id' =>
      simp only [Op.onMemory] at hm
      split at hm
      · cases hm
      · exact hs id m hm
  | _ => exact hs id m hm

/-- The ids of a session: its row's and those that the memory is stored under. -/
structure IdsDrawn (s : Store) (id : String) : Prop where
  session : ∀ row, s.session id = some row → id ∈ s.drawn ∧ row.runId ∈ s.drawn
  memory : ∀ m, s.memory id = some m → id ∈ s.drawn

theorem IdsDrawn.of_untouched {id : String} (h : IdsDrawn s id) (hsame : Untouched id s t)
    (hdrawn : ∀ id ∈ s.drawn, id ∈ t.drawn) : IdsDrawn t id where
  session row hrow := by
    obtain ⟨hid, hrun⟩ := h.session row (hsame.session ▸ hrow)
    exact ⟨hdrawn _ hid, hdrawn _ hrun⟩
  memory m hm := hdrawn _ (h.memory m (hsame.memory ▸ hm))

theorem CreateOutcome.ids (h : CreateOutcome s t) (hs : ∀ id, IdsDrawn s id)
    (hdrawn : ∀ id ∈ s.drawn, id ∈ t.drawn) (id : String) : IdsDrawn t id := by
  cases h with
  | untouched h => exact (hs id).of_untouched (h id) hdrawn
  | @created new row hfresh hnew hsession hphase hrun hmemory hothers =>
      by_cases hid : id = new
      · subst hid
        have hnone : s.session id = none := by
          cases hold : s.session id with
          | none => rfl
          | some old => exact absurd ((hs id).session old hold).1 hfresh
        rw [hnone, Option.none_or] at hsession
        refine ⟨fun row' hrow' => ?_, fun _ _ => hnew⟩
        cases hsession.symm.trans hrow'
        exact ⟨hnew, hrun⟩
      · exact (hs id).of_untouched (hothers id hid) hdrawn

theorem DiagnoseOutcome.ids {payload : ChatRequest} {traceId : String} {interrupt : Interrupt}
    {r : Except ExecutionError DiagnosisResponse}
    (h : DiagnoseOutcome payload traceId interrupt s t calls r)
    (hs : IdsDrawn s payload.sessionId) (hdrawn : ∀ id ∈ s.drawn, id ∈ t.drawn) :
    IdsDrawn t payload.sessionId := by
  cases h with
  | untouched h => exact hs.of_untouched h hdrawn
  | @ran session runId time r hsession _ _ _ hnew h =>
      obtain ⟨hid, hrunId⟩ := hs.session session hsession
      have hrow : ∀ row, t.session payload.sessionId = some row → row.runId ∈ t.drawn := by
        intro row' hrow'
        cases h with
        | invalid _ hrow _ hrun _ | failed _ hrow _ hrun _ | finished hrow _ hrun _ =>
            cases hrow.symm.trans hrow'
            exact hrun ▸ hnew.drawn
        | cancelled hrow _ hrun _ =>
            cases hrow.symm.trans hrow'
            exact hrun ▸ hdrawn _ hrunId
      exact ⟨fun row hr => ⟨hdrawn _ hid, hrow row hr⟩, fun _ _ => hdrawn _ hid⟩

theorem ReviewOutcome.ids {sessionId : String} {payload : DiagnosisReviewRequest}
    {r : Except ExecutionError Unit} (h : ReviewOutcome sessionId payload s t r)
    (hs : ∀ id, IdsDrawn s id) (hdrawn : ∀ id ∈ s.drawn, id ∈ t.drawn) (id : String) :
    IdsDrawn t id := by
  cases h with
  | untouched h => exact (hs id).of_untouched (h id) hdrawn
  | @reviewed row row' hrow hrow' hrun _ hmemory hothers =>
      by_cases hid : id = sessionId
      · subst hid
        obtain ⟨hdrawnId, hrunId⟩ := (hs id).session row hrow
        refine ⟨fun row'' hrow'' => ?_, fun _ _ => hdrawn _ hdrawnId⟩
        cases hrow'.symm.trans hrow''
        exact ⟨hdrawn _ hdrawnId, hrun ▸ hdrawn _ hrunId⟩
      · exact (hs id).of_untouched ⟨hothers id hid, hmemory id⟩ hdrawn

/-- **Every operation keeps the invariant.** -/
theorem Coherent.step {request : Request} {r : Except ExecutionError Reply} (hs : Coherent s)
    (h : (serve settings request).Runs ok s calls r t) : Coherent t := by
  have hdrawn := runs_drawn h
  have hids : ∀ id, IdsDrawn s id := fun id => ⟨hs.sessions id, hs.memories id⟩
  have hids' : ∀ id, IdsDrawn t id := by
    intro id
    cases request with
    | createSession payload key traceId =>
        obtain ⟨_, hrun, -⟩ := Proc.runs_map h
        exact (runs_createSession hrun).ids hids hdrawn id
    | diagnose payload key traceId interrupt =>
        obtain ⟨_, hrun, -⟩ := Proc.runs_map h
        by_cases hid : id = payload.sessionId
        · subst hid
          exact (runs_diagnose hrun).ids (hids _) hdrawn
        · exact (hids id).of_untouched (diagnose_others hrun hid) hdrawn
    | getSession sessionId =>
        obtain ⟨_, hrun, -⟩ := Proc.runs_map h
        exact (hids id).of_untouched
          (runs_quiet hrun (uses_getSession (fun _ => quiet_read) sessionId)) hdrawn
    | reviewDiagnosis sessionId payload recorded =>
        obtain ⟨_, hrun, -⟩ := Proc.runs_map h
        exact (runs_reviewDiagnosis hrun).ids hids hdrawn id
    | expire sessionId =>
        obtain ⟨_, _, u, _, -, hexec, hend, -⟩ := runs_ask_bind h
        obtain ⟨-, -, rfl⟩ := Proc.runs_ret hend
        have hmemory := exec_memory hexec id
        refine ⟨fun row hrow => ?_, fun m hm => ?_⟩
        · obtain ⟨hid, hrun⟩ := (hids id).session row ((exec_session hexec id).symm.trans hrow)
          exact ⟨hdrawn _ hid, hdrawn _ hrun⟩
        · rw [hmemory] at hm
          simp only [Op.onMemory] at hm
          split at hm
          · cases hm
          · exact hdrawn _ ((hids id).memory m hm)
  exact
    { runs := h.preserves (Proc.uses_true _)
        (P := fun u : Store => ∀ run ∈ u.runs, run.createdAt ≤ u.clock)
        (fun _ _ _ _ _ _ hexec hbefore => exec_runs_recent hexec hbefore) hs.runs
      sessions := fun id => (hids' id).session
      memories := fun id => (hids' id).memory
      contexts := h.preserves (uses_serve request)
        (P := fun u : Store => ∀ id m, u.memory id = some m → m.phase = .init ∨ m.Restorable)
        (fun _ _ _ _ _ hcalls hexec hbefore => exec_contexts hcalls hexec hbefore) hs.contexts }

theorem coherent_of_fresh (h : Fresh s) : Coherent s := by
  obtain ⟨hsessions, hruns, -, hmemories, -⟩ := h
  constructor <;> simp [hruns, Store.session, Store.memory, Table.get, hsessions, hmemories]

/-- The stores between the operations are coherent. -/
theorem coherent_of_reachable (h : (operations settings rt).Reachable s) : Coherent s := by
  refine h.invariant (fun s hs => ?_) fun s op t hs _ hstep => ?_
  · have hfresh : Fresh s := hs
    exact coherent_of_fresh hfresh
  obtain ⟨calls, r, -, hrun⟩ := operations_step hstep
  exact hs.step hrun

end operations

end EnergyAgent.Agent
