import EnergyAgent.Agent.Cancellation

/-!
# The phase of the row and of the memory

The phase of a session is kept in its row and in its memory, and `get_session` shows the memory's.
Three operations write only one of them: the two `except` clauses of `diagnose`, and a review that
asks for more information. `Steady` is the condition that they do so only where it does not show.
-/

namespace EnergyAgent.Agent

open EnergyAgent.Lib

section agreement

variable {settings : DedupSettings} {rt : Runtime} {ok : CallInput rt → Prop} {s t : Store}
  {calls : List (backend settings rt).Call}

variable (settings rt) in
/-- **Row and memory agree on the phase.** -/
structure PhasesAgree (s : Store) : Prop where
  stored : ∀ id row memory, s.session id = some row → s.memory id = some memory →
    memory.phase = row.phase
  /-- `get_session` answers with the phase of the row, whether or not the memory has expired. -/
  answered : ∀ id row response, s.session id = some row →
    Answers settings rt s id (.ok response) → response.phase = row.phase

/-- The memory that the calls have saved last. -/
def lastSaved : List (backend settings rt).Call → Option SessionMemory
  | [] => none
  | ⟨.saveMemory memory, _⟩ :: rest => (lastSaved rest).or (some memory)
  | _ :: rest => lastSaved rest

variable (settings) in
/-- The operation does not change the phase of the row behind the memory's back: the workflow of a
diagnosis fails only where no memory is stored yet, it is cancelled only before the first save or
in the phase that the row had, and a completed session with a memory is not given back by a
review. -/
def Steady (s : Store) (op : Operation rt) : Prop :=
  ∀ calls result t, (serve settings op.request).solo op.inputs s = some (calls, result, t) →
    match op.request with
    | .diagnose payload _ _ _ =>
        ((∃ runId, ⟨.finishRun runId .failed "failed", ()⟩ ∈ calls) →
          s.memory payload.sessionId = none ∧ lastSaved calls = none) ∧
        (result = .error .cancelled → ∀ session ∈ s.session payload.sessionId,
          ∀ memory ∈ lastSaved calls, memory.phase = session.phase)
    | .reviewDiagnosis sessionId payload _ =>
        payload.reviewResult = .needsMoreInfo → result = .ok .unit →
          (∃ session ∈ s.session sessionId, session.phase = .completed) →
          s.memory sessionId = none
    | _ => True

/-! ## One operation -/

/-- The memory of the session after a diagnosis is the last one saved. -/
theorem memory_of_runs {α : Type} {p : Call settings rt α} {payload : ChatRequest}
    {key : Option String} {traceId : String} {interrupt : Interrupt}
    {r : Except ExecutionError α}
    (huses : p.Uses (Request.Calls settings (.diagnose payload key traceId interrupt)))
    (h : p.Runs ok s calls r t) :
    t.memory payload.sessionId = (lastSaved calls).or (s.memory payload.sessionId) := by
  induction h with
  | ret | raise => rfl
  | @call op k s u t x a calls r _ hexec _ ih =>
      have hmemory := exec_memory hexec payload.sessionId
      have hrest := ih (huses.2 a ⟨_, _, _, hexec⟩)
      rw [hrest, hmemory]
      cases op with
      | saveMemory memory =>
          have hsession : memory.sessionId = payload.sessionId := by
            rcases huses.1 with ⟨_, _, _, _, _, hrequest, -⟩ |
              ⟨_, _, _, _, hrequest, state, _, _, hstate, rfl⟩
            · cases hrequest
            · cases hrequest
              exact hstate
          simp only [Op.onMemory, hsession, if_true, lastSaved]
          cases lastSaved calls <;> rfl
      | expireMemory id => cases huses.1
      | _ => rfl

/-- Row and memory of a session agree. -/
def AgreeAt (id : String) (s : Store) : Prop :=
  ∀ row memory, s.session id = some row → s.memory id = some memory → memory.phase = row.phase

theorem AgreeAt.of_untouched {id : String} (h : AgreeAt id s) (hsame : Untouched id s t) :
    AgreeAt id t := by
  intro row memory hrow hmemory
  exact h row memory (hsame.session ▸ hrow) (hsame.memory ▸ hmemory)

theorem agree_of_phases {id : String} {row : SessionRow} (hrow : t.session id = some row)
    (h : ∀ memory, t.memory id = some memory → memory.phase = row.phase) : AgreeAt id t := by
  intro row' memory hrow' hmemory
  cases hrow.symm.trans hrow'
  exact h memory hmemory

/-- Contexts that are refused are those of a creation. -/
theorem restored_of_valid {payload : ChatRequest} {session : SessionRow} {m : SessionMemory}
    {runId traceId : String} {e : ExecutionError} (hm : m.Restorable) :
    initialState payload session (some m) runId traceId ≠ .error e := by
  obtain ⟨hdevice, halarm⟩ := hm
  have hdevice' : ∃ device, initialDevice session (some m) = .ok device := by
    unfold initialDevice
    cases hd : m.deviceContext with
    | none => exact ⟨_, by simp [hd]; rfl⟩
    | some d =>
        obtain ⟨context, hcontext⟩ := Option.isSome_iff_exists.mp (hdevice d hd)
        exact ⟨some context, by simp [hd, hcontext]⟩
  have halarm' : ∃ alarm, initialAlarm session (some m) = .ok alarm := by
    unfold initialAlarm
    cases ha : m.alarmContext with
    | none => exact ⟨_, by simp [ha]; rfl⟩
    | some a =>
        obtain ⟨context, hcontext⟩ := Option.isSome_iff_exists.mp (halarm a ha)
        exact ⟨some context, by simp [ha, hcontext]⟩
  obtain ⟨device, hdevice'⟩ := hdevice'
  obtain ⟨alarm, halarm'⟩ := halarm'
  unfold initialState
  simp [hdevice', halarm', bind, Except.bind, pure, Except.pure]

theorem CreateOutcome.agree (h : CreateOutcome s t) (hs : Coherent s)
    (hagree : ∀ id, AgreeAt id s) (id : String) : AgreeAt id t := by
  cases h with
  | untouched h => exact (hagree id).of_untouched (h id)
  | @created new row hfresh hnew hsession hphase hrun hmemory hothers =>
      by_cases hid : id = new
      · subst hid
        -- nothing was stored under an id that had not been drawn
        have hnone : s.session id = none := by
          cases hold : s.session id with
          | none => rfl
          | some old => exact absurd (hs.sessions id old hold).1 hfresh
        have hnone' : s.memory id = none := by
          cases hold : s.memory id with
          | none => rfl
          | some old => exact absurd (hs.memories id old hold) hfresh
        rw [hnone, Option.none_or] at hsession
        refine agree_of_phases hsession fun memory hm => ?_
        rcases hmemory with hsame | ⟨m, hm', hinit⟩
        · rw [hsame, hnone'] at hm
          cases hm
        · cases hm'.symm.trans hm
          rw [hinit, hphase]
      · exact (hagree id).of_untouched (hothers id hid)

theorem DiagnoseOutcome.agree {payload : ChatRequest} {traceId : String} {interrupt : Interrupt}
    {r : Except ExecutionError DiagnosisResponse}
    (h : DiagnoseOutcome payload traceId interrupt s t calls r) (hs : Coherent s)
    (hagree : AgreeAt payload.sessionId s)
    (hmemory : t.memory payload.sessionId = (lastSaved calls).or (s.memory payload.sessionId))
    (hfailed : (∃ runId, ⟨.finishRun runId .failed "failed", ()⟩ ∈ calls) →
      s.memory payload.sessionId = none ∧ lastSaved calls = none)
    (hcancelled : r = .error .cancelled → ∀ session ∈ s.session payload.sessionId,
      ∀ memory ∈ lastSaved calls, memory.phase = session.phase) :
    AgreeAt payload.sessionId t := by
  cases h with
  | untouched h => exact hagree.of_untouched h
  | ran hsession _ _ _ _ h =>
      cases h with
      | invalid hinvalid hrow hphase _ hsame =>
          refine agree_of_phases hrow fun memory hm => ?_
          rw [hsame] at hm
          rw [hm] at hinvalid
          rcases hs.contexts _ memory hm with hinit | hrestorable
          · rw [hinit, hphase]
          · exact absurd hinvalid (restored_of_valid hrestorable)
      | cancelled hrow hphase _ _ =>
          refine agree_of_phases hrow fun memory hm => ?_
          rw [hmemory] at hm
          rw [hphase]
          rcases Option.or_eq_some_iff.mp hm with hsaved | ⟨-, hbefore⟩
          · exact hcancelled rfl _ hsession memory hsaved
          · exact hagree _ memory hsession hbefore
      | failed _ hrow _ _ hcalled =>
          obtain ⟨hnone, hunsaved⟩ := hfailed ⟨_, hcalled⟩
          refine agree_of_phases hrow fun memory hm => ?_
          rw [hmemory, hnone, hunsaved] at hm
          cases hm
      | finished hrow hphase _ hsaved =>
          refine agree_of_phases hrow fun memory hm => ?_
          cases hsaved.symm.trans hm
          exact hphase.symm

theorem ReviewOutcome.agree {sessionId : String} {payload : DiagnosisReviewRequest}
    {r : Except ExecutionError Unit} (h : ReviewOutcome sessionId payload s t r)
    (hagree : ∀ id, AgreeAt id s)
    (hreview : payload.reviewResult = .needsMoreInfo → r = .ok () →
      (∃ session ∈ s.session sessionId, session.phase = .completed) → s.memory sessionId = none)
    (id : String) : AgreeAt id t := by
  cases h with
  | untouched h => exact (hagree id).of_untouched (h id)
  | @reviewed row row' hrow hrow' _ hphase hmemory hothers =>
      by_cases hid : id = sessionId
      · subst hid
        refine agree_of_phases hrow' fun memory hm => ?_
        rw [hmemory] at hm
        have hbefore := hagree id row memory hrow hm
        rcases hphase with hsame | ⟨hverdict, hneeds, hcompleted | hneeds'⟩
        · rw [hbefore, hsame]
        · rw [hreview hverdict rfl ⟨row, hrow, hcompleted⟩] at hm
          cases hm
        · rw [hbefore, hneeds, hneeds']
      · exact (hagree id).of_untouched ⟨hothers id hid, hmemory id⟩

/-- **One operation under the condition.** -/
theorem agree_step {op : Operation rt} (hs : Coherent s) (hagree : ∀ id, AgreeAt id s)
    (hsteady : Steady settings s op)
    (hstep : (operations settings rt).step s op = some t) (id : String) : AgreeAt id t := by
  obtain ⟨calls, r, hsolo, h⟩ := operations_step hstep
  have hok := hsteady calls r t hsolo
  obtain ⟨request, inputs⟩ := op
  cases request with
  | createSession payload key traceId =>
      obtain ⟨_, hrun, -⟩ := Proc.runs_map h
      exact (runs_createSession hrun).agree hs hagree id
  | diagnose payload key traceId interrupt =>
      obtain ⟨r', hrun, rfl⟩ := Proc.runs_map h
      by_cases hid : id = payload.sessionId
      · subst hid
        refine (runs_diagnose hrun).agree hs (hagree _)
          (memory_of_runs (uses_diagnose payload key traceId interrupt) hrun) hok.1 ?_
        rintro rfl
        exact hok.2 rfl
      · exact (hagree id).of_untouched (diagnose_others hrun hid)
  | getSession sessionId =>
      obtain ⟨_, hrun, -⟩ := Proc.runs_map h
      exact (hagree id).of_untouched
        (runs_quiet hrun (uses_getSession (fun _ => quiet_read) sessionId))
  | reviewDiagnosis sessionId payload recorded =>
      obtain ⟨r', hrun, rfl⟩ := Proc.runs_map h
      refine (runs_reviewDiagnosis hrun).agree hagree ?_ id
      rintro hverdict rfl
      exact hok hverdict rfl
  | expire sessionId =>
      obtain ⟨_, _, u, _, -, hexec, hend, -⟩ := runs_ask_bind h
      obtain ⟨-, -, rfl⟩ := Proc.runs_ret hend
      intro row memory hrow hm
      rw [exec_session hexec] at hrow
      rw [exec_memory hexec] at hm
      simp only [Op.onMemory] at hm
      split at hm
      · cases hm
      · exact hagree id row memory hrow hm

/-- Where row and memory agree, `get_session` answers with the phase of the row. -/
theorem phasesAgree_of_agree (hagree : ∀ id, AgreeAt id s) : PhasesAgree settings rt s where
  stored := hagree
  answered := by
    rintro id row response hrow ⟨calls, u, hrun⟩
    rcases runs_getSession hrow hrun with ⟨m, hm, hr⟩ | ⟨-, run, result, hr, -⟩
    · rw [Except.ok.inj hr]
      exact hagree id row m hrow hm
    · rw [Except.ok.inj hr]
      rfl

/-- **Row and memory agree** after every operation, as long as the operations are steady. -/
theorem phases_agree (h : (operations settings rt).ReachableVia (Steady settings) s) :
    PhasesAgree settings rt s := by
  have hinvariant : Coherent s ∧ ∀ id, AgreeAt id s := by
    refine h.invariant (I := fun s => Coherent s ∧ ∀ id, AgreeAt id s) (fun s hs => ?_) fun s op t hinv hsteady hstep => ?_
    · have hfresh : Fresh s := hs
      refine ⟨coherent_of_fresh hfresh, fun id row memory hrow => ?_⟩
      simp [Store.session, Table.get, hfresh.1] at hrow
    · obtain ⟨calls, r, -, hrun⟩ := operations_step hstep
      exact ⟨hinv.1.step hrun, agree_step hinv.1 hinv.2 hsteady hstep⟩
  exact phasesAgree_of_agree hinvariant.2

end agreement

/-! ## Two runs -/

/-- Enough of `Steady` for the run below. -/
def steadyCheck (s : Store) (op : Operation (workflow sampleDeps)) : Bool :=
  match op.request with
  | .diagnose _ _ _ _ =>
      match (serve sampleSettings op.request).solo op.inputs s with
      | some (calls, .ok _, _) => calls.all fun
          | ⟨.finishRun _ _ status, _⟩ => status ≠ "failed"
          | _ => true
      | _ => false
  | .reviewDiagnosis _ _ _ => false
  | _ => true

theorem steady_of_check (s : Store) (op : Operation (workflow sampleDeps))
    (h : steadyCheck s op = true) : Steady sampleSettings s op := by
  intro calls result t hsolo
  obtain ⟨request, inputs⟩ := op
  cases request with
  | diagnose payload key traceId interrupt =>
      simp only [steadyCheck, hsolo] at h
      cases result with
      | error e => cases h
      | ok reply =>
          refine ⟨?_, nofun⟩
          rintro ⟨runId, hcall⟩
          have hstatus := List.all_eq_true.mp h _ hcall
          simp at hstatus
  | reviewDiagnosis => cases h
  | _ => exact trivial

/-- The inputs of a run that records the run `run-2`. -/
def questionInputs : List (CallInput (workflow sampleDeps)) :=
  List.replicate 2 (sampleInput 2 "" "") ++ [sampleInput 2 "" "run-2"] ++
    List.replicate 18 (sampleInput 2 "" "")

def questionOperation (interrupt : Interrupt) : Operation (workflow sampleDeps) where
  request := .diagnose sampleQuestion none "trace-2" interrupt
  inputs := questionInputs

/-- Row and memory of `session-1`. -/
def phasesOf (s : Store) : Option DiagnosisPhase × Option DiagnosisPhase :=
  ((s.session "session-1").map SessionRow.phase, (s.memory "session-1").map SessionMemory.phase)

/-- A question that ends in a question back. -/
theorem asked_phases_agree : ∃ s, phasesOf s = (some .needUserInput, some .needUserInput) ∧
    PhasesAgree sampleSettings (workflow sampleDeps) s := by
  have hends : (sampleOperations.runChecked steadyCheck emptyStore
      [sampleCreation, questionOperation none]).map phasesOf =
        some (some .needUserInput, some .needUserInput) := by decide +kernel
  obtain ⟨s, hrun, hphases⟩ := Option.map_eq_some_iff.mp hends
  have hreach : sampleOperations.ReachableVia (Steady sampleSettings) s :=
    TransitionSystem.ReachableVia.of_runChecked steady_of_check
      (.init ⟨rfl, rfl, rfl, rfl, rfl⟩) hrun
  exact ⟨s, hphases, phases_agree hreach⟩

/-- A question that is cancelled behind the second node. -/
theorem cancelled_phases_differ : ¬ ∀ s, sampleOperations.Reachable s →
    PhasesAgree sampleSettings (workflow sampleDeps) s := by
  intro hall
  have hends : (sampleOperations.run emptyStore
      [sampleCreation, questionOperation (some (1, .done))]).map phasesOf =
        some (some .init, some .needUserInput) := by decide +kernel
  obtain ⟨s, hrun, hphases⟩ := Option.map_eq_some_iff.mp hends
  obtain ⟨hrow, hmemory⟩ := Prod.mk.inj hphases
  obtain ⟨row, hrow, hphase⟩ := Option.map_eq_some_iff.mp hrow
  obtain ⟨memory, hmemory, hphase'⟩ := Option.map_eq_some_iff.mp hmemory
  have hreach : sampleOperations.Reachable s :=
    TransitionSystem.Reachable.of_run (.init ⟨rfl, rfl, rfl, rfl, rfl⟩) hrun
  have hagree := (hall s hreach).stored _ row memory hrow hmemory
  rw [hphase, hphase'] at hagree
  cases hagree

end EnergyAgent.Agent
