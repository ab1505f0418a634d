import EnergyAgent.Agent.Operations
import EnergyAgent.Agent.Workflow

/-!
# Cancelling a diagnosis

The cancel clause of `diagnose` gives the session row back, and nothing else. `RolledBack` asks for
more: the memory, and with it what `get_session` answers and which answers are accepted.
`cancel_rolls_back_iff` says where the cancellation has to arrive for that.
-/

namespace EnergyAgent.Agent

open EnergyAgent.Lib

section cancellation

variable {settings : DedupSettings} {rt : Runtime} {s t : Store}

/-- What can be observed of a session memory. -/
structure ObservableMemory where
  phase : DiagnosisPhase
  runId : String
  memoryRevision : Int
  clarificationQuestions : List ClarificationQuestion
  pendingQuestionIds : List String
  resolvedQuestionIds : List String
  userFeedbackHistory : List UserFeedback
  evidence : List Evidence
  candidateCauses : List CandidateCause
  deriving DecidableEq

def SessionMemory.observable (m : SessionMemory) : ObservableMemory where
  phase := m.phase
  runId := m.runId
  memoryRevision := m.memoryRevision
  clarificationQuestions := m.clarificationQuestions
  pendingQuestionIds := m.pendingQuestionIds
  resolvedQuestionIds := m.resolvedQuestionIds
  userFeedbackHistory := m.userFeedbackHistory
  evidence := m.evidence
  candidateCauses := m.candidateCauses

variable (settings rt) in
/-- `get_session` may answer so. -/
def Answers (s : Store) (sessionId : String) (r : Except ExecutionError DiagnosisResponse) : Prop :=
  ∃ calls u, (getSession settings sessionId : Call settings rt _).Runs (fun _ => True) s calls r u

variable (settings rt) in
/-- **The request has left nothing behind** in its session. -/
structure RolledBack (payload : ChatRequest) (s t : Store) : Prop where
  session : (t.session payload.sessionId).map (fun row => (row.phase, row.runId)) =
    (s.session payload.sessionId).map fun row => (row.phase, row.runId)
  memory : (t.memory payload.sessionId).map SessionMemory.observable =
    (s.memory payload.sessionId).map SessionMemory.observable
  answers : ∀ r, Answers settings rt t payload.sessionId r ↔ Answers settings rt s payload.sessionId r
  /-- The same clarification answers can be submitted again. -/
  accepted : ∃ row, t.session payload.sessionId = some row ∧ row.phase ≠ .failed ∧
    row.phase ≠ .completed ∧ checkAnswers payload (t.memory payload.sessionId) = .ok ()

/-! ## What `get_session` answers -/

section answers

variable {id : String} {row : SessionRow} {r : Except ExecutionError DiagnosisResponse}

theorem runs_getSession {calls : List (backend settings rt).Call} (hrow : s.session id = some row)
    (h : (getSession settings id : Call settings rt _).Runs (fun _ => True) s calls r t) :
    (∃ m, s.memory id = some m ∧ r = .ok (memoryResponse id m)) ∨
      (s.memory id = none ∧ ∃ run result, r = .ok (persistedResponse row run result) ∧
        ∀ last ∈ run, last ∈ s.runs) := by
  obtain ⟨_, session, u, _, -, hsession, h₁, -⟩ := runs_ask_bind h
  have hlater : Later s u := later_of_read hsession rfl
  obtain rfl : some row = session :=
    hrow.symm.trans (Prod.mk.inj (Option.some.inj (exec_eq_some hsession).2)).1
  obtain ⟨_, memory, v, _, -, hmemory, h₂, -⟩ := runs_ask_bind (f := fun memory => _) h₁
  obtain rfl : s.memory id = memory := by
    rw [← hlater.memory id]
    exact (Prod.mk.inj (Option.some.inj (exec_eq_some hmemory).2)).1
  have hlater' : Later s v := hlater.trans (later_of_read hmemory rfl)
  cases hm : s.memory id with
  | some m =>
      rw [hm] at h₂
      exact Or.inl ⟨m, rfl, (Proc.runs_ret h₂).2.1⟩
  | none =>
      rw [hm] at h₂
      obtain ⟨_, run, w, _, -, hrun, h₃, -⟩ := runs_ask_bind h₂
      obtain ⟨_, result, z, _, -, -, h₄, -⟩ := runs_ask_bind h₃
      refine Or.inr ⟨rfl, run, result, (Proc.runs_ret h₄).2.1, fun last hlast => ?_⟩
      have hnewest := (Prod.mk.inj (Option.some.inj (exec_eq_some hrun).2)).1
      rw [Option.mem_def.mp hlast] at hnewest
      rw [← hlater'.runs]
      exact List.mem_of_mem_filter (newest_mem hnewest)

/-- A read can be made at any time from now on. -/
theorem exec_getSession (settings : DedupSettings) (x : CallInput rt) (s : Store) (id : String) :
    exec settings (.getSession id) { x with now := s.clock } s = some (s.session id, s) := by
  simp [exec, execNow]

theorem exec_getMemory (settings : DedupSettings) (x : CallInput rt) (s : Store) (id : String) :
    exec settings (.getMemory id) { x with now := s.clock } s = some (s.memory id, s) := by
  simp [exec, execNow]

theorem exec_latestRun (settings : DedupSettings) (x : CallInput rt) (s : Store) (id pick : String) :
    exec settings (.latestRun id) { x with now := s.clock, pick := pick } s =
      some (newest RunRow.createdAt RunRow.id pick (s.runs.filter fun r => r.sessionId = id), s) := by
  simp [exec, execNow]

theorem exec_latestResult (settings : DedupSettings) (x : CallInput rt) (s : Store) (id : String) :
    ∃ result, exec settings (.latestResult id) { x with now := s.clock } s = some (result, s) := by
  refine ⟨newest ResultRow.createdAt ResultRow.runId x.pick
    (s.results.filter fun r => r.sessionId = id), ?_⟩
  simp [exec, execNow]

theorem answers_memory (x : CallInput rt) {m : SessionMemory} (hrow : s.session id = some row)
    (hm : s.memory id = some m) : Answers settings rt s id (.ok (memoryResponse id m)) := by
  have hsession := exec_getSession settings x s id
  have hmemory := exec_getMemory settings x s id
  rw [hrow] at hsession
  rw [hm] at hmemory
  exact ⟨_, _, .call trivial hsession (.call trivial hmemory .ret)⟩

/-- Any of the newest runs may be the one in the answer. -/
theorem answers_newest (x : CallInput rt) {run : RunRow} (pick : String)
    (hrow : s.session id = some row) (hm : s.memory id = none)
    (hrun : newest RunRow.createdAt RunRow.id pick (s.runs.filter fun r => r.sessionId = id) =
      some run) :
    ∃ result, Answers settings rt s id (.ok (persistedResponse row (some run) result)) := by
  have hsession := exec_getSession settings x s id
  have hmemory := exec_getMemory settings x s id
  have hlatest := exec_latestRun settings x s id pick
  obtain ⟨result, hresult⟩ := exec_latestResult settings x s id
  rw [hrow] at hsession
  rw [hm] at hmemory
  rw [hrun] at hlatest
  exact ⟨result, _, _, .call trivial hsession (.call trivial hmemory (.call trivial hlatest
    (.call trivial hresult .ret)))⟩

/-- A row that is as new as any other is found when it is asked for. -/
theorem newest_pick {ρ : Type} {createdAt : ρ → Nat} (key : ρ → String) {rows : List ρ} {last : ρ}
    (hlast : last ∈ rows) (hnewest : ∀ r ∈ rows, createdAt r ≤ createdAt last) :
    ∃ r, newest createdAt key (key last) rows = some r ∧ key r = key last := by
  unfold newest
  have hmem : last ∈ rows.filter fun r => rows.all fun r' => createdAt r' ≤ createdAt r := by
    refine List.mem_filter.mpr ⟨hlast, ?_⟩
    simpa using hnewest
  cases hfind : (rows.filter fun r => rows.all fun r' => createdAt r' ≤ createdAt r).find?
      fun r => key r = key last with
  | none =>
      have hno := List.find?_eq_none.mp hfind last hmem
      simp at hno
  | some r =>
      have hkey := List.find?_some hfind
      exact ⟨r, by simp [hfind], by simpa using hkey⟩

end answers

/-! ## Where the cancellation arrives -/

section cancelled

variable {payload : ChatRequest} {key : Option String} {traceId : String} {k : Nat}
  {point : CancelPoint}

/-- A run of a program that makes a call had an input. -/
theorem input_of_runs {α : Type} {op : Op rt} {f : Ans rt op → Call settings rt α}
    {calls : List (backend settings rt).Call} {r : Except ExecutionError α}
    (h : (ask op >>= f).Runs (fun _ => True) s calls r t) : Nonempty (CallInput rt) := by
  obtain ⟨x, -⟩ := runs_ask_bind h
  exact ⟨x⟩

/-- Without a memory, the cancelled run is an answer of `get_session`, and was none before. -/
theorem answers_differ {runId : String} {time : Nat} {session row : SessionRow} (x : CallInput rt)
    (hs : Coherent s) (hnew : NewRun payload.sessionId s t runId time)
    (hsession : s.session payload.sessionId = some session)
    (hrow : t.session payload.sessionId = some row)
    (hnone : s.memory payload.sessionId = none) (hnone' : t.memory payload.sessionId = none) :
    ∃ r, Answers settings rt t payload.sessionId r ∧
      ¬ Answers settings rt s payload.sessionId r := by
  obtain ⟨run, hrun, hid, hrunSession, htime⟩ := hnew.stored
  have hmem : run ∈ t.runs.filter fun r => r.sessionId = payload.sessionId :=
    List.mem_filter.mpr ⟨hrun, by simpa using hrunSession⟩
  have hnewest : ∀ r ∈ t.runs.filter fun r => r.sessionId = payload.sessionId,
      r.createdAt ≤ run.createdAt := by
    intro r hr
    rw [htime]
    rcases hnew.others r (List.mem_of_mem_filter hr) with hr' | ⟨old, hold, hsame⟩
    · exact hr'.le
    · rw [hsame.createdAt]
      exact (hs.runs old hold).trans hnew.clock
  obtain ⟨last, hlast, hlastId⟩ := newest_pick RunRow.id hmem hnewest
  obtain ⟨result, hanswer⟩ := answers_newest x run.id hrow hnone' hlast
  refine ⟨_, hanswer, ?_⟩
  rintro ⟨calls, u, hget⟩
  rcases runs_getSession hsession hget with ⟨m, hm, -⟩ | ⟨-, before, result', heq, hbefore⟩
  · rw [hnone] at hm
    cases hm
  · have hresponse := Except.ok.inj heq
    have hrunId : last.id = (before.map RunRow.id).getD session.runId :=
      congrArg DiagnosisResponse.runId hresponse
    cases before with
    | none =>
        refine hnew.fresh ?_
        rw [← hid, ← hlastId, hrunId]
        exact (hs.sessions _ _ hsession).2
    | some old => exact hnew.unused old (hbefore old rfl) (hrunId.symm.trans (hlastId.trans hid))

/-- Where a memory is as it was and the row has its phase and run again, nothing is left. -/
theorem rolledBack_of_untouched {row session : SessionRow} {m : SessionMemory} (x : CallInput rt)
    (hsession : s.session payload.sessionId = some session)
    (hfailed : session.phase ≠ .failed) (hcompleted : session.phase ≠ .completed)
    (haccepted : checkAnswers payload (s.memory payload.sessionId) = .ok ())
    (hrow : t.session payload.sessionId = some row) (hphase : row.phase = session.phase)
    (hrun : row.runId = session.runId) (hm : s.memory payload.sessionId = some m)
    (hmemory : t.memory payload.sessionId = s.memory payload.sessionId) :
    RolledBack settings rt payload s t where
  session := by simp [hsession, hrow, hphase, hrun]
  memory := by rw [hmemory]
  answers r := by
    have honly : ∀ {u : Store} {row : SessionRow}, u.session payload.sessionId = some row →
        u.memory payload.sessionId = some m →
        (Answers settings rt u payload.sessionId r ↔
          r = .ok (memoryResponse payload.sessionId m)) := by
      intro u row hrow hum
      constructor
      · rintro ⟨calls, v, hget⟩
        rcases runs_getSession hrow hget with ⟨m', hm', hr⟩ | ⟨hnone, -⟩
        · cases hum.symm.trans hm'
          exact hr
        · rw [hum] at hnone
          cases hnone
      · rintro rfl
        exact answers_memory x hrow hum
    rw [honly hrow (hmemory.trans hm), honly hsession hm]
  accepted := ⟨row, hrow, hphase ▸ hfailed, hphase ▸ hcompleted, hmemory ▸ haccepted⟩

/-- **A cancelled diagnosis leaves nothing behind** exactly where the cancellation arrives before
the first node has saved the memory, and there is a memory. -/
theorem cancel_rolls_back_iff {calls : List (backend settings rt).Call}
    (hs : (operations settings rt).Reachable s)
    (h : (diagnose settings payload key traceId (some (k, point)) : Call settings rt _).Runs
      (fun _ => True) s calls (.error .cancelled) t) :
    RolledBack settings rt payload s t ↔
      (k = 0 ∧ point ≠ .done) ∧ (s.memory payload.sessionId).isSome := by
  obtain ⟨x⟩ := input_of_runs h
  cases runs_diagnose h with
  | untouched _ hr => exact absurd rfl hr
  | ran hsession hfailed hcompleted haccepted hnew hrun =>
      cases hrun with
      | failed he => exact absurd rfl he
      | cancelled hrow hphase hrunId hmemory =>
          rcases hmemory with ⟨hsame, point', hinterrupt, hpoint⟩ |
            ⟨m, k', point', hm, hrevision, hinterrupt, hlate⟩
          · cases hinterrupt
            refine ⟨fun hback => ⟨⟨rfl, hpoint⟩, ?_⟩, fun ⟨_, hsome⟩ => ?_⟩
            · cases hnone : s.memory payload.sessionId with
              | some m => rfl
              | none =>
                  obtain ⟨r, hafter, hbefore⟩ := answers_differ x (coherent_of_reachable hs) hnew
                    hsession hrow hnone (hsame.trans hnone)
                  exact absurd ((hback.answers r).mp hafter) hbefore
            · obtain ⟨m, hm⟩ := Option.isSome_iff_exists.mp hsome
              exact rolledBack_of_untouched x hsession hfailed hcompleted haccepted hrow hphase
                hrunId hm hsame
          · cases hinterrupt
            refine ⟨fun hback => ?_, fun ⟨⟨hk, hpoint⟩, _⟩ => ?_⟩
            · have hobservable := hback.memory
              rw [hm] at hobservable
              cases hold : s.memory payload.sessionId with
              | none =>
                  rw [hold] at hobservable
                  cases hobservable
              | some old =>
                  rw [hold] at hobservable hrevision
                  have hsame : m.memoryRevision = old.memoryRevision :=
                    congrArg ObservableMemory.memoryRevision (Option.some.inj hobservable)
                  have hnext : m.memoryRevision = old.memoryRevision + 1 := hrevision
                  omega
            · rcases hlate with hk' | hdone
              · omega
              · exact absurd hdone hpoint

end cancelled

end cancellation

/-! ## Two cancellations -/

/-- The calls that create the session `session-1` for a chat. -/
def sampleCreation : Operation (workflow sampleDeps) where
  request := .createSession chatPayload none "trace-1"
  inputs := [sampleInput 1 "session-1" "run-1", sampleInput 1 "" "run-1'", sampleInput 1 "" ""]

abbrev sampleOperations : TransitionSystem Store (Operation (workflow sampleDeps)) :=
  operations sampleSettings (workflow sampleDeps)

/-- A session that has not been asked anything. -/
def createdStore : Store := (sampleOperations.run emptyStore [sampleCreation]).get rfl

theorem createdStore_reachable : sampleOperations.Reachable createdStore :=
  TransitionSystem.Reachable.of_run (.init ⟨rfl, rfl, rfl, rfl, rfl⟩) (Option.some_get rfl).symm

/-- The question, cancelled at a point of the first node. -/
def cancelledQuestion (point : CancelPoint) :
    Call sampleSettings (workflow sampleDeps) DiagnosisResponse :=
  diagnose sampleSettings sampleQuestion none "trace-2" (some (0, point))

def cancelledInputs : List (CallInput (workflow sampleDeps)) :=
  List.replicate 2 (sampleInput 2 "" "") ++ [sampleInput 2 "" "run-2"] ++
    List.replicate 6 (sampleInput 2 "" "")

/-- The store in which a cancelled run ends. -/
def cancelledStore {β γ : Type} : Option (β × Except ExecutionError γ × Store) → Option Store
  | some (_, .error e, t) => if e = .cancelled then some t else none
  | _ => none

theorem runs_of_cancelledStore {rt : Runtime} {settings : DedupSettings} {α : Type}
    {p : Call settings rt α} {xs : List (CallInput rt)} {s t : Store}
    (h : cancelledStore (p.solo xs s) = some t) :
    ∃ calls, p.Runs (fun _ => True) s calls (.error .cancelled) t := by
  match hsolo : p.solo xs s with
  | none => simp [hsolo, cancelledStore] at h
  | some (calls, .ok a, t') => simp [hsolo, cancelledStore] at h
  | some (calls, .error e, t') =>
      simp only [hsolo, cancelledStore, Option.ite_none_right_eq_some, Option.some.injEq] at h
      obtain ⟨rfl, rfl⟩ := h
      exact ⟨calls, Proc.runs_of_solo (fun _ _ => trivial) hsolo⟩

theorem early_cancellation_rolls_back : ∃ calls t,
    (cancelledQuestion .save).Runs (fun _ => True) createdStore calls (.error .cancelled) t ∧
      RolledBack sampleSettings (workflow sampleDeps) sampleQuestion createdStore t := by
  have hends : (cancelledStore ((cancelledQuestion .save).solo cancelledInputs
      createdStore)).isSome := by decide +kernel
  obtain ⟨t, ht⟩ := Option.isSome_iff_exists.mp hends
  obtain ⟨calls, hrun⟩ := runs_of_cancelledStore ht
  exact ⟨calls, t, hrun, (cancel_rolls_back_iff createdStore_reachable hrun).mpr ⟨⟨rfl, nofun⟩, rfl⟩⟩

/-- A cancellation after the first node leaves the memory of the cancelled run. -/
theorem late_cancellation_stays :
    ¬ ∀ s t payload key traceId k point calls, sampleOperations.Reachable s →
      (diagnose sampleSettings payload key traceId (some (k, point)) :
        Call sampleSettings (workflow sampleDeps) _).Runs (fun _ => True) s calls
          (.error .cancelled) t →
      RolledBack sampleSettings (workflow sampleDeps) payload s t := by
  intro hall
  have hends : (cancelledStore ((cancelledQuestion .done).solo cancelledInputs
      createdStore)).map (fun t => (t.memory "session-1").map SessionMemory.memoryRevision) =
        some (some 2) := by decide +kernel
  obtain ⟨t, ht, hrevision⟩ := Option.map_eq_some_iff.mp hends
  obtain ⟨calls, hrun⟩ := runs_of_cancelledStore ht
  have hmemory := (hall _ _ _ _ _ _ _ _ createdStore_reachable hrun).memory
  have hsame := congrArg (Option.map ObservableMemory.memoryRevision) hmemory
  rw [Option.map_map, Option.map_map] at hsame
  have hbefore : (createdStore.memory "session-1").map SessionMemory.memoryRevision = some 1 := rfl
  exact absurd (hrevision.symm.trans (hsame.trans hbefore)) (by decide)

end EnergyAgent.Agent
