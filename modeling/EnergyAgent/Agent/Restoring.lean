import EnergyAgent.Agent.CallRules
import EnergyAgent.Agent.Workflow

/-!
# A stored session as the start of a run

`diagnose` builds the state of the workflow from the memory of the session. `_memory_payload` dumps
whole contexts; `create_session` stores the keys that its request has, and the strict models refuse
a site without a device, an alarm name without an alarm id, and an alarm id without a name.
-/

namespace EnergyAgent.Agent

open EnergyAgent.Lib

variable {settings : DedupSettings} {rt : Runtime}

/-- The site comes with its device, the id of the alarm with its name. -/
def CreateSessionRequest.Complete (payload : CreateSessionRequest) : Prop :=
  (payload.siteId.isSome → payload.deviceId.isSome) ∧
    (payload.alarmId.isSome ↔ payload.alarmName.isSome)

instance (payload : CreateSessionRequest) : Decidable payload.Complete :=
  inferInstanceAs (Decidable (_ ∧ _))

/-! ## The state that the workflow starts from -/

theorem initialDevice_total {session : SessionRow} {memory : Option SessionMemory} :
    (∃ context, initialDevice session memory = .ok context) ↔
      ∀ m ∈ memory, ∀ dump ∈ m.deviceContext, dump.validate.isSome := by
  unfold initialDevice
  cases memory with
  | none => simp
  | some m =>
      cases hdump : m.deviceContext with
      | none => simp [hdump]
      | some dump => cases hcontext : dump.validate <;> simp [hdump, hcontext]

theorem initialAlarm_total {session : SessionRow} {memory : Option SessionMemory} :
    (∃ context, initialAlarm session memory = .ok context) ↔
      ∀ m ∈ memory, ∀ dump ∈ m.alarmContext, dump.validate.isSome := by
  unfold initialAlarm
  cases memory with
  | none => simp
  | some m =>
      cases hdump : m.alarmContext with
      | none => simp [hdump]
      | some dump => cases hcontext : dump.validate <;> simp [hdump, hcontext]

/-- The memory is all that can be wrong with the state a run starts from. -/
theorem initialState_total {payload : ChatRequest} {session : SessionRow}
    {memory : Option SessionMemory} {runId traceId : String} :
    (∃ initial, initialState payload session memory runId traceId = .ok initial) ↔
      ∀ m ∈ memory, m.Restorable := by
  have hparts : (∃ initial, initialState payload session memory runId traceId = .ok initial) ↔
      (∃ context, initialDevice session memory = .ok context) ∧
        ∃ context, initialAlarm session memory = .ok context := by
    unfold initialState
    cases hdevice : initialDevice session memory with
    | error e => simp [bind, Except.bind]
    | ok device =>
        cases halarm : initialAlarm session memory with
        | error e => simp [bind, Except.bind]
        | ok alarm => simp [bind, Except.bind, pure, Except.pure]
  rw [hparts, initialDevice_total, initialAlarm_total]
  exact ⟨fun h m hm => ⟨h.1 m hm, h.2 m hm⟩,
    fun h => ⟨fun m hm => (h m hm).device, fun m hm => (h m hm).alarm⟩⟩

/-- A creation leaves a memory that can be read again exactly when its request is complete. -/
theorem restorable_initialMemory {payload : CreateSessionRequest} {sessionId runId traceId : String} :
    (initialMemory payload sessionId runId traceId).Restorable ↔ payload.Complete := by
  obtain ⟨source, site, device, alarm, name, hentities⟩ := payload
  have hdevice : (∀ dump ∈ (initialMemory ⟨source, site, device, alarm, name, hentities⟩ sessionId
      runId traceId).deviceContext, dump.validate.isSome) ↔ (site.isSome → device.isSome) := by
    cases site <;> cases device <;> simp [initialMemory, DeviceDump.validate]
  have halarm : (∀ dump ∈ (initialMemory ⟨source, site, device, alarm, name, hentities⟩ sessionId
      runId traceId).alarmContext, dump.validate.isSome) ↔ (alarm.isSome ↔ name.isSome) := by
    cases alarm <;> cases name <;> simp [initialMemory, AlarmDump.validate]
  exact ⟨fun h => ⟨hdevice.mp h.device, halarm.mp h.alarm⟩,
    fun h => ⟨hdevice.mpr h.1, halarm.mpr h.2⟩⟩

/-! ## Programs that do not fail before the workflow -/

/-- The store holds memories that can be read again. -/
def Store.Restorable (s : Store) : Prop := ∀ id m, s.memory id = some m → m.Restorable

/-- The call runs a node of the workflow. -/
def Op.isNode : Op rt → Bool
  | .node _ _ _ => true
  | _ => false

def Event.isNode (e : Event (backend settings rt) Request) : Bool := e.op.isNode

/-- The answer of such a store. -/
def Restores : (op : Op rt) → Ans rt op → Prop
  | .getMemory _, some m => m.Restorable
  | _, _ => True

/-- The program raises no validation error before it has called a node. -/
def Starts {α : Type} : Call settings rt α → Prop
  | .ret _ => True
  | .raise e => e ≠ .validationError
  | .call op k => op.isNode = true ∨ ∀ a, Restores op a → Starts (k a)

section starts

variable {α β : Type}

theorem Starts.bind {x : Call settings rt α} {f : α → Call settings rt β} (hx : Starts x)
    (hf : ∀ a, Starts (f a)) : Starts (x >>= f) := by
  induction x with
  | ret a => exact hf a
  | raise e => exact hx
  | call op k ih =>
      rcases hx with hnode | hk
      · exact .inl hnode
      · exact .inr fun a ha => ih a (hk a ha)

theorem Starts.handle {x : Call settings rt α} {h : ExecutionError → Call settings rt α}
    (hx : Starts x) (hh : ∀ e, e ≠ .validationError → Starts (h e)) : Starts (x.handle h) := by
  induction x with
  | ret a => exact trivial
  | raise e => exact hh e hx
  | call op k ih =>
      rcases hx with hnode | hk
      · exact .inl hnode
      · exact .inr fun a ha => ih a (hk a ha)

theorem starts_ask (op : Op rt) : Starts (ask op : Call settings rt _) :=
  .inr fun _ _ => trivial

theorem starts_raiseIf (c : Prop) [Decidable c] {e : ExecutionError} (he : e ≠ .validationError) :
    Starts (Proc.raiseIf c e : Call settings rt Unit) := by
  unfold Proc.raiseIf
  split
  · exact he
  · exact trivial

theorem starts_orRaise {e : ExecutionError} (he : e ≠ .validationError) (o : Option α) :
    Starts (orRaise e o : Call settings rt α) := by
  cases o with
  | none => exact he
  | some a => exact trivial

theorem starts_updateSession (id : String) (update : SessionUpdate) :
    Starts (updateSession id update : Call settings rt Unit) :=
  (starts_ask _).bind fun _ => starts_raiseIf _ (by decide)

end starts

section requests

variable (payload : ChatRequest) (key : Option String) (traceId : String) (interrupt : Interrupt)

theorem starts_getSession (sessionId : String) :
    Starts (getSession settings sessionId : Call settings rt _) := by
  refine (starts_ask _).bind fun session => (starts_orRaise (by decide) _).bind fun session =>
    (starts_ask _).bind fun memory => ?_
  cases memory with
  | some memory => exact trivial
  | none => exact (starts_ask _).bind fun _ => (starts_ask _).bind fun _ => trivial

theorem starts_registerSession (payload : CreateSessionRequest) (sessionId : String) :
    Starts (registerSession settings payload sessionId : Call settings rt _) := by
  unfold registerSession
  cases dedupKeyOf settings payload with
  | none => exact trivial
  | some dedupKey =>
      exact (starts_ask _).bind fun _ => (starts_ask _).bind fun _ =>
        (starts_orRaise (by decide) _).bind fun _ => trivial

theorem starts_createFresh (payload : CreateSessionRequest) :
    Starts (createFresh settings payload key traceId : Call settings rt _) :=
  (starts_ask _).bind fun _ => (starts_ask _).bind fun _ => (starts_orRaise (by decide) _).bind fun _ =>
    (starts_ask _).bind fun _ => (starts_registerSession payload _).bind fun _ => trivial

theorem starts_createUnlessMerged (payload : CreateSessionRequest) :
    Starts (createUnlessMerged settings payload key traceId : Call settings rt _) := by
  unfold createUnlessMerged
  cases dedupKeyOf settings payload with
  | none => exact starts_createFresh key traceId payload
  | some dedupKey =>
      refine (starts_ask _).bind fun ⟨found, _⟩ => ?_
      cases found with
      | none => exact starts_createFresh key traceId payload
      | some hit => exact (starts_ask _).bind fun _ => (starts_orRaise (by decide) _).bind fun _ => trivial

theorem starts_createSession (payload : CreateSessionRequest) :
    Starts (createSession settings payload key traceId : Call settings rt _) := by
  unfold createSession
  cases Text.truthy key with
  | none => exact starts_createUnlessMerged key traceId payload
  | some k =>
      refine (starts_ask _).bind fun existing => ?_
      cases existing with
      | none => exact starts_createUnlessMerged key traceId payload
      | some existing =>
          exact (starts_raiseIf _ (by decide)).bind fun _ => (starts_ask _).bind fun _ =>
            (starts_orRaise (by decide) _).bind fun _ => trivial

theorem starts_explainPrevious (memory : Option SessionMemory) :
    Starts (explainPrevious settings payload key traceId memory : Call settings rt _) := by
  refine Starts.bind ?_ fun _ => (starts_ask _).bind fun _ => (starts_ask _).bind fun _ =>
    (starts_orRaise (by decide) _).bind fun _ => (starts_ask _).bind fun _ => trivial
  unfold previousResult
  cases memory.bind SessionMemory.finalResult with
  | some result => exact trivial
  | none => exact (starts_ask _).bind fun _ => starts_orRaise (by decide) _

theorem checkAnswer_ne {memory : SessionMemory} {seen : List String} {answers : List UserFeedback}
    {e : ExecutionError} (h : checkAnswer memory seen answers = .error e) : e ≠ .validationError := by
  induction answers generalizing seen with
  | nil => cases h
  | cons answer rest ih =>
      rw [checkAnswer] at h
      split at h
      · cases h
        exact nofun
      · split at h
        · cases h
          exact nofun
        · split at h
          · cases h
            exact nofun
          · exact ih h

theorem starts_checkAnswers (memory : Option SessionMemory) :
    Starts (liftExcept settings (checkAnswers payload memory) : Call settings rt _) := by
  cases hcheck : checkAnswers payload memory with
  | ok _ => exact trivial
  | error e =>
      unfold checkAnswers at hcheck
      split at hcheck
      · cases hcheck
      · split at hcheck
        · cases hcheck
          exact nofun
        · split at hcheck
          · cases hcheck
            exact nofun
          · exact checkAnswer_ne hcheck

/-- The first call of the workflow is a node. -/
theorem starts_runGraph (limit k : Nat) (n : rt.Node) (state : DiagnosisState)
    (toolData : rt.ToolData) :
    Starts (runGraph settings interrupt limit k n state toolData : Call settings rt _) := by
  cases limit with
  | zero => exact nofun
  | succ limit => exact (starts_raiseIf _ (by decide)).bind fun _ => Or.inl rfl

theorem starts_onWorkflowError (sessionId : String) (session : SessionRow) (runId : String)
    {e : ExecutionError} (he : e ≠ .validationError) {α : Type} :
    Starts (onWorkflowError settings sessionId session runId e : Call settings rt α) := by
  cases e <;>
    exact (starts_ask _).bind fun _ => (starts_updateSession _ _).bind fun _ => he

/-- A run that starts from a memory that can be read again. -/
theorem starts_runDiagnosis (session : SessionRow) {memory : Option SessionMemory}
    (h : ∀ m ∈ memory, m.Restorable) (runId : String) :
    Starts (runDiagnosis settings payload traceId interrupt session memory runId :
      Call settings rt _) := by
  refine (starts_updateSession _ _).bind fun _ => ?_
  obtain ⟨initial, hinitial⟩ := initialState_total.mpr h
  rw [hinitial]
  refine Starts.bind (x := .ret initial) trivial fun initial => ?_
  refine ((starts_runGraph interrupt _ _ _ _ _).handle fun e he =>
    starts_onWorkflowError _ _ _ he).bind fun state => ?_
  exact (starts_ask _).bind fun _ => (starts_ask _).bind fun _ =>
    (starts_updateSession _ _).bind fun _ => (starts_ask _).bind fun _ => trivial

theorem starts_diagnoseNew (session : SessionRow) :
    Starts (diagnoseNew settings payload key traceId interrupt session : Call settings rt _) := by
  refine (starts_raiseIf _ (by decide)).bind fun _ => Or.inr fun memory hmemory => ?_
  have hread : ∀ m ∈ memory, m.Restorable := by
    intro m hm
    cases hm
    exact hmemory
  show Starts (if session.phase = .completed then _ else _)
  split
  · split
    · exact nofun
    · exact starts_explainPrevious payload key traceId memory
  · exact (starts_checkAnswers payload memory).bind fun _ => (starts_ask _).bind fun _ =>
      (starts_orRaise (by decide) _).bind fun runId =>
      starts_runDiagnosis payload traceId interrupt session hread runId

theorem starts_diagnose :
    Starts (diagnose settings payload key traceId interrupt : Call settings rt _) := by
  refine (starts_ask _).bind fun session => (starts_orRaise (by decide) _).bind fun session => ?_
  cases Text.truthy key with
  | none => exact starts_diagnoseNew payload key traceId interrupt session
  | some k =>
      refine (starts_ask _).bind fun existing => ?_
      cases existing with
      | none => exact starts_diagnoseNew payload key traceId interrupt session
      | some existing => exact (starts_raiseIf _ (by decide)).bind fun _ => starts_getSession _

end requests

theorem starts_serve (r : Request) : Starts (serve settings r : Call settings rt _) := by
  cases r with
  | createSession payload key traceId =>
      exact (starts_createSession key traceId payload).bind fun _ => trivial
  | diagnose payload key traceId interrupt =>
      exact (starts_diagnose payload key traceId interrupt).bind fun _ => trivial
  | getSession sessionId => exact (starts_getSession sessionId).bind fun _ => trivial
  | expire sessionId => exact (starts_ask _).bind fun _ => trivial
  | reviewDiagnosis sessionId payload recorded =>
      refine Starts.bind ((starts_ask _).bind fun _ => (starts_ask _).bind fun _ =>
        (starts_orRaise (by decide) _).bind fun _ => (starts_orRaise (by decide) _).bind fun _ =>
        (starts_raiseIf _ (by decide)).bind fun _ => (starts_raiseIf _ (by decide)).bind fun _ =>
        (starts_raiseIf _ (by decide)).bind fun _ => (starts_raiseIf _ (by decide)).bind fun _ => ?_)
        fun _ => trivial
      cases payload.reviewResult with
      | confirmed => exact trivial
      | needsMoreInfo | rejected => exact starts_updateSession _ _

/-! ## Every run -/

/-- Only complete requests create sessions. -/
def CompleteCreations (_ : AgentPool settings rt) : AgentMove settings rt → Prop
  | .start (.createSession payload _ _) => payload.Complete
  | _ => True

/-- **Every session can be diagnosed**: no request has raised a validation error before it has
called a node, and the next request on a session will not. -/
structure Diagnosable (p : AgentPool settings rt) : Prop where
  started : ∀ (i : Nat) (r : Request), p.tasks[i]? = some ⟨r, .raise .validationError⟩ →
    ∃ e ∈ own i p.config.history, Event.isNode e = true
  rebuilt : ∀ id memory, p.config.store.memory id = some memory →
    ∀ (chat : ChatRequest) (session : SessionRow) (runId traceId : String),
      ∃ initial, initialState chat session (some memory) runId traceId = .ok initial

structure RestoreInvariant (p : AgentPool settings rt) : Prop where
  complete : ∀ (i : Nat) (t : Task (backend settings rt) Request ExecutionError Reply)
    (payload : CreateSessionRequest) (key : Option String) (traceId : String),
    p.tasks[i]? = some t → t.request = .createSession payload key traceId → payload.Complete
  restorable : p.config.store.Restorable
  starts : ∀ (i : Nat) (t : Task (backend settings rt) Request ExecutionError Reply),
    p.tasks[i]? = some t → Starts t.rest ∨ ∃ e ∈ own i p.config.history, Event.isNode e = true

/-- A request that only stores what can be read again keeps the memories so. -/
theorem Store.Restorable.call {op : Op rt} {x : CallInput rt} {s t : Store} {a : Ans rt op}
    (hs : s.Restorable) (hexec : exec settings op x s = some (a, t))
    (hsave : ∀ memory, op = .saveMemory memory → memory.Restorable) : t.Restorable := by
  intro id m hm
  by_cases hwrites : op.writes = some .memories
  · have h := (exec_eq_some hexec).2
    cases op with
    | saveMemory memory =>
        cases h
        by_cases hid : id = memory.sessionId
        · have hm : Table.get SessionMemory.sessionId (Table.upsert SessionMemory.sessionId s.memories
              memory) id = some m := hm
          rw [hid, Table.get_upsert_self] at hm
          exact Option.some.inj hm ▸ hsave memory rfl
        · have hm : Table.get SessionMemory.sessionId (Table.upsert SessionMemory.sessionId s.memories
              memory) id = some m := hm
          rw [Table.get_upsert_ne _ hid] at hm
          exact hs id m hm
    | expireMemory sessionId =>
        cases h
        have hm : Table.get SessionMemory.sessionId (Table.delete SessionMemory.sessionId s.memories
            sessionId) id = some m := hm
        rw [Table.get_delete] at hm
        split at hm
        · cases hm
        · exact hs id m hm
    | _ => cases hwrites
  · rw [Store.memory, (exec_frame hexec).memories hwrites] at hm
    exact hs id m hm

/-- The store answers with what it holds. -/
theorem Store.Restorable.restores {op : Op rt} {x : CallInput rt} {s t : Store} {a : Ans rt op}
    (hs : s.Restorable) (hexec : exec settings op x s = some (a, t)) : Restores op a := by
  cases op with
  | getMemory sessionId =>
      obtain ⟨rfl, -⟩ := Prod.mk.inj (Option.some.inj (exec_eq_some hexec).2)
      cases hmemory : s.memory sessionId with
      | none =>
          have hnone : ({ s with clock := x.now } : Store).memory sessionId = none := hmemory
          rw [hnone]
          exact trivial
      | some m =>
          have hsome : ({ s with clock := x.now } : Store).memory sessionId = some m := hmemory
          rw [hsome]
          exact hs sessionId m hmemory
  | _ => exact trivial

theorem restoreInvariant_of_reachable {p : AgentPool settings rt}
    (h : (system settings rt).ReachableVia CompleteCreations p) : RestoreInvariant p := by
  induction h with
  | init hinit =>
      obtain ⟨⟨-, -, -, hmemories, -⟩, -, htasks⟩ := hinit
      refine ⟨?_, ?_, ?_⟩
      · simp [htasks]
      · intro id m hm
        simp [Store.memory, hmemories, Table.get] at hm
      · simp [htasks]
  | @step p q m hreach hok hstep ih =>
      rcases Pool.step_cases hstep with ⟨r, rfl, rfl⟩ | ⟨i, x, r, op, k, a, c, rfl, htask, hexec, rfl⟩
      · refine ⟨?_, ih.restorable, ?_⟩
        · intro j t payload key traceId ht hrequest
          rcases Pool.task_start ht with hold | ⟨-, rfl⟩
          · exact ih.complete j t payload key traceId hold hrequest
          · cases hrequest
            exact hok
        · intro j t ht
          rcases Pool.task_start ht with hold | ⟨-, rfl⟩
          · exact ih.starts j t hold
          · exact .inl (starts_serve r)
      · have hstore := (Config.exec_eq_some hexec).1
        have hcalls := (Pool.uses_of_reachable uses_serve hreach i _ htask).1
        refine ⟨?_, ?_, ?_⟩
        · intro j t payload key traceId ht hrequest
          rcases Pool.task_step ht with ⟨rfl, rfl⟩ | ⟨-, hold⟩
          · exact ih.complete _ _ payload key traceId htask hrequest
          · exact ih.complete j t payload key traceId hold hrequest
        · refine ih.restorable.call hstore fun memory hop => ?_
          subst hop
          rcases hcalls with ⟨payload, key, traceId, sessionId, runId, hr, rfl⟩ |
            ⟨payload, key, traceId, interrupt, hr, state, result, node, -, rfl⟩
          · exact restorable_initialMemory.mpr (ih.complete i _ payload key traceId htask hr)
          · exact restorable_memoryPayload state result node
        · intro j t ht
          rcases Pool.task_step ht with ⟨rfl, rfl⟩ | ⟨hj, hold⟩
          · rcases ih.starts _ _ htask with hstarts | ⟨e, he, hnode⟩
            · rcases hstarts with hnode | hk
              · refine .inr ⟨⟨j, r, op, a⟩, ?_, hnode⟩
                rw [Config.exec_own hexec]
                exact List.mem_append_right _ (List.mem_singleton_self _)
              · exact .inl (hk a (ih.restorable.restores hstore))
            · refine .inr ⟨e, ?_, hnode⟩
              rw [Config.exec_own hexec]
              exact List.mem_append_left _ he
          · rcases ih.starts j t hold with hstarts | ⟨e, he, hnode⟩
            · exact .inl hstarts
            · refine .inr ⟨e, ?_, hnode⟩
              rw [(Config.exec_others hexec hj).own_eq]
              exact he

/-- **Every session that a complete request creates can be diagnosed**, and no other one. -/
theorem sessions_diagnosable {p : AgentPool settings rt}
    (h : (system settings rt).ReachableVia CompleteCreations p) :
    Diagnosable p ∧
    (∀ (payload : CreateSessionRequest) (session : SessionRow) (sessionId runId traceId : String),
      (∀ (chat : ChatRequest) (runId' traceId' : String), chat.message ≠ "" →
        ∃ initial, initialState chat session (some (initialMemory payload sessionId runId traceId))
          runId' traceId' = .ok initial) ↔ payload.Complete) ∧
    ∀ (state : DiagnosisState) (result : Option DiagnosisResult) (chat : ChatRequest)
      (session : SessionRow) (runId traceId : String), ∃ initial,
        initialState chat session (some (memoryPayload state result)) runId traceId = .ok initial := by
  have hp := restoreInvariant_of_reachable h
  refine ⟨⟨?_, ?_⟩, ?_, ?_⟩
  · intro i r htask
    rcases hp.starts i _ htask with hstarts | hnode
    · exact absurd rfl hstarts
    · exact hnode
  · intro id memory hmemory chat session runId traceId
    refine initialState_total.mpr fun m hm => ?_
    cases hm
    exact hp.restorable id memory hmemory
  · intro payload session sessionId runId traceId
    rw [← @restorable_initialMemory payload sessionId runId traceId]
    constructor
    · intro hall
      exact initialState_total.mp (hall ⟨sessionId, "message", [], none, none⟩ runId traceId
        (show "message" ≠ "" by decide)) _ rfl
    · intro hrestorable chat runId' traceId' _
      refine initialState_total.mpr fun m hm => ?_
      cases hm
      exact hrestorable
  · intro state result chat session runId traceId
    refine initialState_total.mpr fun m hm => ?_
    cases hm
    exact restorable_memoryPayload state result _

/-! ## Two sessions -/

/-- `CompleteCreations`, evaluated. -/
def completeCheck (_ : SamplePool) : SampleMove → Bool
  | .start (.createSession payload _ _) => payload.Complete
  | _ => true

theorem completeCreations_of_check (p : SamplePool) (m : SampleMove) (h : completeCheck p m = true) :
    CompleteCreations p m := by
  cases m with
  | step i x => exact trivial
  | start r =>
      cases r with
      | createSession payload key traceId =>
          have hcomplete : payload.Complete := of_decide_eq_true h
          exact hcomplete
      | _ => exact trivial

/-- A session is created, and asked its first question. -/
def firstQuestion (payload : CreateSessionRequest) : List SampleMove :=
  [.start (.createSession payload none "trace-1")] ++
    calls 0 [sampleInput 1 "session-1" "run-1", sampleInput 1 "" "run-1'", sampleInput 1 "" ""] ++
    [.start (.diagnose sampleQuestion none "trace-2" none)] ++
    calls 1 (List.replicate 5 (sampleInput 2 "" "run-2"))

/-- A session without entities. -/
theorem chat_session_diagnosable : ∃ p, sampleSystem.ReachableVia CompleteCreations p ∧
    (p.config.history.any Event.isNode) = true ∧ Diagnosable p := by
  have hends : ((sampleSystem.runChecked completeCheck emptyPool (firstQuestion chatPayload)).any
      fun p => p.config.history.any Event.isNode) = true := by decide +kernel
  obtain ⟨p, hrun, hnode⟩ := (Option.any_eq_true _ _).mp hends
  have hreach : sampleSystem.ReachableVia CompleteCreations p :=
    TransitionSystem.ReachableVia.of_runChecked completeCreations_of_check (.init emptyPool_init) hrun
  exact ⟨p, hreach, hnode, (sessions_diagnosable hreach).1⟩

def fanPayload : CreateSessionRequest := { chatPayload with alarmName := some "fan" }

/-- The call was refused as invalid. -/
def refusedAsInvalid : Call sampleSettings (workflow sampleDeps) Reply → Bool
  | .raise .validationError => true
  | _ => false

/-- A session with the name of an alarm but no alarm id cannot be diagnosed. -/
theorem named_alarm_not_diagnosable : ¬ ∀ p, sampleSystem.Reachable p → Diagnosable p := by
  intro hall
  have hends : ((sampleSystem.run emptyPool
      (firstQuestion fanPayload).dropLast).any fun p => p.tasks[1]?.any fun t =>
        refusedAsInvalid t.rest && (own 1 p.config.history).all fun e => !Event.isNode e) = true := by
    decide +kernel
  obtain ⟨p, hrun, hend⟩ := (Option.any_eq_true _ _).mp hends
  obtain ⟨⟨r, rest⟩, htask, hraised⟩ := (Option.any_eq_true _ _).mp hend
  obtain ⟨hraised, hnone⟩ := Bool.and_eq_true_iff.mp hraised
  have hrest : rest = .raise .validationError := by
    dsimp only at hraised
    unfold refusedAsInvalid at hraised
    split at hraised
    · rfl
    · cases hraised
  subst hrest
  have hreach : sampleSystem.Reachable p :=
    TransitionSystem.Reachable.of_run (.init emptyPool_init) hrun
  obtain ⟨e, he, hnode⟩ := (hall p hreach).started 1 r htask
  have hnot := List.all_eq_true.mp hnone e he
  rw [hnode] at hnot
  cases hnot

end EnergyAgent.Agent
