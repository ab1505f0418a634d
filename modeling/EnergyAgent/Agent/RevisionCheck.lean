import EnergyAgent.Agent.CallRules
import EnergyAgent.Agent.Workflow
import Mathlib.Data.List.Pairwise

/-!
# The revision of the session memory

A request with clarification answers carries the revision of the memory that it answers. `diagnose`
compares it with the memory it has read, records its run, and writes the memory back after each
node: the read, the comparison and the write are calls of their own. `InTurn` is the condition under
which they act like one: a call writes, or goes on, from a memory that it has read after the calls
accepted before it had written theirs.
-/

namespace EnergyAgent.Agent

open EnergyAgent.Lib

section revision

variable {settings : DedupSettings} {rt : Runtime}

/-! ## What the calls say -/

/-- The answers of a request to the questions of its session. -/
def Request.answers : Request → List UserFeedback
  | .diagnose payload _ _ _ => payload.clarificationAnswers
  | _ => []

/-- `expected_memory_revision` -/
def Request.expected : Request → Option Int
  | .diagnose payload _ _ _ => payload.expectedMemoryRevision
  | _ => none

/-- The session whose questions the call has been accepted to answer: its run is recorded. -/
def accepted : Event (backend settings rt) Request → Option String
  | ⟨_, _, .createRun values, some id⟩ =>
      if (values id).runType = .clarification then some (values id).sessionId else none
  | _ => none

/-- The memory that the call has read, and of which session. -/
def memoryRead : Event (backend settings rt) Request → Option (String × Option SessionMemory)
  | ⟨_, _, .getMemory id, memory⟩ => some (id, memory)
  | _ => none

def memorySaved : Event (backend settings rt) Request → Option SessionMemory
  | ⟨_, _, .saveMemory memory, _⟩ => some memory
  | _ => none

/-- The call has stored the memory of the session. -/
def Saves (id : String) (e : Event (backend settings rt) Request) : Prop :=
  ∃ m, memorySaved e = some m ∧ m.sessionId = id

/-- Request `i` has read this memory of the session. -/
def Base (history : List (Event (backend settings rt) Request)) (i : Nat) (id : String)
    (m : SessionMemory) : Prop :=
  ∃ e ∈ history, e.task = i ∧ memoryRead e = some (id, some m)

/-- The memory `m` comes after the call that was accepted with `e`. -/
structure Past (history : List (Event (backend settings rt) Request)) (id : String)
    (e : Event (backend settings rt) Request) (m : SessionMemory) : Prop where
  revision : ∀ base, Base history e.task id base → base.memoryRevision < m.memoryRevision
  answers : ∀ a ∈ e.request.answers, a ∈ m.userFeedbackHistory

/-- The request is a replay of its key, or its session is over. -/
def Op.passesBy : (op : Op rt) → Ans rt op → Bool
  | .getSession _, some row => row.phase = .completed
  | .findIdempotent _ _, some _ => true
  | _, _ => false

def passesBy (e : Event (backend settings rt) Request) : Bool := e.op.passesBy e.ans

/-- **The check of the revision is a compare-and-swap.** -/
structure CompareAndSwap (p : AgentPool settings rt) : Prop where
  /-- Of the calls that carry one revision, at most one is accepted. -/
  once : ∀ e ∈ p.config.history, ∀ e' ∈ p.config.history, ∀ id revision,
    accepted e = some id → accepted e' = some id → e.request.expected = some revision →
    e'.request.expected = some revision → e.task = e'.task
  /-- A call that carries another revision than the one it reads is stale. -/
  stale : ∀ (i : Nat) (t : Task (backend settings rt) Request ExecutionError Reply) id m revision,
    p.tasks[i]? = some t → t.request.answers ≠ [] → t.request.expected = some revision →
    Base p.config.history i id m → m.memoryRevision ≠ revision →
    (∀ e ∈ own i p.config.history, accepted e = none) ∧
    ((∀ e ∈ own i p.config.history, passesBy e = false) → t.rest = .raise .clarificationStale)
  /-- The revision grows from one accepted call to the next. -/
  increases : p.config.history.Pairwise fun e e' => ∀ id base base',
    accepted e = some id → accepted e' = some id → Base p.config.history e.task id base →
    Base p.config.history e'.task id base' → base.memoryRevision < base'.memoryRevision
  /-- The memory that an accepted call has left, or a later one, is past it. -/
  stored : ∀ e ∈ p.config.history, ∀ id, accepted e = some id →
    (∃ s ∈ p.config.history, s.task = e.task ∧ Saves id s) →
    ∃ m, p.config.store.memory id = some m ∧ Past p.config.history id e m
  /-- Every memory stored later has its answers. -/
  kept : p.config.history.Pairwise fun e s => ∀ id m, accepted e = some id →
    memorySaved s = some m → m.sessionId = id → ∀ a ∈ e.request.answers, a ∈ m.userFeedbackHistory

/-! ## The condition -/

/-- Request `i` has stored the memory of the session before request `j` has read it. -/
def Follows (history : List (Event (backend settings rt) Request)) (i j : Nat) (id : String) :
    Prop :=
  ∃ past future, history = past ++ future ∧ (∃ s ∈ past, s.task = i ∧ Saves id s) ∧
    ∃ f ∈ future, f.task = j ∧ ∃ memory, memoryRead f = some (id, memory)

/-- The calls that have been accepted for the session have stored its memory before `j` read it. -/
def FollowsAll (history : List (Event (backend settings rt) Request)) (j : Nat) (id : String) :
    Prop :=
  ∀ e ∈ history, accepted e = some id → e.task ≠ j → Follows history e.task j id

/-- Nobody has been accepted for the session. -/
def NobodyAccepted (history : List (Event (backend settings rt) Request)) (id : String) : Prop :=
  ∀ e ∈ history, accepted e ≠ some id

/-- When request `j` may make its next call. -/
def MayWrite (j : Nat) (r : Request) (op : Op rt)
    (history : List (Event (backend settings rt) Request)) : Prop :=
  match r, op with
  | .diagnose _ _ _ _, .saveMemory m => FollowsAll history j m.sessionId
  | .diagnose payload _ _ _, .createRun _ =>
      payload.clarificationAnswers ≠ [] → FollowsAll history j payload.sessionId
  | _, .saveMemory m => NobodyAccepted history m.sessionId
  | _, .expireMemory id => NobodyAccepted history id
  | _, _ => True

/-- Calls on one session take turns: a call is accepted, and writes the memory, only from a memory
that it has read after every other call accepted so far had written. -/
def InTurn (p : AgentPool settings rt) : AgentMove settings rt → Prop
  | .start _ => True
  | .step i _ => ∀ r op k, p.tasks[i]? = some ⟨r, .call op k⟩ → MayWrite i r op p.config.history

/-! ## The calls of a request that answers -/

/-- The memory is the next one after `memory`, with the answers. -/
structure Advances (payload : ChatRequest) (memory : Option SessionMemory) (m : SessionMemory) :
    Prop where
  session : m.sessionId = payload.sessionId
  revision : m.memoryRevision = (memory.map fun m => m.memoryRevision + 1).getD 1
  feedback : m.userFeedbackHistory =
    (memory.map SessionMemory.userFeedbackHistory).getD [] ++ payload.clarificationAnswers

/-- The run is one that the check of the answers lets through. -/
def Lets (payload : ChatRequest) (memory : Option SessionMemory) (run : RunRow) : Prop :=
  run.runType = .clarification → run.sessionId = payload.sessionId ∧
    payload.clarificationAnswers ≠ [] ∧ ∃ m, memory = some m ∧
      ∀ revision ∈ payload.expectedMemoryRevision, revision = m.memoryRevision

/-- The call neither reads nor writes a memory, and records no run. -/
def Op.Plain : Op rt → Prop
  | .getMemory _ | .saveMemory _ | .expireMemory _ | .createRun _ | .createSession _ => False
  | _ => True

/-- The call records the run. -/
def Op.Records (payload : ChatRequest) (memory : Option SessionMemory) : Op rt → Prop
  | .createRun values => ∀ id, Lets payload memory (values id)
  | _ => False

/-- A call of the run. -/
def Op.Works (payload : ChatRequest) (memory : Option SessionMemory) : Op rt → Prop
  | .saveMemory m => Advances payload memory m
  | op => op.Plain

/-- The program from the read of the memory to its run. -/
def Informed (payload : ChatRequest) (memory : Option SessionMemory) {α : Type} :
    Call settings rt α → Prop
  | .ret _ => True
  | .raise _ => True
  | .call op k =>
      (op.Plain ∧ ∀ a, (backend settings rt).Answers op a → Informed payload memory (k a)) ∨
      (op.Records payload memory ∧
        ∀ a, (backend settings rt).Answers op a → (k a).Uses (Op.Works payload memory))

/-- A memory with another revision than the request carries. -/
def Stale (payload : ChatRequest) (memory : Option SessionMemory) : Prop :=
  payload.clarificationAnswers ≠ [] ∧ ∃ m, memory = some m ∧
    ∃ revision ∈ payload.expectedMemoryRevision, revision ≠ m.memoryRevision

/-- The memory that the answer is. -/
def Op.memory : (op : Op rt) → Ans rt op → Option (Option SessionMemory)
  | .getMemory _, memory => some memory
  | _, _ => none

/-- The program before it reads the memory; `aside` is whether it has passed the check by. -/
def Opening (payload : ChatRequest) {α : Type} : Bool → Call settings rt α → Prop
  | _, .ret _ => True
  | _, .raise _ => True
  | aside, .call op k => (op.Plain ∨ op = .getMemory payload.sessionId) ∧
      ∀ a, (backend settings rt).Answers op a → match op.memory a with
        | none => Opening payload (aside || op.passesBy a) (k a)
        | some memory => Informed payload memory (k a) ∧
            (aside = false → Stale payload memory → k a = .raise .clarificationStale)

section programs

variable {payload : ChatRequest} {memory : Option SessionMemory} {α β : Type}

theorem informed_of_uses {x : Call settings rt α} (h : x.Uses Op.Plain) :
    Informed payload memory x := by
  induction x with
  | ret | raise => exact trivial
  | call op k ih => exact .inl ⟨h.1, fun a ha => ih a (h.2 a ha)⟩

theorem Informed.bind_of_uses {x : Call settings rt α} {f : α → Call settings rt β}
    (hx : x.Uses Op.Plain) (hf : ∀ a, Informed payload memory (f a)) :
    Informed payload memory (x >>= f) := by
  induction x with
  | ret a => exact hf a
  | raise e => exact trivial
  | call op k ih => exact .inl ⟨hx.1, fun a ha => ih a (hx.2 a ha)⟩

/-- The run is recorded. -/
theorem Informed.record {values : String → RunRow} {f : Option String → Call settings rt α}
    (h : ∀ id, Lets payload memory (values id)) (hf : ∀ id, (f id).Uses (Op.Works payload memory)) :
    Informed payload memory (ask (.createRun values) >>= f) :=
  .inr ⟨h, fun id _ => hf id⟩

theorem Informed.map {x : Call settings rt α} (h : Informed payload memory x) (g : α → β) :
    Informed payload memory (x >>= fun a => .ret (g a)) := by
  induction x with
  | ret | raise => exact trivial
  | call op k ih =>
      rcases h with ⟨hop, hk⟩ | ⟨hop, hk⟩
      · exact .inl ⟨hop, fun a ha => ih a (hk a ha)⟩
      · exact .inr ⟨hop, fun a ha => .bind (hk a ha) fun _ => trivial⟩

theorem Opening.map {aside : Bool} {x : Call settings rt α} (h : Opening payload aside x)
    (g : α → β) : Opening payload aside (x >>= fun a => .ret (g a)) := by
  induction x generalizing aside with
  | ret | raise => exact trivial
  | call op k ih =>
      refine ⟨h.1, fun a ha => ?_⟩
      have hnext := h.2 a ha
      cases hmemory : op.memory a with
      | none =>
          rw [hmemory] at hnext
          exact ih a hnext
      | some memory =>
          rw [hmemory] at hnext
          refine ⟨hnext.1.map g, fun haside hstale => ?_⟩
          show k a >>= _ = _
          rw [hnext.2 haside hstale]
          rfl

/-- What a run starts from: the next revision, with the answers. -/
def Continues (payload : ChatRequest) (memory : Option SessionMemory) (state : DiagnosisState) :
    Prop :=
  state.sessionId = payload.sessionId ∧
    state.memoryRevision = (memory.map fun m => m.memoryRevision + 1).getD 1 ∧
    state.userFeedback =
      (memory.map SessionMemory.userFeedbackHistory).getD [] ++ payload.clarificationAnswers

theorem Continues.advances {state : DiagnosisState} (h : Continues payload memory state)
    (result : Option DiagnosisResult) (node : Option String) :
    Advances payload memory { memoryPayload state result with lastCompletedNode := node } :=
  ⟨h.1, h.2.1, h.2.2⟩

theorem works_runCalls : RunCalls settings (Continues payload memory)
    (Op.Works payload memory : Op rt → Prop) where
  node _ _ _ := trivial
  setTemplate _ _ _ _ := trivial
  progress _ _ := trivial
  saveMemory _ result node h := h.advances result node
  kept hanswer h := by
    have hsame := sameRun_of_answers hanswer
    exact ⟨hsame.sessionId.trans h.1, hsame.memoryRevision.trans h.2.1,
      hsame.userFeedback.trans h.2.2⟩

variable (payload memory) (key : Option String) (traceId : String) (interrupt : Interrupt)
  (session : SessionRow)

theorem works_runDiagnosis (runId : String) :
    (runDiagnosis settings payload traceId interrupt session memory runId :
      Call settings rt _).Uses (Op.Works payload memory) := by
  have hreturns : (liftExcept settings (initialState payload session memory runId traceId) :
      Call settings rt _).Returns (Continues payload memory) := by
    refine returns_liftExcept fun initial hok => ?_
    obtain ⟨hid, -, hrevision, hfeedback, -⟩ := initialState_eq_ok payload traceId hok
    exact ⟨hid, hrevision, hfeedback⟩
  refine .bind (uses_updateSession trivial) fun _ =>
    .bind_of_returns (uses_liftExcept _) hreturns fun initial hinitial => ?_
  refine .bind_of_returns
    (.handle (uses_runGraph works_runCalls interrupt _ _ _ _ hinitial) fun e => ?_)
    (.handle (returns_runGraph_kept works_runCalls.kept interrupt _ _ _ _ hinitial)
      fun e => returns_onWorkflowError _ _ _ e) fun state hstate => ?_
  · cases e <;>
      exact .bind (uses_ask trivial) fun _ => .bind (uses_updateSession trivial) fun _ => trivial
  · exact .bind (uses_ask trivial) fun _ => .bind (uses_ask trivial) fun _ =>
      .bind (uses_updateSession trivial) fun _ =>
      .bind (uses_ask (hstate.advances state.finalResponse _)) fun _ => trivial

/-- What the check of the answers lets through. -/
theorem lets_chatRun (h : checkAnswers payload memory = .ok ()) (runId : String) :
    Lets payload memory (chatRun payload key session memory traceId runId) := by
  intro htype
  have hanswers : payload.clarificationAnswers ≠ [] := by
    intro hnone
    simp [chatRun, hnone] at htype
  refine ⟨rfl, hanswers, ?_⟩
  unfold checkAnswers at h
  rw [if_neg hanswers] at h
  cases memory with
  | none => cases h
  | some m =>
      refine ⟨m, rfl, fun revision hrevision => ?_⟩
      by_contra hne
      dsimp only at h
      rw [if_pos ⟨revision, hrevision, hne⟩] at h
      cases h

theorem informed_diagnoseRun (h : checkAnswers payload memory = .ok ()) :
    Informed payload memory (diagnoseRun settings payload key traceId interrupt session memory :
      Call settings rt _) :=
  .record (lets_chatRun payload memory key traceId session h) fun _ =>
    .bind (uses_orRaise _ _) fun runId =>
      works_runDiagnosis payload memory traceId interrupt session runId

/-- A run that explains the previous result answers nothing. -/
theorem informed_explainPrevious : Informed payload memory
    (explainPrevious settings payload key traceId memory : Call settings rt _) := by
  refine .bind_of_uses ?_ fun result => .bind_of_uses (uses_ask trivial) fun latest =>
    .record (fun _ htype => nomatch htype) fun _ => .bind (uses_orRaise _ _) fun _ =>
      .bind (uses_ask trivial) fun _ => trivial
  unfold previousResult
  cases memory.bind SessionMemory.finalResult with
  | some result => exact trivial
  | none => exact .bind (uses_ask trivial) fun _ => uses_orRaise _ _

/-! ## The calls before the memory is read -/

omit payload memory in
theorem memory_of_plain {op : Op rt} (h : op.Plain) (a : Ans rt op) : op.memory a = none := by
  cases op with
  | getMemory => exact h.elim
  | _ => rfl

variable {payload memory}

theorem Opening.ask {aside : Bool} {op : Op rt} {f : Ans rt op → Call settings rt α} (hop : op.Plain)
    (h : ∀ a, Opening payload (aside || op.passesBy a) (f a)) :
    Opening payload aside (ask op >>= f) := by
  refine ⟨.inl hop, fun a _ => ?_⟩
  rw [memory_of_plain hop]
  exact h a

theorem Opening.read {aside : Bool} {f : Option SessionMemory → Call settings rt α}
    (h : ∀ memory, Informed payload memory (f memory))
    (hstale : ∀ memory, aside = false → Stale payload memory → f memory = .raise .clarificationStale) :
    Opening payload aside (Agent.ask (.getMemory payload.sessionId) >>= f) :=
  ⟨.inr rfl, fun memory _ => ⟨h memory, hstale memory⟩⟩

theorem Opening.raiseIf {aside : Bool} {c : Prop} [Decidable c] {e : ExecutionError}
    {f : Unit → Call settings rt α} (h : Opening payload aside (f ())) :
    Opening payload aside (Proc.raiseIf c e >>= f) := by
  unfold Proc.raiseIf
  split
  · exact trivial
  · exact h

theorem Opening.orRaise {aside : Bool} {e : ExecutionError} {o : Option β}
    {f : β → Call settings rt α} (h : ∀ a, o = some a → Opening payload aside (f a)) :
    Opening payload aside (orRaise e o >>= f) := by
  cases o with
  | none => exact trivial
  | some a => exact h a rfl

/-- A replay of the key reads the memory for its response. -/
theorem opening_getSession : Opening payload true
    (getSession settings payload.sessionId : Call settings rt _) := by
  refine .ask trivial fun found => .orRaise fun session _ => .read (fun memory => ?_) ?_
  · cases memory with
    | some memory => exact trivial
    | none =>
        exact .bind_of_uses (uses_ask trivial) fun _ => .bind_of_uses (uses_ask trivial) fun _ =>
          trivial
  · intro memory h
    rw [Bool.true_or] at h
    cases h

theorem checkAnswers_stale (h : Stale payload memory) :
    checkAnswers payload memory = .error .clarificationStale := by
  obtain ⟨hanswers, m, rfl, revision, hrevision, hne⟩ := h
  unfold checkAnswers
  rw [if_neg hanswers]
  exact if_pos ⟨revision, hrevision, hne⟩

theorem opening_diagnoseNew {aside : Bool} (haside : aside = false → session.phase ≠ .completed) :
    Opening payload aside (diagnoseNew settings payload key traceId interrupt session :
      Call settings rt _) := by
  refine .raiseIf (.read (fun memory => ?_) fun memory hlive hstale => ?_)
  · split
    · split
      · exact trivial
      · exact informed_explainPrevious payload memory key traceId
    · cases hcheck : checkAnswers payload memory with
      | error e => exact trivial
      | ok _ => exact informed_diagnoseRun payload memory key traceId interrupt session hcheck
  · rw [if_neg (haside hlive), checkAnswers_stale hstale]
    rfl

theorem opening_diagnose : Opening payload false
    (diagnose settings payload key traceId interrupt : Call settings rt _) := by
  refine .ask trivial fun found => .orRaise fun session hfound => ?_
  subst hfound
  have haside : (false || (Op.getSession payload.sessionId : Op rt).passesBy (some session)) = false →
      session.phase ≠ .completed := by
    intro h
    simpa [Op.passesBy] using h
  cases Text.truthy key with
  | none => exact opening_diagnoseNew key traceId interrupt session haside
  | some k =>
      refine .ask trivial fun existing => ?_
      cases existing with
      | none =>
          exact opening_diagnoseNew key traceId interrupt session fun h =>
            haside (Bool.or_eq_false_iff.mp h).1
      | some existing =>
          refine .raiseIf ?_
          rw [show ((false || (Op.getSession payload.sessionId : Op rt).passesBy (some session)) ||
            (Op.findIdempotent payload.sessionId k : Op rt).passesBy (some existing)) = true from
            Bool.or_true _]
          exact opening_getSession

end programs

/-! ## How far a request has come -/

/-- Request `i` has read the memory of its session, and this is what it has read. -/
structure ReadOnce (history : List (Event (backend settings rt) Request)) (i : Nat)
    (payload : ChatRequest) (memory : Option SessionMemory) : Prop where
  read : ∃ e ∈ own i history, memoryRead e = some (payload.sessionId, memory)
  only : ∀ e ∈ own i history, ∀ x, memoryRead e = some x → x = (payload.sessionId, memory)

/-- What is left of a request whose memory has another revision than it carries. -/
def EndsStale (history : List (Event (backend settings rt) Request)) (i : Nat)
    (payload : ChatRequest) (memory : Option SessionMemory) (rest : Call settings rt Reply) : Prop :=
  (∀ e ∈ own i history, passesBy e = false) → Stale payload memory →
    rest = .raise .clarificationStale

inductive Progress (history : List (Event (backend settings rt) Request)) (i : Nat)
    (payload : ChatRequest) (rest : Call settings rt Reply) : Prop
  | opening (hrest : Opening payload ((own i history).any passesBy) rest)
      (hquiet : ∀ e ∈ own i history,
        memoryRead e = none ∧ accepted e = none ∧ memorySaved e = none)
  | informed (memory : Option SessionMemory) (hrest : Informed payload memory rest)
      (hread : ReadOnce history i payload memory)
      (hquiet : ∀ e ∈ own i history, accepted e = none ∧ memorySaved e = none)
      (hstale : EndsStale history i payload memory rest)
  | working (memory : Option SessionMemory) (hrest : rest.Uses (Op.Works payload memory))
      (hread : ReadOnce history i payload memory)
      (haccepted : ∀ e ∈ own i history, ∀ id, accepted e = some id → id = payload.sessionId ∧
        payload.clarificationAnswers ≠ [] ∧ ∃ m, memory = some m ∧
          ∀ revision ∈ payload.expectedMemoryRevision, revision = m.memoryRevision)
      (hstale : EndsStale history i payload memory rest)

/-- A plain call says nothing about the memory. -/
theorem plain_event {i : Nat} {r : Request} {op : Op rt} {a : Ans rt op} (h : op.Plain) :
    memoryRead (⟨i, r, op, a⟩ : Event (backend settings rt) Request) = none ∧
      accepted (⟨i, r, op, a⟩ : Event (backend settings rt) Request) = none ∧
      memorySaved (⟨i, r, op, a⟩ : Event (backend settings rt) Request) = none := by
  cases op with
  | getMemory | saveMemory | createRun => exact h.elim
  | _ => exact ⟨rfl, rfl, rfl⟩

theorem ReadOnce.concat {history : List (Event (backend settings rt) Request)} {i : Nat}
    {payload : ChatRequest} {memory : Option SessionMemory} {history' : List _}
    {e : Event (backend settings rt) Request} (h : ReadOnce history i payload memory)
    (hown : own i history' = own i history ++ [e]) (hnone : memoryRead e = none) :
    ReadOnce history' i payload memory := by
  obtain ⟨f, hf, hread⟩ := h.read
  refine ⟨⟨f, ?_, hread⟩, fun f hf x hx => ?_⟩
  · rw [hown]
    exact List.mem_append_left _ hf
  · rw [hown] at hf
    rcases List.mem_append.mp hf with hf | hf
    · exact h.only f hf x hx
    · rw [List.mem_singleton.mp hf, hnone] at hx
      cases hx

/-- A request that goes on is not stale. -/
theorem EndsStale.call {history : List (Event (backend settings rt) Request)} {i : Nat}
    {payload : ChatRequest} {memory : Option SessionMemory} {op : Op rt}
    {k : Ans rt op → Call settings rt Reply} {history' : List _} {rest : Call settings rt Reply}
    {e : Event (backend settings rt) Request}
    (h : EndsStale history i payload memory (.call (B := backend settings rt) op k))
    (hown : own i history' = own i history ++ [e]) : EndsStale history' i payload memory rest := by
  intro hlive hstale
  refine nomatch h (fun f hf => hlive f ?_) hstale
  rw [hown]
  exact List.mem_append_left _ hf

/-- What a call of the request makes of its stage. -/
theorem Progress.call {d e : Config (backend settings rt) Request} {i : Nat} {r : Request} {op : Op rt}
    {x : CallInput rt} {a : Ans rt op} {payload : ChatRequest}
    {k : Ans rt op → Call settings rt Reply}
    (h : Progress d.history i payload (.call (B := backend settings rt) op k))
    (hexec : d.exec i r op x = some (a, e)) : Progress e.history i payload (k a) := by
  have hown := Config.exec_own hexec
  have hanswer : (backend settings rt).Answers op a :=
    ⟨x, d.store, e.store, (Config.exec_eq_some hexec).1⟩
  have hlast : ∀ {f : Event (backend settings rt) Request}, f ∈ own i e.history →
      f ∈ own i d.history ∨ f = ⟨i, r, op, a⟩ := by
    intro f hf
    rw [hown] at hf
    exact (List.mem_append.mp hf).imp_right List.mem_singleton.mp
  cases h with
  | opening hrest hquiet =>
      obtain ⟨hop, hnext⟩ := hrest
      have hnext := hnext a hanswer
      rcases hop with hplain | rfl
      · rw [memory_of_plain hplain] at hnext
        refine .opening ?_ fun f hf => ?_
        · rw [hown, List.any_append]
          simpa [passesBy] using hnext
        · rcases hlast hf with hf | rfl
          · exact hquiet f hf
          · exact plain_event hplain
      · let read : Event (backend settings rt) Request := ⟨i, r, .getMemory payload.sessionId, a⟩
        refine .informed a hnext.1 ⟨⟨read, ?_, rfl⟩, fun f hf x hx => ?_⟩ (fun f hf => ?_)
          fun hlive hstale => hnext.2 ?_ hstale
        · rw [hown]
          exact List.mem_append_right _ (List.mem_singleton_self _)
        · rcases hlast hf with hf | rfl
          · rw [(hquiet f hf).1] at hx
            cases hx
          · exact (Option.some.inj hx).symm
        · rcases hlast hf with hf | rfl
          · exact (hquiet f hf).2
          · exact ⟨rfl, rfl⟩
        · refine Bool.eq_false_iff.mpr fun hany => ?_
          obtain ⟨f, hf, hpasses⟩ := List.any_eq_true.mp hany
          have hnot := hlive f (by rw [hown]; exact List.mem_append_left _ hf)
          rw [hpasses] at hnot
          cases hnot
  | informed memory hrest hread hquiet hstale =>
      rcases hrest with ⟨hplain, hnext⟩ | ⟨hrecords, hnext⟩
      · have hnone := @plain_event settings rt i r op a hplain
        refine .informed memory (hnext a hanswer) (hread.concat hown hnone.1) (fun f hf => ?_)
          (hstale.call hown)
        rcases hlast hf with hf | rfl
        · exact hquiet f hf
        · exact hnone.2
      · cases op with
        | createRun values =>
            refine .working memory (hnext a hanswer) (hread.concat hown rfl) (fun f hf id hid => ?_)
              (hstale.call hown)
            rcases hlast hf with hf | rfl
            · rw [(hquiet f hf).1] at hid
              cases hid
            · cases a with
              | none => cases hid
              | some runId =>
                  by_cases htype : (values runId).runType = .clarification
                  · have hid : some (values runId).sessionId = some id := (if_pos htype).symm.trans hid
                    obtain ⟨hsession, hlets⟩ := hrecords runId htype
                    exact ⟨(Option.some.inj hid).symm.trans hsession, hlets⟩
                  · have hid : none = some id := (if_neg htype).symm.trans hid
                    cases hid
        | _ => exact hrecords.elim
  | working memory hrest hread haccepted hstale =>
      obtain ⟨hworks, hnext⟩ := hrest
      have hnone : memoryRead (⟨i, r, op, a⟩ : Event (backend settings rt) Request) = none ∧
          accepted (⟨i, r, op, a⟩ : Event (backend settings rt) Request) = none := by
        cases op with
        | saveMemory m => exact ⟨rfl, rfl⟩
        | getMemory | createRun => exact hworks.elim
        | _ => exact ⟨rfl, rfl⟩
      refine .working memory (hnext a hanswer) (hread.concat hown hnone.1) (fun f hf id hid => ?_)
        (hstale.call hown)
      rcases hlast hf with hf | rfl
      · exact haccepted f hf id hid
      · rw [hnone.2] at hid
        cases hid

/-! ## The invariant -/

structure RevisionInvariant (p : AgentPool settings rt) : Prop where
  made : ∀ e ∈ p.config.history, e.task < p.tasks.length
  stages : ∀ (i : Nat) (payload : ChatRequest) (key : Option String) (traceId : String)
    (interrupt : Interrupt) (rest : Call settings rt Reply),
    p.tasks[i]? = some ⟨.diagnose payload key traceId interrupt, rest⟩ →
    Progress p.config.history i payload rest
  accepters : ∀ e ∈ p.config.history, ∀ id, accepted e = some id →
    ∃ payload key traceId interrupt rest, e.request = .diagnose payload key traceId interrupt ∧
      p.tasks[e.task]? = some ⟨e.request, rest⟩ ∧ payload.sessionId = id
  increases : p.config.history.Pairwise fun e e' => ∀ id base base',
    accepted e = some id → accepted e' = some id → Base p.config.history e.task id base →
    Base p.config.history e'.task id base' → base.memoryRevision < base'.memoryRevision
  stored : ∀ e ∈ p.config.history, ∀ id, accepted e = some id →
    (∃ s ∈ p.config.history, s.task = e.task ∧ Saves id s) →
    ∃ m, p.config.store.memory id = some m ∧ Past p.config.history id e m
  kept : p.config.history.Pairwise fun e s => ∀ id m, accepted e = some id →
    memorySaved s = some m → m.sessionId = id → ∀ a ∈ e.request.answers, a ∈ m.userFeedbackHistory
  /-- What is read after an accepted call has written is past it. -/
  reads : ∀ e ∈ p.config.history, ∀ id, accepted e = some id →
    p.config.history.Pairwise fun s f => s.task = e.task → Saves id s →
      ∀ memory, memoryRead f = some (id, memory) →
        ∃ m, memory = some m ∧ Past p.config.history id e m

theorem mem_own {i : Nat} {history : List (Event (backend settings rt) Request)}
    {e : Event (backend settings rt) Request} (he : e ∈ history) (htask : e.task = i) :
    e ∈ own i history :=
  List.mem_filter.mpr ⟨he, decide_eq_true htask⟩

theorem Base.of_readOnce {history : List (Event (backend settings rt) Request)} {i : Nat}
    {payload : ChatRequest} {memory : Option SessionMemory} {m : SessionMemory}
    (hread : ReadOnce history i payload memory) (h : Base history i payload.sessionId m) :
    memory = some m := by
  obtain ⟨e, he, htask, hm⟩ := h
  exact (Prod.mk.inj (hread.only e (mem_own he htask) _ hm)).2.symm

section step

variable {p : AgentPool settings rt} {i : Nat} {x : CallInput rt} {r : Request} {op : Op rt}
  {k : Ans rt op → Call settings rt Reply} {a : Ans rt op}
  {c : Config (backend settings rt) Request}

/-- A call that has been accepted is working. -/
theorem RevisionInvariant.working (h : RevisionInvariant p) {e : Event (backend settings rt) Request}
    (he : e ∈ p.config.history) {id : String} (hid : accepted e = some id) :
    ∃ payload key traceId interrupt rest memory, e.request = .diagnose payload key traceId interrupt ∧
      p.tasks[e.task]? = some ⟨e.request, rest⟩ ∧ payload.sessionId = id ∧
      rest.Uses (Op.Works payload memory) ∧ ReadOnce p.config.history e.task payload memory ∧
      payload.clarificationAnswers ≠ [] ∧ ∃ m, memory = some m ∧
        ∀ revision ∈ payload.expectedMemoryRevision, revision = m.memoryRevision := by
  obtain ⟨payload, key, traceId, interrupt, rest, hrequest, htask, hsession⟩ :=
    h.accepters e he id hid
  have hown := mem_own he rfl
  rw [hrequest] at htask
  cases h.stages e.task payload key traceId interrupt rest htask with
  | opening _ hquiet =>
      rw [(hquiet e hown).2.1] at hid
      cases hid
  | informed _ _ _ hquiet _ =>
      rw [(hquiet e hown).1] at hid
      cases hid
  | working memory hrest hread haccepted _ =>
      obtain ⟨-, hanswers, hmemory⟩ := haccepted e hown id hid
      exact ⟨payload, key, traceId, interrupt, rest, memory, hrequest, hrequest ▸ htask, hsession,
        hrest, hread, hanswers, hmemory⟩

/-- An accepted call reads no memory any more. -/
theorem RevisionInvariant.base_stable (h : RevisionInvariant p)
    (htask : p.tasks[i]? = some ⟨r, .call op k⟩) {e : Event (backend settings rt) Request}
    (he : e ∈ p.config.history) {id : String} (hid : accepted e = some id) {base : SessionMemory}
    (hbase : Base (p.config.history ++ [⟨i, r, op, a⟩]) e.task id base) :
    Base p.config.history e.task id base := by
  obtain ⟨f, hf, hftask, hread⟩ := hbase
  rcases List.mem_append.mp hf with hf | hf
  · exact ⟨f, hf, hftask, hread⟩
  · rw [List.mem_singleton] at hf
    subst hf
    obtain ⟨payload, key, traceId, interrupt, rest, memory, -, hother, -, hworks, -⟩ := h.working he hid
    rw [← hftask, htask] at hother
    cases hother
    have hworks := hworks.1
    cases op with
    | getMemory => exact hworks.elim
    | _ => cases hread

theorem RevisionInvariant.past_stable (h : RevisionInvariant p)
    (htask : p.tasks[i]? = some ⟨r, .call op k⟩) {e : Event (backend settings rt) Request}
    (he : e ∈ p.config.history) {id : String} (hid : accepted e = some id) {m : SessionMemory}
    (hpast : Past p.config.history id e m) :
    Past (p.config.history ++ [⟨i, r, op, a⟩]) id e m :=
  ⟨fun base hbase => hpast.revision base (h.base_stable htask he hid hbase), hpast.answers⟩

/-- What request `i` has read is past the calls that it follows. -/
theorem RevisionInvariant.read_past (h : RevisionInvariant p) {payload : ChatRequest}
    {memory : Option SessionMemory} (hread : ReadOnce p.config.history i payload memory)
    {e : Event (backend settings rt) Request} (he : e ∈ p.config.history)
    (hid : accepted e = some payload.sessionId)
    (hfollows : Follows p.config.history e.task i payload.sessionId) :
    ∃ m, memory = some m ∧ Past p.config.history payload.sessionId e m := by
  obtain ⟨past, future, hsplit, ⟨s, hs, hstask, hsaves⟩, f, hf, hftask, memory', hfread⟩ := hfollows
  have hreads := h.reads e he _ hid
  rw [hsplit] at hreads
  obtain ⟨m, hm, hpast⟩ := (List.pairwise_append.mp hreads).2.2 s hs f hf hstask hsaves memory' hfread
  have hmem : f ∈ p.config.history := by
    rw [hsplit]
    exact List.mem_append_right _ hf
  have heq := (Prod.mk.inj (hread.only f (mem_own hmem hftask) _ hfread)).2
  exact ⟨m, heq ▸ hm, hsplit ▸ hpast⟩

/-- **A memory is stored past every call accepted for its session.** -/
theorem RevisionInvariant.saved_past (h : RevisionInvariant p) {m : SessionMemory}
    {k : Unit → Call settings rt Reply}
    (htask : p.tasks[i]? = some ⟨r, .call (B := backend settings rt) (.saveMemory m) k⟩)
    (hmay : MayWrite i r (.saveMemory m) p.config.history)
    {e : Event (backend settings rt) Request} (he : e ∈ p.config.history)
    (hid : accepted e = some m.sessionId) : Past p.config.history m.sessionId e m := by
  cases r with
  | diagnose payload key traceId interrupt =>
      cases h.stages i payload key traceId interrupt _ htask with
      | opening hrest _ =>
          rcases hrest.1 with hplain | heq
          · exact hplain.elim
          · cases heq
      | informed _ hrest _ _ _ =>
          rcases hrest with ⟨hplain, -⟩ | ⟨hrecords, -⟩
          · exact hplain.elim
          · exact hrecords.elim
      | working memory hrest hread _ _ =>
          have hadvances : Advances payload memory m := hrest.1
          rw [hadvances.session] at hid ⊢
          by_cases hi : e.task = i
          · obtain ⟨payload', key', traceId', interrupt', rest, hrequest, hother, -⟩ :=
              h.accepters e he _ hid
            rw [hi, htask, hrequest] at hother
            cases hother
            refine ⟨fun base hbase => ?_, fun answer hanswer => ?_⟩
            · rw [hi] at hbase
              rw [hadvances.revision, Base.of_readOnce hread hbase]
              exact Int.lt_succ _
            · rw [hrequest] at hanswer
              rw [hadvances.feedback]
              exact List.mem_append_right _ hanswer
          · obtain ⟨base, rfl, hpast⟩ := h.read_past hread he hid
              (hadvances.session ▸ hmay e he (hadvances.session.symm ▸ hid) hi)
            refine ⟨fun base' hbase' => (hpast.revision base' hbase').trans ?_, fun answer hanswer => ?_⟩
            · rw [hadvances.revision]
              exact Int.lt_succ _
            · rw [hadvances.feedback]
              exact List.mem_append_left _ (hpast.answers answer hanswer)
  | createSession | getSession | reviewDiagnosis | expire => exact absurd hid (hmay e he)

/-- A call of request `i` is accepted only when it has not stored a memory yet, and follows the
others. -/
theorem RevisionInvariant.accepted_now (h : RevisionInvariant p)
    (htask : p.tasks[i]? = some ⟨r, .call op k⟩) (hcalls : r.Calls settings op)
    (hmay : MayWrite i r op p.config.history) {id : String}
    (hid : accepted (⟨i, r, op, a⟩ : Event (backend settings rt) Request) = some id) :
    ∃ payload key traceId interrupt memory, r = .diagnose payload key traceId interrupt ∧
      payload.sessionId = id ∧ ReadOnce p.config.history i payload memory ∧
      (∀ e ∈ own i p.config.history, accepted e = none ∧ memorySaved e = none) ∧
      FollowsAll p.config.history i id := by
  cases op with
  | createRun values =>
      cases a with
      | none => cases hid
      | some runId =>
          have htype : (values runId).runType = .clarification := by
            by_contra hne
            have hnone : none = some id := (if_neg hne).symm.trans hid
            cases hnone
          rcases hcalls with ⟨payload, key, traceId, sessionId, runId', -, rfl⟩ |
            ⟨payload, key, traceId, interrupt, rfl, -⟩
          · cases htype
          · cases h.stages i payload key traceId interrupt _ htask with
            | opening hrest _ =>
                rcases hrest.1 with hplain | heq
                · exact hplain.elim
                · cases heq
            | working _ hrest _ _ _ => exact hrest.1.elim
            | informed memory hrest hread hquiet _ =>
                rcases hrest with ⟨hplain, -⟩ | ⟨hrecords, -⟩
                · exact hplain.elim
                · obtain ⟨hsession, hanswers, -⟩ := hrecords runId htype
                  have hid : some (values runId).sessionId = some id :=
                    (if_pos htype).symm.trans hid
                  have hid : payload.sessionId = id := hsession.symm.trans (Option.some.inj hid)
                  exact ⟨payload, key, traceId, interrupt, memory, rfl, hid, hread, hquiet,
                    hid ▸ hmay hanswers⟩
  | _ => cases hid

theorem memory_upsert {s t : Store} {m : SessionMemory}
    (h : t.memories = Table.upsert SessionMemory.sessionId s.memories m) (id : String) :
    t.memory id = if id = m.sessionId then some m else s.memory id := by
  unfold Store.memory
  rw [h]
  split
  · next hid =>
      rw [hid]
      exact Table.get_upsert_self _ _
  · next hid => exact Table.get_upsert_ne _ hid

/-- **What one call does to the memories**, seen from the calls that have been accepted. -/
theorem RevisionInvariant.stored_call (h : RevisionInvariant p)
    (htask : p.tasks[i]? = some ⟨r, .call op k⟩) (hcalls : r.Calls settings op)
    (hmay : MayWrite i r op p.config.history) (hexec : p.config.exec i r op x = some (a, c)) :
    ∀ e ∈ c.history, ∀ id, accepted e = some id →
      (∃ s ∈ c.history, s.task = e.task ∧ Saves id s) →
      ∃ m, c.store.memory id = some m ∧ Past c.history id e m := by
  obtain ⟨hstore, hhist⟩ := Config.exec_eq_some hexec
  rw [hhist]
  rintro e he id hid ⟨s, hs, hstask, hsaves⟩
  rw [List.mem_append, List.mem_singleton] at he hs
  rcases he with he | rfl
  swap
  · -- the call is accepted now: it has stored nothing
    obtain ⟨payload, key, traceId, interrupt, memory, -, -, -, hquiet, -⟩ :=
      h.accepted_now htask hcalls hmay hid
    obtain ⟨m, hm, -⟩ := hsaves
    rcases hs with hs | rfl
    · rw [(hquiet s (mem_own hs hstask)).2] at hm
      cases hm
    · cases op with
      | createRun => cases hm
      | _ => cases hid
  · by_cases hwrites : op.writes = some .memories
    · have hnow := (exec_eq_some hstore).2
      cases op with
      | saveMemory m =>
          have hmemories : c.store.memories =
              Table.upsert SessionMemory.sessionId p.config.store.memories m :=
            congrArg Store.memories (Prod.mk.inj (Option.some.inj hnow)).2.symm
          have hmemory := memory_upsert hmemories id
          by_cases hm : id = m.sessionId
          · subst hm
            exact ⟨m, hmemory.trans (if_pos rfl),
              h.past_stable htask he hid (h.saved_past htask hmay he hid)⟩
          · rcases hs with hs | rfl
            · obtain ⟨m', hm', hpast⟩ := h.stored e he id hid ⟨s, hs, hstask, hsaves⟩
              exact ⟨m', (hmemory.trans (if_neg hm)).trans hm', h.past_stable htask he hid hpast⟩
            · obtain ⟨m', hm', hsession⟩ := hsaves
              cases hm'
              exact absurd hsession.symm hm
      | expireMemory id' =>
          have hmemories : c.store.memories =
              Table.delete SessionMemory.sessionId p.config.store.memories id' :=
            congrArg Store.memories (Prod.mk.inj (Option.some.inj hnow)).2.symm
          have hne : id ≠ id' := by
            rintro rfl
            have hnone : NobodyAccepted p.config.history id := by
              cases r <;> exact hmay
            exact hnone e he hid
          rcases hs with hs | rfl
          · obtain ⟨m', hm', hpast⟩ := h.stored e he id hid ⟨s, hs, hstask, hsaves⟩
            refine ⟨m', ?_, h.past_stable htask he hid hpast⟩
            rw [Store.memory, hmemories, Table.get_delete, if_neg hne]
            exact hm'
          · obtain ⟨m', hm', -⟩ := hsaves
            cases hm'
      | _ => cases hwrites
    · rcases hs with hs | rfl
      · obtain ⟨m, hm, hpast⟩ := h.stored e he id hid ⟨s, hs, hstask, hsaves⟩
        refine ⟨m, ?_, h.past_stable htask he hid hpast⟩
        rw [Store.memory, (exec_frame hstore).memories hwrites]
        exact hm
      · obtain ⟨m', hm', -⟩ := hsaves
        cases op with
        | saveMemory => exact absurd rfl hwrites
        | _ => cases hm'

/-- The memory that is read is the one that is stored. -/
theorem read_eq {s t : Store} {id : String} {memory : Option SessionMemory}
    (hexec : exec settings op x s = some (a, t))
    (hread : memoryRead (⟨i, r, op, a⟩ : Event (backend settings rt) Request) = some (id, memory)) :
    memory = s.memory id := by
  cases op with
  | getMemory id' =>
      obtain ⟨rfl, rfl⟩ := Prod.mk.inj (Option.some.inj hread)
      exact (Prod.mk.inj (Option.some.inj (exec_eq_some hexec).2)).1.symm
  | _ => cases hread

theorem RevisionInvariant.call (h : RevisionInvariant p)
    (htask : p.tasks[i]? = some ⟨r, .call op k⟩) (hcalls : r.Calls settings op)
    (hmay : MayWrite i r op p.config.history) (hexec : p.config.exec i r op x = some (a, c)) :
    RevisionInvariant ⟨c, p.tasks.set i ⟨r, k a⟩⟩ := by
  obtain ⟨hstore, hhist⟩ := Config.exec_eq_some hexec
  have hlt : i < p.tasks.length := (List.getElem?_eq_some_iff.mp htask).1
  have hrequest : ∀ {j : Nat} {r' : Request} {rest : Call settings rt Reply},
      p.tasks[j]? = some ⟨r', rest⟩ → ∃ rest', (p.tasks.set i ⟨r, k a⟩)[j]? = some ⟨r', rest'⟩ := by
    intro j r' rest hj
    by_cases hij : j = i
    · subst hij
      rw [htask] at hj
      cases hj
      exact ⟨k a, List.getElem?_set_self hlt⟩
    · exact ⟨rest, (List.getElem?_set_ne (Ne.symm hij)).trans hj⟩
  refine ⟨?_, ?_, ?_, ?_, h.stored_call htask hcalls hmay hexec, ?_, ?_⟩
  · intro e he
    rw [List.length_set]
    rw [hhist, List.mem_append, List.mem_singleton] at he
    rcases he with he | rfl
    · exact h.made e he
    · exact hlt
  · intro j payload key traceId interrupt rest ht
    rcases Pool.task_step ht with ⟨rfl, heq⟩ | ⟨hj, hold⟩
    · cases heq
      exact (h.stages j payload key traceId interrupt _ htask).call hexec
    · have hstage := h.stages j payload key traceId interrupt rest hold
      have hown := (Config.exec_others hexec hj).own_eq
      cases hstage with
      | opening hrest hquiet => exact .opening (hown ▸ hrest) (hown ▸ hquiet)
      | informed memory hrest hread hquiet hstale =>
          exact .informed memory hrest ⟨hown ▸ hread.read, hown ▸ hread.only⟩ (hown ▸ hquiet)
            fun hlive => hstale (hown ▸ hlive)
      | working memory hrest hread haccepted hstale =>
          exact .working memory hrest ⟨hown ▸ hread.read, hown ▸ hread.only⟩ (hown ▸ haccepted)
            fun hlive => hstale (hown ▸ hlive)
  · intro e he id hid
    rw [hhist, List.mem_append, List.mem_singleton] at he
    rcases he with he | rfl
    · obtain ⟨payload, key, traceId, interrupt, rest, hreq, hother, hsession⟩ :=
        h.accepters e he id hid
      obtain ⟨rest', hrest'⟩ := hrequest hother
      exact ⟨payload, key, traceId, interrupt, rest', hreq, hrest', hsession⟩
    · obtain ⟨payload, key, traceId, interrupt, memory, rfl, hsession, -⟩ :=
        h.accepted_now htask hcalls hmay hid
      exact ⟨payload, key, traceId, interrupt, _, rfl, List.getElem?_set_self hlt, hsession⟩
  · rw [hhist]
    refine List.pairwise_append.mpr ⟨?_, List.pairwise_singleton _ _, ?_⟩
    · refine h.increases.imp_of_mem fun {e e'} he he' hlt id base base' hid hid' hbase hbase' => ?_
      exact hlt id base base' hid hid' (h.base_stable htask he hid hbase)
        (h.base_stable htask he' hid' hbase')
    · intro e he e' he' id base base' hid hid' hbase hbase'
      rw [List.mem_singleton] at he'
      subst he'
      obtain ⟨payload, key, traceId, interrupt, memory, rfl, rfl, hread, hquiet, hfollows⟩ :=
        h.accepted_now htask hcalls hmay hid'
      have hne : e.task ≠ i := by
        intro heq
        rw [(hquiet e (mem_own he heq)).1] at hid
        cases hid
      obtain ⟨m, rfl, hpast⟩ := h.read_past hread he hid (hfollows e he hid hne)
      have hbase' : Base p.config.history i payload.sessionId base' := by
        obtain ⟨f, hf, hftask, hfread⟩ := hbase'
        rcases List.mem_append.mp hf with hf | hf
        · exact ⟨f, hf, hftask, hfread⟩
        · rw [List.mem_singleton] at hf
          subst hf
          cases op with
          | getMemory => cases hid'
          | _ => cases hfread
      cases Base.of_readOnce hread hbase'
      exact hpast.revision base (h.base_stable htask he hid hbase)
  · rw [hhist]
    refine List.pairwise_append.mpr ⟨h.kept, List.pairwise_singleton _ _, ?_⟩
    intro e he s hs id m hid hsaved hsession
    rw [List.mem_singleton] at hs
    subst hs
    cases op with
    | saveMemory m' =>
        cases hsaved
        subst hsession
        exact (h.saved_past htask hmay he hid).answers
    | _ => cases hsaved
  · intro e he id hid
    rw [hhist] at he ⊢
    rw [List.mem_append, List.mem_singleton] at he
    rcases he with he | rfl
    · refine List.pairwise_append.mpr ⟨?_, List.pairwise_singleton _ _, ?_⟩
      · refine (h.reads e he id hid).imp fun hpair hstask hsaves memory hread => ?_
        obtain ⟨m, hm, hpast⟩ := hpair hstask hsaves memory hread
        exact ⟨m, hm, h.past_stable htask he hid hpast⟩
      · intro s hs f hf hstask hsaves memory hread
        rw [List.mem_singleton] at hf
        subst hf
        obtain ⟨m, hm, hpast⟩ := h.stored e he id hid ⟨s, hs, hstask, hsaves⟩
        exact ⟨m, (read_eq hstore hread).trans hm, h.past_stable htask he hid hpast⟩
    · -- a call that is accepted now has stored nothing
      obtain ⟨payload, key, traceId, interrupt, memory, -, -, -, hquiet, -⟩ :=
        h.accepted_now htask hcalls hmay hid
      refine List.pairwise_of_forall_mem_list fun s hs f _ hstask hsaves => ?_
      obtain ⟨m, hm, -⟩ := hsaves
      rcases List.mem_append.mp hs with hs | hs
      · rw [(hquiet s (mem_own hs hstask)).2] at hm
        cases hm
      · rw [List.mem_singleton] at hs
        subst hs
        cases op with
        | createRun => cases hm
        | _ => cases hid

end step

theorem revisionInvariant_of_reachable {p : AgentPool settings rt}
    (h : (system settings rt).ReachableVia InTurn p) : RevisionInvariant p := by
  induction h with
  | @init p hinit =>
      obtain ⟨-, hhist, htasks⟩ := hinit
      refine ⟨?_, ?_, ?_, ?_, ?_, ?_, ?_⟩ <;> simp [hhist, htasks]
  | @step p q m hreach hok hstep ih =>
      rcases Pool.step_cases hstep with ⟨r, rfl, rfl⟩ | ⟨i, x, r, op, k, a, c, rfl, htask, hexec, rfl⟩
      · refine ⟨?_, ?_, ?_, ih.increases, ih.stored, ih.kept, ih.reads⟩
        · intro e he
          rw [List.length_append]
          exact Nat.lt_add_right _ (ih.made e he)
        · intro j payload key traceId interrupt rest ht
          rcases Pool.task_start ht with hold | ⟨rfl, heq⟩
          · exact ih.stages j payload key traceId interrupt rest hold
          · cases heq
            have hnone : own p.tasks.length p.config.history = [] := by
              refine List.filter_eq_nil_iff.mpr fun e he => ?_
              simpa using Nat.ne_of_lt (ih.made e he)
            refine .opening ?_ ?_
            · rw [hnone]
              exact (opening_diagnose key traceId interrupt).map _
            · rw [hnone]
              exact List.forall_mem_nil _
        · intro e he id hid
          obtain ⟨payload, key, traceId, interrupt, rest, hreq, hother, hsession⟩ :=
            ih.accepters e he id hid
          exact ⟨payload, key, traceId, interrupt, rest, hreq,
            (List.getElem?_append_left (ih.made e he)).trans hother, hsession⟩
      · have hcalls := (Pool.uses_of_reachable uses_serve hreach i _ htask).1
        exact ih.call htask hcalls (hok r op k htask) hexec

/-- Two calls are not accepted for one revision. -/
theorem RevisionInvariant.once {p : AgentPool settings rt} (h : RevisionInvariant p)
    {e e' : Event (backend settings rt) Request} (he : e ∈ p.config.history)
    (he' : e' ∈ p.config.history) {id : String} {revision : Int} (hid : accepted e = some id)
    (hid' : accepted e' = some id) (hexpected : e.request.expected = some revision)
    (hexpected' : e'.request.expected = some revision) : e.task = e'.task := by
  have hbase : ∀ e ∈ p.config.history, accepted e = some id → e.request.expected = some revision →
      ∃ m, Base p.config.history e.task id m ∧ m.memoryRevision = revision := by
    intro e he hid hexpected
    obtain ⟨payload, key, traceId, interrupt, rest, memory, hrequest, -, hsession, -, hread, -, m, rfl,
      hrevision⟩ := h.working he hid
    rw [hrequest] at hexpected
    obtain ⟨f, hf, hfread⟩ := hread.read
    obtain ⟨hf, hftask⟩ := List.mem_filter.mp hf
    exact ⟨m, ⟨f, hf, of_decide_eq_true hftask, hsession ▸ hfread⟩, (hrevision revision hexpected).symm⟩
  by_contra hne
  obtain ⟨m, hm, hmrev⟩ := hbase e he hid hexpected
  obtain ⟨m', hm', hmrev'⟩ := hbase e' he' hid' hexpected'
  let differ := fun e e' : Event (backend settings rt) Request => ∀ m m', accepted e = some id →
    accepted e' = some id → Base p.config.history e.task id m → Base p.config.history e'.task id m' →
    m.memoryRevision ≠ m'.memoryRevision
  have hsymm : Std.Symm differ :=
    ⟨fun _ _ hd m m' hid hid' hm hm' => (hd m' m hid' hid hm' hm).symm⟩
  have hdiffer : p.config.history.Pairwise differ :=
    h.increases.imp fun hlt m m' hid hid' hm hm' => (hlt id m m' hid hid' hm hm').ne
  exact hdiffer.forall he he' (fun heq => hne (congrArg Event.task heq)) m m' hid hid' hm hm'
    (hmrev.trans hmrev'.symm)

/-- A request whose memory has moved on. -/
theorem RevisionInvariant.stale {p : AgentPool settings rt} (h : RevisionInvariant p) {i : Nat}
    {t : Task (backend settings rt) Request ExecutionError Reply} {id : String} {m : SessionMemory}
    {revision : Int} (ht : p.tasks[i]? = some t) (hanswers : t.request.answers ≠ [])
    (hexpected : t.request.expected = some revision) (hbase : Base p.config.history i id m)
    (hne : m.memoryRevision ≠ revision) :
    (∀ e ∈ own i p.config.history, accepted e = none) ∧
    ((∀ e ∈ own i p.config.history, passesBy e = false) → t.rest = .raise .clarificationStale) := by
  obtain ⟨r, rest⟩ := t
  cases r with
  | diagnose payload key traceId interrupt =>
      have hexpected : payload.expectedMemoryRevision = some revision := hexpected
      have hread : ∀ {memory}, ReadOnce p.config.history i payload memory → memory = some m := by
        intro memory hread
        obtain ⟨f, hf, hftask, hfread⟩ := hbase
        exact (Prod.mk.inj (hread.only f (mem_own hf hftask) _ hfread)).2.symm
      have hstale : Stale payload (some m) := ⟨hanswers, m, rfl, revision, hexpected, hne.symm⟩
      cases h.stages i payload key traceId interrupt rest ht with
      | opening _ hquiet =>
          obtain ⟨f, hf, hftask, hfread⟩ := hbase
          rw [(hquiet f (mem_own hf hftask)).1] at hfread
          cases hfread
      | informed memory _ honce hquiet hends =>
          cases hread honce
          exact ⟨fun e he => (hquiet e he).1, fun hlive => hends hlive hstale⟩
      | working memory _ honce haccepted hends =>
          cases hread honce
          refine ⟨fun e he => ?_, fun hlive => hends hlive hstale⟩
          cases hid : accepted e with
          | none => rfl
          | some id' =>
              obtain ⟨-, -, m', hm', hrevision⟩ := haccepted e he id' hid
              cases hm'
              exact absurd (hrevision revision hexpected).symm hne
  | createSession | getSession | reviewDiagnosis | expire => exact absurd rfl hanswers

/-- **The check of the revision is a compare-and-swap**, in every run in which the calls on a session
take turns. -/
theorem compareAndSwap_inTurn {p : AgentPool settings rt}
    (h : (system settings rt).ReachableVia InTurn p) : CompareAndSwap p where
  once := fun _ he _ he' _ _ => (revisionInvariant_of_reachable h).once he he'
  stale := fun _ _ _ _ _ => (revisionInvariant_of_reachable h).stale
  increases := (revisionInvariant_of_reachable h).increases
  stored := (revisionInvariant_of_reachable h).stored
  kept := (revisionInvariant_of_reachable h).kept

end revision

/-! ## Two answers to one question -/

/-- The call may be one that `MayWrite` restricts. -/
def Op.restricted : Op rt → Bool
  | .saveMemory _ | .createRun _ | .expireMemory _ => true
  | _ => false

/-- `InTurn` holds when nobody else has been accepted. -/
def turnCheck (p : SamplePool) : SampleMove → Bool
  | .start _ => true
  | .step i _ => match p.tasks[i]? with
      | some ⟨.diagnose _ _ _ _, .call (.expireMemory _) _⟩ => false
      | some ⟨.diagnose _ _ _ _, .call op _⟩ =>
          !op.restricted || p.config.history.all fun e => e.task = i || (accepted e).isNone
      | some ⟨_, .call op _⟩ =>
          !op.restricted || p.config.history.all fun e => (accepted e).isNone
      | _ => true

theorem inTurn_of_check (p : SamplePool) (m : SampleMove) (h : turnCheck p m = true) :
    InTurn p m := by
  cases m with
  | start r => exact trivial
  | step i x =>
      intro r op k htask
      have hnone : (p.config.history.all fun e => (accepted e).isNone) = true →
          ∀ id, NobodyAccepted p.config.history id := by
        intro hall id e he hid
        have hnone := List.all_eq_true.mp hall e he
        rw [hid] at hnone
        cases hnone
      have hfollows : (p.config.history.all fun e => e.task = i || (accepted e).isNone) = true →
          ∀ id, FollowsAll p.config.history i id := by
        intro hall id e he hid hne
        have hor := List.all_eq_true.mp hall e he
        rw [hid] at hor
        simp [hne] at hor
      unfold turnCheck at h
      dsimp only at h
      rw [htask] at h
      cases r with
      | diagnose payload key traceId interrupt =>
          cases op with
          | saveMemory m => exact hfollows h m.sessionId
          | createRun values => exact fun _ => hfollows h payload.sessionId
          | expireMemory id => cases h
          | _ => exact trivial
      | createSession | getSession | reviewDiagnosis | expire =>
          cases op with
          | saveMemory m => exact hnone h m.sessionId
          | expireMemory id => exact hnone h id
          | _ => exact trivial

/-- An answer to the question for the device. -/
def sampleAnswer : ChatRequest :=
  ⟨"session-1", "fan", [⟨"missing_entity", "pcs-1"⟩], some 2, none⟩

/-- A session whose first question has made the workflow ask for the device. -/
def askedSession : List SampleMove :=
  [.start (.createSession chatPayload none "trace-1")] ++
    calls 0 [sampleInput 1 "session-1" "run-1", sampleInput 1 "" "run-1'", sampleInput 1 "" ""] ++
    [.start (.diagnose sampleQuestion none "trace-2" none)] ++
    calls 1 (List.replicate 17 (sampleInput 2 "" "run-2"))

/-- The calls that have been accepted. -/
def acceptedTasks (p : SamplePool) : List Nat :=
  (p.config.history.filter fun e => (accepted e).isSome).map Event.task

/-- The second of two answers comes when the first has written the memory. -/
theorem later_answer_is_stale : ∃ p, sampleSystem.ReachableVia InTurn p ∧ acceptedTasks p = [2] ∧
    CompareAndSwap p := by
  have hends : ((sampleSystem.runChecked turnCheck emptyPool (askedSession ++
      [.start (.diagnose sampleAnswer none "trace-3" none),
        .start (.diagnose sampleAnswer none "trace-4" none)] ++
      calls 2 (List.replicate 7 (sampleInput 3 "" "run-3")) ++
      calls 3 (List.replicate 2 (sampleInput 3 "" "run-4")))).any
      fun p => acceptedTasks p = [2]) = true := by decide +kernel
  obtain ⟨p, hrun, haccepted⟩ := (Option.any_eq_true _ _).mp hends
  have hreach : sampleSystem.ReachableVia InTurn p :=
    TransitionSystem.ReachableVia.of_runChecked inTurn_of_check (.init emptyPool_init) hrun
  exact ⟨p, hreach, of_decide_eq_true haccepted, compareAndSwap_inTurn hreach⟩

/-- Two answers that both read the memory before either has written it are both accepted. -/
theorem overlapping_answers_accepted : ¬ ∀ p, sampleSystem.Reachable p → CompareAndSwap p := by
  intro hall
  have hends : ((sampleSystem.run emptyPool (askedSession ++
      [.start (.diagnose sampleAnswer none "trace-3" none),
        .start (.diagnose sampleAnswer none "trace-4" none)] ++
      calls 2 (List.replicate 2 (sampleInput 3 "" "")) ++
      calls 3 (List.replicate 3 (sampleInput 3 "" "run-4")) ++
      calls 2 [sampleInput 3 "" "run-3"])).any fun p =>
        p.config.history.any (fun e => e.task = 2 ∧ accepted e = some "session-1" ∧
          e.request.expected = some 2) &&
        p.config.history.any fun e => e.task = 3 ∧ accepted e = some "session-1" ∧
          e.request.expected = some 2) = true := by decide +kernel
  obtain ⟨p, hrun, hboth⟩ := (Option.any_eq_true _ _).mp hends
  obtain ⟨hfirst, hsecond⟩ := Bool.and_eq_true_iff.mp hboth
  obtain ⟨e, he, hfirst⟩ := List.any_eq_true.mp hfirst
  obtain ⟨e', he', hsecond⟩ := List.any_eq_true.mp hsecond
  obtain ⟨htask, hid, hexpected⟩ := of_decide_eq_true hfirst
  obtain ⟨htask', hid', hexpected'⟩ := of_decide_eq_true hsecond
  have hreach : sampleSystem.Reachable p :=
    TransitionSystem.Reachable.of_run (.init emptyPool_init) hrun
  have hsame := (hall p hreach).once e he e' he' "session-1" 2 hid hid' hexpected hexpected'
  rw [htask, htask'] at hsame
  exact absurd hsame (by decide)

end EnergyAgent.Agent
