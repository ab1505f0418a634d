import EnergyAgent.Cases.WorkerRules
import EnergyAgent.Lib.Transition

/-!
# The life cycle of cases as a transition system

The steps are the requests of the case API, the publisher, the two kinds of index workers, the
operator's retry command, and whatever the ingestion does to the other tables. Each runs to its end
before the next begins: what happens when they interleave is the subject of `Indexing.Concurrent`.

`safe_step` is the step lemma for every notion of obligation; what a particular one asks of an API
request or of a drained batch is left as a hypothesis.
-/

namespace EnergyAgent.Cases

open EnergyAgent.Core EnergyAgent.Lib EnergyAgent.Persistence EnergyAgent.Indexing

variable {γ : Type}

/-! ## The system -/

/-- The steps of the system. A label carries all that is not decided by the stored state: the
request, the ids that are drawn, and how the providers and the broker answer. -/
inductive Label (γ : Type)
  | api (call : CaseCall) (request : CaseRequest)
  /-- An index job for a ticket or a manual. -/
  | requestIndex (request : IndexJobCreate) (jobId : NewId)
  /-- The ingestion rewrites its own tables. -/
  | ingest (tickets : List MaintenanceTicketModel) (documents : List ManualDocumentModel)
      (chunks : List ManualChunkModel)
  | retry (jobId traceId : String)
  | publish (outboxId : Nat) (outcome : PublishOutcome)
  | consume (ports : ConsumerPorts γ) (event : IndexJobMessage)
  | drain (ports : ConsumerPorts γ) (events : List IndexJobMessage)

/-- A batch of messages is taken from the queue. -/
def receiveAll (events : List IndexJobMessage) (w : World γ) : World γ :=
  events.foldl (fun w event => receive event w) w

/-- One step of the system. -/
def step (settings : CaseSettings) (w : World γ) : Label γ → Option (World γ)
  | .api call request => some (request.run settings call w).2
  | .requestIndex request jobId =>
      if request.entityType = .diagnosisCase then none
      else
        match addJob request jobId.val w with
        | .ok (_, w') => some w'
        | .error _ => none
  | .ingest tickets documents chunks =>
      some { w with tickets := tickets, documents := documents, chunks := chunks }
  | .retry jobId traceId => some (Indexing.retry jobId traceId w)
  | .publish outboxId outcome =>
      match w.getOutbox outboxId with
      | none => none
      | some row => if row.publishStatus = .pending then some (publishRow row outcome w) else none
  | .consume ports event =>
      if event ∈ w.queue then
        some (requeueUnacked (Indexing.consume ports event (receive event w)).2)
      else none
  | .drain ports events =>
      if events.Subperm w.queue then
        some (requeueUnacked (Indexing.drain ports events (receiveAll events w)).2)
      else none

/-- The system, from empty case, job and message tables. -/
def lifecycle (settings : CaseSettings) : TransitionSystem (World γ) (Label γ) where
  init w := w.cases = [] ∧ w.caseEvents = [] ∧ w.jobs = [] ∧ w.outbox = [] ∧ w.queue = [] ∧
    w.unacked = []
  step := step settings

/-! ## The initial state -/

theorem Base.init {settings : CaseSettings} {w : World γ} (h : (lifecycle settings).init w) :
    Base w := by
  obtain ⟨hcases, hevents, hjobs, houtbox, hqueue, hunacked⟩ := h
  have hnone : ∀ k, w.getCase k = none := fun k => by simp [World.getCase, Table.get, hcases]
  refine ⟨⟨by simp [hcases], by simp [hjobs], by simp [houtbox], ?_, ?_, hnone _, ?_, ?_, ?_, ?_⟩, ?_, ?_⟩
  · intro k row hrow
    rw [hnone] at hrow
    cases hrow
  · intro k row hrow
    rw [hnone] at hrow
    cases hrow
  · intro k row o hrow
    rw [hnone] at hrow
    cases hrow
  · simp [hjobs]
  · simp [hevents]
  · simp [houtbox]
  · simp [hqueue, hunacked]
  · simp [hjobs]

theorem Safe.init {settings : CaseSettings} {R : Prop} {owes : World γ → DiagnosisCaseModel → Prop}
    {w : World γ} (h : (lifecycle settings).init w) : Safe R owes w := by
  have hnone : ∀ k, w.getCase k = none := fun k => by simp [World.getCase, Table.get, h.1]
  refine ⟨Base.init h, ?_, fun _ => ?_⟩
  · intro k row hrow
    rw [hnone] at hrow
    cases hrow
  · intro k row hrow
    rw [hnone] at hrow
    cases hrow

/-! ## Requests -/

/-- The payload that a request sets on a row. -/
def CaseRequest.payload : CaseRequest → Option CasePatchRequest
  | .patch _ payload => some payload
  | .revision _ payload => some payload.patch
  | _ => none

/-- The patch puts the JSON value `null` into a list column. -/
def CasePatchRequest.setsNull (patch : CasePatchRequest) : Bool :=
  patch.resolutionSteps = some none ∨ patch.safetyNotes = some none ∨ patch.evidenceRefs = some none

theorem isSome_getD {α : Type} {o : Option (Option α)} {d : Option α} (ho : o ≠ some none)
    (hd : d.isSome = true) : (o.getD d).isSome = true := by
  cases o with
  | none => exact hd
  | some v =>
      cases v with
      | none => exact absurd rfl ho
      | some a => rfl

theorem readable_rewrite {patch : CasePatchRequest} (h : patch.setsNull = false)
    (rootCause : String) {row : DiagnosisCaseModel} (hread : Readable row) :
    Readable (patch.rewrite rootCause row) := by
  simp only [CasePatchRequest.setsNull, decide_eq_false_iff_not, not_or] at h
  obtain ⟨h₁, h₂, h₃⟩ := h
  obtain ⟨hr₁, hr₂, hr₃, hversion⟩ := hread
  exact ⟨isSome_getD h₁ hr₁, isSome_getD h₂ hr₂, isSome_getD h₃ hr₃, hversion⟩

/-- **The rule for API requests**, up to reviews and reindexing. -/
theorem CaseInvariant.run {R N S : Prop} {I : World γ → Prop} (hI : CaseInvariant R N S I)
    {settings : CaseSettings} (hS : settings.indexExecutionMode = .sync → S) {call : CaseCall} {request : CaseRequest} {w : World γ} (hw : I w)
    (hnull : R → ∀ patch, request.payload = some patch → patch.setsNull = false)
    (hreview : ∀ caseId payload, request = .review caseId payload →
      I (Cases.reviewCase settings call caseId payload w).2)
    (hreindex : ∀ caseId, request = .reindex caseId → I (Cases.reindex settings call caseId w).2) :
    I (request.run settings call w).2 := by
  cases request with
  | createDraft draft => exact hI.createDraft.snd hw
  | patch caseId payload =>
      exact (hI.patch fun hR rootCause row => readable_rewrite (hnull hR payload rfl) rootCause).snd hw
  | submit caseId => exact hI.submit.snd hw
  | review caseId payload => exact hreview caseId payload rfl
  | disable caseId payload => exact (hI.disable hS).snd hw
  | revision caseId payload =>
      exact (hI.revision fun hR rootCause row =>
        readable_rewrite (hnull hR payload.patch rfl) rootCause).snd hw
  | reindex caseId => exact hreindex caseId rfl

/-- Requests take no message from the queue. -/
theorem CaseInvariant.unacked {R N S : Prop} {I : World γ → Prop} (hI : CaseInvariant R N S I) :
    CaseInvariant R N S (fun w => I w ∧ w.unacked = []) where
  base h := hI.base h.1
  core hS _ _ h hc := ⟨hI.core hS h.1 hc, hc.unacked.trans h.2⟩
  event h hplain := ⟨hI.event h.1 hplain, h.2⟩
  insert h hnew hread := ⟨hI.insert h.1 hnew hread, h.2⟩
  rewrite h hkey hrow hevolves hquiet hfit hread :=
    ⟨hI.rewrite h.1 hkey hrow hevolves hquiet hfit hread, h.2⟩
  queue h hkey hrow hevolves hqueues hfit hread hnot hadd := by
    refine ⟨hI.queue h.1 hkey hrow hevolves hqueues hfit hread hnot hadd, ?_⟩
    rcases addJob_cases hadd with ⟨_, rfl⟩ | ⟨_, _, _, rfl⟩ <;> exact h.2

/-! ## The step lemma -/

section

variable {R H : Prop} {owes : World γ → DiagnosisCaseModel → Prop} (ho : Obligation H owes)
include ho

theorem Safe.receive {w : World γ} (h : Safe R owes w) {event : IndexJobMessage}
    (hevent : event ∈ w.queue) : Safe R owes (receive event w) :=
  h.messages ho (h.base.receive hevent) rfl rfl

/-- A batch is taken from the queue: its messages are held. -/
theorem Safe.receiveAll (events : List IndexJobMessage) :
    ∀ {w : World γ} {M : List IndexJobMessage}, Safe R owes w → events.Subperm w.queue →
      M.Subperm w.unacked →
      Safe R owes (receiveAll events w) ∧ (M ++ events).Subperm (receiveAll events w).unacked := by
  induction events with
  | nil => exact fun h _ hM => ⟨h, by rwa [List.append_nil]⟩
  | cons event events ih =>
      intro w M h hsub hM
      have hevent : event ∈ w.queue := hsub.subset (List.mem_cons_self ..)
      have hrest : events.Subperm (Indexing.receive event w).queue := by
        have := hsub.erase event
        rwa [List.erase_cons_head] at this
      have hheld : (M ++ [event]).Subperm (Indexing.receive event w).unacked :=
        hM.append (List.Subperm.refl [event])
      have := ih (h.receive ho hevent) hrest hheld
      rwa [List.append_assoc] at this

omit ho in
theorem receiveAll_caseTable {events : List IndexJobMessage} :
    ∀ {w : World γ}, (receiveAll events w).cases = w.cases := by
  induction events with
  | nil => exact rfl
  | cons event events ih => exact ih.trans rfl

/-- **The step lemma**, up to API requests and the condition on drained batches. -/
theorem safe_step {settings : CaseSettings} {w w' : World γ} {label : Label γ}
    (h : Safe R owes w) (hstep : step settings w label = some w')
    (hapi : ∀ call request, label = .api call request → Safe R owes (request.run settings call w).2)
    (hdrain : H → ∀ ports events, label = .drain ports events → ∀ e ∈ events, Replaced e w) :
    Safe R owes w' := by
  cases label with
  | api call request =>
      cases hstep
      exact hapi call request rfl
  | requestIndex request jobId =>
      simp only [step] at hstep
      split at hstep
      · cases hstep
      · next hother =>
          split at hstep
          · next rec w₁ hadd =>
              cases hstep
              exact h.requestIndex ho hother hadd
          · cases hstep
  | ingest tickets documents chunks =>
      cases hstep
      exact h.core ho ⟨rfl, rfl, rfl, rfl, rfl, rfl⟩
  | retry jobId traceId =>
      cases hstep
      exact h.retry ho jobId traceId
  | publish outboxId outcome =>
      simp only [step] at hstep
      split at hstep
      · cases hstep
      · next row hrow =>
          split at hstep
          · cases hstep
            exact h.publishRow ho (Table.get_eq_some hrow).1 outcome
          · cases hstep
  | consume ports event =>
      simp only [step] at hstep
      split at hstep
      · next hevent =>
          cases hstep
          have hheld : Holding R owes False [event] (receive event w) :=
            ⟨h.receive ho hevent, (List.sublist_append_right _ _).subperm, fun hfalse => hfalse.elim⟩
          have hconsume : Prog.Triple (Holding R owes False [event]) (Indexing.consume ports event)
              (fun _ => Safe R owes) (fun _ => Safe R owes) := Holding.consume ho
          have hend := hconsume.snd hheld
          exact hend.messages ho hend.base.requeueUnacked rfl rfl
      · cases hstep
  | drain ports events =>
      simp only [step] at hstep
      split at hstep
      · next hevents =>
          cases hstep
          obtain ⟨hsafe, hheld⟩ := Safe.receiveAll ho events h hevents (List.nil_subperm)
          have hholding : Holding R owes H events (receiveAll events w) :=
            ⟨hsafe, hheld, fun hH e he => replaced_congr (hdrain hH ports events rfl e he)
              receiveAll_caseTable⟩
          have hdrained : Prog.Triple (Holding R owes H events) (Indexing.drain ports events)
              (fun _ => Safe R owes) (fun _ => Safe R owes) := Holding.drain ho id events
          have hend := hdrained.snd hholding
          exact hend.messages ho hend.base.requeueUnacked rfl rfl
      · cases hstep

end

/-- Between two steps no message is at a consumer. -/
theorem unacked_step {settings : CaseSettings} {w w' : World γ} {label : Label γ}
    (h : w.unacked = []) (hstep : step settings w label = some w')
    (hapi : ∀ call request, label = .api call request →
      (request.run settings call w).2.unacked = []) : w'.unacked = [] := by
  cases label with
  | api call request =>
      cases hstep
      exact hapi call request rfl
  | requestIndex request jobId =>
      simp only [step] at hstep
      split at hstep
      · cases hstep
      · split at hstep
        · next rec w₁ hadd =>
            cases hstep
            rcases addJob_cases hadd with ⟨_, rfl⟩ | ⟨_, _, _, rfl⟩ <;> exact h
        · cases hstep
  | ingest tickets documents chunks =>
      cases hstep
      exact h
  | retry jobId traceId =>
      cases hstep
      unfold Indexing.retry
      split
      · exact h
      · split <;> exact h
  | publish outboxId outcome =>
      simp only [step] at hstep
      split at hstep
      · cases hstep
      · split at hstep
        · cases hstep
          cases outcome <;> exact h
        · cases hstep
  | consume ports event =>
      simp only [step] at hstep
      split at hstep
      · cases hstep
        rfl
      · cases hstep
  | drain ports events =>
      simp only [step] at hstep
      split at hstep
      · cases hstep
        rfl
      · cases hstep

/-! ## Sample requests -/

/-- Providers and a broker that always answer; there is no graph, so every run is degraded. -/
def answeringPorts : ConsumerPorts Unit where
  handlers := quietPorts
  publish := fun _ => .applied
  ack := fun _ => .ok ()
  lastAck := fun _ => .ok ()

/-- A draft with everything that `submit` asks for. -/
def sampleDraft (sessionId : String) : DraftValues where
  sessionId := sessionId
  runId := "run"
  reviewId := "review"
  sourceTicketId := none
  deviceType := some "inverter"
  deviceModel := some "X100"
  manufacturer := none
  alarmName := some "over temperature"
  summary := some "stops at noon"
  timeseries := none
  rootCause := "blocked fan"
  resolutionSteps := ["clean the fan"]
  safetyNotes := []
  evidenceRefs := ["manual:1"]

/-! The ids that the sample runs draw. -/

def caseOne : NewId := ⟨"case-1", by decide⟩
def caseTwo : NewId := ⟨"case-2", by decide⟩
def jobOne : NewId := ⟨"job-1", by decide⟩
def jobTwo : NewId := ⟨"job-2", by decide⟩
def jobThree : NewId := ⟨"job-3", by decide⟩
/-- For a call that draws none. -/
def noId : NewId := ⟨"none", by decide⟩

/-- A call that creates case or job `id`, with providers that answer or not. -/
def sampleCall (actorId : String) (actorRole : ActorRole) (id : NewId) (answering : Bool) :
    CaseCall where
  actor := ⟨actorId, actorRole⟩
  traceId := "trace"
  idempotencyKey := none
  newCaseId := id
  newJobId := id
  latestEvidence := fun _ => ["manual:1"]
  embedding := if answering then some (fun _ => .ok []) else none
  milvus := some ⟨fun _ => .applied, fun _ => .applied⟩

/-- The engineer's calls. -/
def engineer (id : NewId) : CaseCall := sampleCall "engineer" .operator id true

/-- The reviewer's calls. -/
def reviewer (id : NewId) (answering : Bool) : CaseCall := sampleCall "reviewer" .reviewer id answering

/-- A patch that leaves every field alone. -/
def emptyPatch : CasePatchRequest := ⟨none, none, none, none, none, none, none, none, none, none⟩

def approval : CaseReviewRequest := ⟨.approve, none, nofun⟩

def outdated : CaseDisableRequest := ⟨"outdated", by decide⟩

/-- The message of a job of `caseId`. -/
def caseMessage (jobId caseId version : String) (operation : IndexOperation) : IndexJobMessage where
  jobId := jobId
  entityType := .diagnosisCase
  entityId := caseId
  entityVersion := version
  operation := operation
  traceId := "trace"
  correlationId := "session"
  causationId := "review"

def sampleSettings (mode : IndexExecutionMode) : CaseSettings := ⟨mode, defaultMaxAttempts, true⟩

end EnergyAgent.Cases
