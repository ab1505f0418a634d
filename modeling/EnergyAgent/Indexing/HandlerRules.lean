import EnergyAgent.Indexing.Batch

/-!
# Invariant rules for the handlers

A handler writes to the database in two places only: `_set_case_index`, on a case that passed the
status check, and the transaction of `_queue_superseded_case`. `keeps_handle` says so once: an
invariant kept by these two writes (and blind to the vector store, the graph and the other entities)
is kept by `handle`, whether it returns or raises. `keeps_handleBatch` is the same for batches.
-/

namespace EnergyAgent.Indexing

open EnergyAgent.Lib EnergyAgent.Persistence

variable {γ : Type}

/-- The two worlds have the same cases, jobs and messages. -/
structure SameCore (w w' : World γ) : Prop where
  cases : w'.cases = w.cases
  caseEvents : w'.caseEvents = w.caseEvents
  jobs : w'.jobs = w.jobs
  outbox : w'.outbox = w.outbox
  queue : w'.queue = w.queue
  unacked : w'.unacked = w.unacked

theorem SameCore.of_graph {w w' : World γ} (h : SameButGraph w w') : SameCore w w' := by
  obtain ⟨graph, projections, rfl⟩ := h
  exact ⟨rfl, rfl, rfl, rfl, rfl, rfl⟩

theorem SameCore.upsertCollection {w : World γ} (collection : Collection)
    (rows : List VectorRow) : SameCore w (upsertCollection collection rows w) := by
  cases collection <;> exact ⟨rfl, rfl, rfl, rfl, rfl, rfl⟩

theorem SameCore.dropCaseVector {w : World γ} (caseId : String) :
    SameCore w (dropCaseVector caseId w) :=
  ⟨rfl, rfl, rfl, rfl, rfl, rfl⟩

theorem SameCore.indexTicket {w : World γ} (ticketId text : String) :
    SameCore w (indexTicket ticketId text w) :=
  ⟨rfl, rfl, rfl, rfl, rfl, rfl⟩

theorem SameCore.indexManual {w : World γ} (document : ManualDocumentModel) (docId : String) :
    SameCore w (indexManual document docId w) :=
  ⟨rfl, rfl, rfl, rfl, rfl, rfl⟩

theorem SameCore.getCase {w w' : World γ} (h : SameCore w w') (k : String) :
    w'.getCase k = w.getCase k :=
  World.getCase_congr h.cases

/-- The review status that the check of `_case` asks of a row. -/
def Accepts (event : IndexJobMessage) (row : DiagnosisCaseModel) : Prop :=
  if event.operation = .tombstone then row.reviewStatus.withdrawn = true
  else row.reviewStatus = .approved

/-- An invariant that every database write of a handler keeps, as long as it handles messages in
`E`. -/
structure HandlerInvariant (E : IndexJobMessage → Prop) (I : World γ → Prop) : Prop where
  core : ∀ {w w'}, SameCore w w' → I w → I w'
  set : ∀ {w event row status active text}, I w → E event → event.entityType = .diagnosisCase →
    w.getCase event.entityId = some row → Accepts event row →
    (active = true → event.operation ≠ .tombstone) → status ≠ .queued →
    I (setCaseIndex event.entityId status active text w)
  supersede : ∀ {w w' event jobId old}, I w → supersedeOld event jobId old w = .ok ((), w') → I w'

/-! ## What a handler leaves behind -/

/-- The case of the message is not queued for it any more. -/
def Indexed (event : IndexJobMessage) (w : World γ) : Prop :=
  event.entityType = .diagnosisCase → ∀ row, w.getCase event.entityId = some row →
    Accepts event row → row.indexStatus ≠ .queued

/-- The case that the case of the message replaces, if there is one, is not approved any more. -/
def Replaced (event : IndexJobMessage) (w : World γ) : Prop :=
  event.entityType = .diagnosisCase → event.operation ≠ .tombstone → ∀ row old orow,
    w.getCase event.entityId = some row → row.supersededId = some old →
    w.getCase old = some orow → orow.reviewStatus ≠ .approved

/-- The case of the message is not in a state the message is meant for. -/
def Rejects (event : IndexJobMessage) (w : World γ) : Prop :=
  event.entityType = .diagnosisCase → ∀ row, w.getCase event.entityId = some row →
    toString row.caseVersion = event.entityVersion → Accepts event row →
    event.operation = .tombstone ∧ row.isActive = true

theorem Indexed.core {event : IndexJobMessage} {w w' : World γ} (h : Indexed event w)
    (hcore : SameCore w w') : Indexed event w' := by
  intro htype row hrow
  rw [hcore.getCase] at hrow
  exact h htype row hrow

theorem Replaced.core {event : IndexJobMessage} {w w' : World γ} (h : Replaced event w)
    (hcore : SameCore w w') : Replaced event w' := by
  intro htype hop row old orow hrow hold horow
  rw [hcore.getCase] at hrow horow
  exact h htype hop row old orow hrow hold horow

theorem rejects_of_checkCase {event : IndexJobMessage} {w : World γ}
    (h : checkCase event (w.getCase event.entityId) = .error .stale) : Rejects event w := by
  intro _ row hrow hversion haccepts
  rw [hrow] at h
  simp only [checkCase, hversion, not_true_eq_false, if_false, ne_eq] at h
  unfold Accepts at haccepts
  by_cases hop : event.operation = .tombstone
  · rw [if_pos hop] at haccepts h
    refine ⟨hop, ?_⟩
    cases hactive : row.isActive with
    | true => rfl
    | false => simp [hactive, haccepts] at h
  · rw [if_neg hop] at haccepts h
    simp [haccepts] at h

/-! ## No call raises `StaleIndexEventError` -/

/-- Whatever the program raises, it is not the stale signal. -/
abbrev NeverStale {α : Type} (x : Handler γ α) : Prop :=
  Prog.Triple (fun _ => True) x (fun _ _ => True) (fun e _ => e ≠ .stale)

theorem fromPort_ne_stale (e : PortError) : e.val ≠ .stale := by
  intro h
  have := e.property
  rw [h] at this
  cases this

theorem ofPort_ne_stale {α : Type} (r : Except PortError α) : ofPort r ≠ .error .stale := by
  cases r with
  | ok a => simp [ofPort]
  | error e => simpa [ofPort] using fromPort_ne_stale e

theorem neverStale_lift {α : Type} {r : Except HandlerError α} (h : r ≠ .error .stale) :
    NeverStale (Prog.lift r : Handler γ α) := by
  refine .lift (fun _ _ _ _ => trivial) (fun e he _ _ => ?_)
  rintro rfl
  exact h he

theorem neverStale_callOutcome {outcome : CallOutcome} {f : World γ → World γ} :
    NeverStale (callOutcome outcome f) := by
  unfold callOutcome
  cases outcome with
  | applied => exact .write (fun _ _ => trivial)
  | raised e => exact .raise (fun _ _ => fromPort_ne_stale e)
  | appliedThenRaised e =>
      exact .bind (Q := fun _ _ => True) (.write fun _ _ => trivial)
        (fun _ => .raise fun _ _ => fromPort_ne_stale e)

/-- `except Exception` lets only a cancellation through. -/
theorem neverStale_catchException {α : Type} {x h : Handler γ α} (hh : NeverStale h) :
    NeverStale (catchException x h) := by
  refine .handle (E := fun _ _ => True) (fun w _ => ?_) (fun e => ?_)
  · cases x w with
    | mk r w' => cases r <;> trivial
  · by_cases he : e = .cancelled
    · rw [if_pos he]
      exact .raise (fun _ _ => by rw [he]; simp)
    · rw [if_neg he]
      exact hh

theorem neverStale_degraded {event : IndexJobMessage} {status : GraphProjectionStatus}
    {code : Option String} : NeverStale (do
      Prog.write (projection event status code)
      pure true : Handler γ Bool) :=
  .bind (Q := fun _ _ => True) (.write fun _ _ => trivial) (fun _ => .pure fun _ _ => trivial)

theorem toHandlerError_ne_stale (e : RepositoryError) : e.toHandlerError ≠ .stale := by
  cases e <;> simp [RepositoryError.toHandlerError, HandlerError.uncoded]

theorem neverStale_supersedeOriginal {ports : IndexPorts γ} {event : IndexJobMessage}
    {case : DiagnosisCaseModel} : NeverStale (supersedeOriginal ports event case) := by
  unfold supersedeOriginal
  cases case.supersededId with
  | none => exact .pure (fun _ _ => trivial)
  | some old =>
      refine .bind (Q := fun _ _ => True) (.raiseIf (fun _ _ _ => by simp) (fun _ _ _ => trivial))
        (fun _ => .transaction (fun _ _ _ _ _ => trivial) (fun w e _ h => ?_))
      unfold supersedeOld at h
      split at h
      · cases h
      · split at h
        · cases h
        · split at h
          · cases h
          · cases h
            exact toHandlerError_ne_stale _

theorem neverStale_upsertCase {ports : IndexPorts γ} {event : IndexJobMessage}
    {case : DiagnosisCaseModel} : NeverStale (upsertCase ports event case) := by
  unfold upsertCase
  refine .bind (Q := fun _ _ => True) (neverStale_lift ?_) (fun text => ?_)
  · unfold caseText
    split
    · simp
    · split <;> simp [HandlerError.uncoded]
  refine .bind (Q := fun _ _ => True) (neverStale_lift (ofPort_ne_stale _)) (fun vector => ?_)
  refine .bind (Q := fun _ _ => True) neverStale_callOutcome (fun _ => ?_)
  refine .bind (Q := fun _ _ => True) (neverStale_catchException neverStale_degraded)
    (fun degraded => ?_)
  refine .bind (Q := fun _ _ => True) (.write fun _ _ => trivial) (fun _ => ?_)
  exact .bind neverStale_supersedeOriginal (fun _ => .pure fun _ _ => trivial)

theorem neverStale_tombstoneCase {ports : IndexPorts γ} {event : IndexJobMessage}
    {case : DiagnosisCaseModel} : NeverStale (tombstoneCase ports event case) := by
  unfold tombstoneCase
  refine .bind (Q := fun _ _ => True) neverStale_callOutcome (fun _ => ?_)
  refine .bind (Q := fun _ _ => True) (neverStale_catchException neverStale_degraded)
    (fun degraded => ?_)
  exact .bind (Q := fun _ _ => True) (.write fun _ _ => trivial) (fun _ => .pure fun _ _ => trivial)

/-! ## A handler that returns has finished its job -/

/-- Whatever the program returns closes the job. -/
abbrev Finishes (x : Handler γ HandlerResult) : Prop :=
  Prog.Triple (fun _ => True) x (fun r _ => r.status.terminal = true) (fun _ _ => True)

theorem triple_any {α : Type} (x : Handler γ α) :
    Prog.Triple (fun _ => True) x (fun _ _ => True) (fun _ _ => True) := by
  intro w _
  cases x w with
  | mk r w' => cases r <;> trivial

theorem finishes_bind {α : Type} {x : Handler γ α} {f : α → Handler γ HandlerResult}
    (h : ∀ a, Finishes (f a)) : Finishes (x >>= f) := .bind (triple_any x) h

theorem finishes_pure {r : HandlerResult} (h : r.status.terminal = true) :
    Finishes (pure r : Handler γ HandlerResult) := .pure (fun _ _ => h)

theorem caseResult_terminal (degraded : Bool) : (caseResult degraded).status.terminal = true := by
  cases degraded <;> rfl

theorem finishes_handle {ports : IndexPorts γ} {event : IndexJobMessage} :
    Finishes (handle ports event) := by
  unfold handle
  cases event.entityType with
  | manualDocument =>
      refine finishes_bind (fun found => ?_)
      cases found with
      | none => exact .raise (fun _ _ => trivial)
      | some document =>
          exact finishes_bind fun _ => finishes_bind fun _ => finishes_bind fun _ =>
            finishes_bind fun _ => finishes_bind fun _ => finishes_pure rfl
  | maintenanceTicket =>
      exact finishes_bind fun _ => finishes_bind fun _ => finishes_bind fun _ =>
        finishes_bind fun _ => finishes_bind fun _ => finishes_pure rfl
  | diagnosisCase =>
      refine finishes_bind (fun found => finishes_bind fun case => ?_)
      split
      · exact finishes_bind fun _ => finishes_bind fun _ => finishes_bind fun _ => finishes_pure rfl
      · exact finishes_bind fun _ => finishes_bind fun _ => finishes_bind fun _ =>
          finishes_bind fun degraded => finishes_bind fun _ => finishes_bind fun _ =>
            finishes_pure (caseResult_terminal degraded)
  | templateGraph => exact .raise (fun _ _ => trivial)

/-- The same for a batch. -/
abbrev FinishesAll (x : Handler γ BatchResults) : Prop :=
  Prog.Triple (fun _ => True) x (fun results _ => ∀ entry ∈ results,
    entry.2.status.terminal = true) (fun _ _ => True)

theorem finishesAll_cons {jobId : String} {result : HandlerResult} {x : Handler γ BatchResults}
    (hresult : result.status.terminal = true) (hx : FinishesAll x) :
    FinishesAll (do
      let results ← x
      pure ((jobId, result) :: results)) := by
  refine .bind hx (fun results => .pure fun _ h entry hentry => ?_)
  rcases List.mem_cons.mp hentry with rfl | hrest
  · exact hresult
  · exact h entry hrest

theorem finishesAll_handleEach {ports : IndexPorts γ} (events : List IndexJobMessage) :
    FinishesAll (handleEach ports events) := by
  induction events with
  | nil => exact .pure (fun _ _ entry hentry => by cases hentry)
  | cons event events ih =>
      refine .bind finishes_handle (fun result => ?_)
      intro w hresult
      exact finishesAll_cons hresult ih w trivial

theorem finishesAll_indexCases {ports : IndexPorts γ} (tasks : List CaseTask) :
    FinishesAll (indexCases ports tasks) := by
  induction tasks with
  | nil => exact .pure (fun _ _ entry hentry => by cases hentry)
  | cons task tasks ih =>
      exact .bind (triple_any _) fun degraded => .bind (triple_any _) fun _ =>
        finishesAll_cons (caseResult_terminal degraded) ih

theorem finishesAll_handleBatch {ports : IndexPorts γ} (events : List IndexJobMessage) :
    FinishesAll (handleBatch ports events) := by
  rcases handleBatch_cases ports events with ⟨_, hbatch⟩ | ⟨_, hbatch⟩ | hbatch
  · rw [hbatch]
    refine .bind (triple_any _) fun _ => .bind (triple_any _) fun tasks => .bind (triple_any _) fun _ =>
      .bind (triple_any _) fun _ => .bind (triple_any _) fun _ => .pure fun _ _ entry hentry => ?_
    obtain ⟨task, _, rfl⟩ := List.mem_map.mp hentry
    rfl
  · rw [hbatch]
    exact .bind (triple_any _) fun _ => .bind (triple_any _) fun tasks => .bind (triple_any _) fun _ =>
      .bind (triple_any _) fun _ => finishesAll_indexCases tasks
  · rw [hbatch]
    exact finishesAll_handleEach events

/-! ## The rules -/

/-! ### The other entities -/

section others

variable {I : World γ → Prop} (hcore : ∀ {w w'}, SameCore w w' → I w → I w')
include hcore

theorem keeps_handleTicket {ports : IndexPorts γ} {event : IndexJobMessage} :
    Prog.Keeps I (handleTicket ports event) := by
  unfold Indexing.handleTicket
  refine .bind (.read _) (fun _ => .bind (.lift _) (fun ticket => .bind (.lift _) (fun _ => ?_)))
  refine .bind (keeps_vectorUpsert fun _ h => hcore (.upsertCollection _ _) h) (fun _ => ?_)
  exact .bind (.write fun _ h => hcore (.indexTicket _ _) h) (fun _ => .pure _)

theorem keeps_handleManual {ports : IndexPorts γ} {event : IndexJobMessage} :
    Prog.Keeps I (handleManual ports event) := by
  unfold Indexing.handleManual
  refine .bind (.read _) (fun found => ?_)
  cases found with
  | none => exact .raise _
  | some document =>
      refine .bind .raiseIf (fun _ => .bind (.read _) (fun _ => .bind (.lift _) (fun _ => ?_)))
      refine .bind (keeps_vectorUpsert fun _ h => hcore (.upsertCollection _ _) h) (fun _ => ?_)
      exact .bind (.write fun _ h => hcore (.indexManual _ _) h) (fun _ => .pure _)

theorem keeps_ticketBatch {ports : IndexPorts γ} {events : List IndexJobMessage} :
    Prog.Keeps I (ticketBatch ports events) := by
  unfold Indexing.ticketBatch
  refine .bind (.read _) (fun _ => .bind (.lift _) (fun tasks => .bind (.lift _) (fun _ => ?_)))
  refine .bind (keeps_vectorUpsert fun _ h => hcore (.upsertCollection _ _) h) (fun _ => ?_)
  refine .bind (.write fun w h => ?_) (fun _ => .pure _)
  unfold indexTickets
  induction tasks generalizing w with
  | nil => exact h
  | cons task tasks ih => exact ih _ (hcore (.indexTicket _ _) h)

end others

section

variable {E : IndexJobMessage → Prop} {I : World γ → Prop} (hI : HandlerInvariant E I)
include hI

theorem HandlerInvariant.vectorUpsert {ports : IndexPorts γ} {collection : Collection}
    {rows : List VectorRow} {caseId : String} {row : DiagnosisCaseModel} :
    Prog.Keeps (fun w => I w ∧ w.getCase caseId = some row)
      (vectorUpsert ports collection rows) :=
  keeps_vectorUpsert (fun _ h => ⟨hI.core (.upsertCollection _ _) h.1,
    ((SameCore.upsertCollection collection rows).getCase caseId).trans h.2⟩)

theorem HandlerInvariant.of_graph {α : Type} {x : Handler γ α}
    (hx : ∀ w, Prog.Keeps (SameButGraph w) x) {caseId : String} {row : DiagnosisCaseModel} :
    Prog.Keeps (fun w => I w ∧ w.getCase caseId = some row) x := by
  apply Prog.Keeps.of_snd
  rintro w ⟨hw, hrow⟩
  have hcore := SameCore.of_graph ((hx w).snd (SameButGraph.refl w))
  exact ⟨hI.core hcore hw, (hcore.getCase caseId).trans hrow⟩

/-- The end of an upsert, on a case that has just been indexed. -/
theorem HandlerInvariant.supersedeOriginal {ports : IndexPorts γ} {event : IndexJobMessage}
    {case : DiagnosisCaseModel} (hop : event.operation ≠ .tombstone) :
    Prog.Triple (fun w => I w ∧ Indexed event w ∧ ∀ row, w.getCase event.entityId = some row →
        row.supersededId = case.supersededId)
      (supersedeOriginal ports event case)
      (fun _ w => I w ∧ Indexed event w ∧ Replaced event w) (fun _ => I) := by
  unfold Indexing.supersedeOriginal
  cases hold : case.supersededId with
  | none =>
      refine .pure (fun w h => ⟨h.1, h.2.1, fun _ _ row old orow hrow hsome => ?_⟩)
      rw [h.2.2 row hrow] at hsome
      cases hsome
  | some old =>
      refine .keeps_bind .raiseIf (fun _ _ h => h.1) (fun _ => .transaction ?_ (fun _ _ h _ => h.1))
      rintro w ⟨⟩ w' ⟨hw, hindexed, hsame⟩ h
      have hw' := hI.supersede hw h
      rcases supersedeOld_cases h with ⟨rfl, hnot⟩ | ⟨orow, rec, horow, _, hadd⟩
      · refine ⟨hw', hindexed, fun _ _ row old' orow hrow hsome horow => ?_⟩
        rw [hsame row hrow] at hsome
        cases hsome
        exact hnot orow horow
      · have hget : ∀ k, w'.getCase k = (w.updateCase old supersededRow).getCase k := fun k =>
          World.getCase_congr (addJob_caseTable hadd)
        have hself : w'.getCase old = some (supersededRow orow) := by
          rw [hget, World.getCase_updateCase_self supersededRow_caseId, horow]
          rfl
        refine ⟨hw', fun htype row hrow haccepts => ?_, fun _ _ row old' orow' hrow hsome horow' => ?_⟩
        · by_cases hk : event.entityId = old
          · rw [hk, hself] at hrow
            cases hrow
            rw [Accepts, if_neg hop] at haccepts
            cases haccepts
          · rw [hget, World.getCase_updateCase_ne supersededRow_caseId hk] at hrow
            exact hindexed htype row hrow haccepts
        · have hid : row.supersededId = some old := by
            by_cases hk : event.entityId = old
            · rw [hk, hself] at hrow
              cases hrow
              exact hsame orow (hk ▸ horow)
            · rw [hget, World.getCase_updateCase_ne supersededRow_caseId hk] at hrow
              exact hsame row hrow
          rw [hid] at hsome
          cases hsome
          rw [hself] at horow'
          cases horow'
          simp [supersededRow]

/-- `_set_case_index` leaves the case of the message with a status of its own. -/
theorem HandlerInvariant.setIndex {event : IndexJobMessage} {case : DiagnosisCaseModel}
    (status : IndexStatus) (active : Bool) (text : Option String) (hE : E event)
    (htype : event.entityType = .diagnosisCase) (haccepts : Accepts event case)
    (hactive : active = true → event.operation ≠ .tombstone) (hstatus : status ≠ .queued) :
    Prog.Triple (fun w => I w ∧ w.getCase event.entityId = some case)
      (Prog.write (setCaseIndex event.entityId status active text) : Handler γ Unit)
      (fun _ w => I w ∧ Indexed event w ∧ ∀ row, w.getCase event.entityId = some row →
        row.supersededId = case.supersededId) (fun _ => I) := by
  refine .write (fun w h => ⟨hI.set h.1 hE htype h.2 haccepts hactive hstatus, ?_, ?_⟩)
  · intro _ row hrow _
    rw [setCaseIndex, World.getCase_updateCase_self (indexRow_caseId _ _ _), h.2] at hrow
    cases hrow
    exact hstatus
  · intro row hrow
    rw [setCaseIndex, World.getCase_updateCase_self (indexRow_caseId _ _ _), h.2] at hrow
    cases hrow
    rfl

theorem HandlerInvariant.upsertCase {ports : IndexPorts γ} {event : IndexJobMessage}
    {case : DiagnosisCaseModel} (hE : E event) (htype : event.entityType = .diagnosisCase)
    (hop : event.operation ≠ .tombstone) (happroved : case.reviewStatus = .approved) :
    Prog.Triple (fun w => I w ∧ w.getCase event.entityId = some case) (upsertCase ports event case)
      (fun _ w => I w ∧ Indexed event w ∧ Replaced event w) (fun _ => I) := by
  have hkeep : ∀ (e : HandlerError) w, I w ∧ w.getCase event.entityId = some case → I w :=
    fun _ _ h => h.1
  have haccepts : Accepts event case := by rwa [Accepts, if_neg hop]
  unfold Indexing.upsertCase
  refine .keeps_bind (.lift _) hkeep (fun text => .keeps_bind (.lift _) hkeep (fun vector => ?_))
  refine .keeps_bind hI.vectorUpsert hkeep (fun _ => ?_)
  refine .keeps_bind (hI.of_graph fun _ => keeps_projectCase) hkeep (fun degraded => ?_)
  refine .bind (hI.setIndex _ _ _ hE htype haccepts (fun _ => hop) ?_) (fun _ => ?_)
  · unfold indexedStatus
    split <;> simp
  · exact .bind (hI.supersedeOriginal hop) (fun _ => .pure fun _ h => h)

theorem HandlerInvariant.tombstoneCase {ports : IndexPorts γ} {event : IndexJobMessage}
    {case : DiagnosisCaseModel} (hE : E event) (htype : event.entityType = .diagnosisCase)
    (hop : event.operation = .tombstone) (hwithdrawn : case.reviewStatus.withdrawn = true) :
    Prog.Triple (fun w => I w ∧ w.getCase event.entityId = some case)
      (tombstoneCase ports event case)
      (fun _ w => I w ∧ Indexed event w ∧ Replaced event w) (fun _ => I) := by
  have hkeep : ∀ (e : HandlerError) w, I w ∧ w.getCase event.entityId = some case → I w :=
    fun _ _ h => h.1
  have haccepts : Accepts event case := by rwa [Accepts, if_pos hop]
  unfold Indexing.tombstoneCase
  refine .keeps_bind (keeps_callOutcome (fun _ h => ⟨hI.core (.dropCaseVector _) h.1, h.2⟩) _) hkeep
    (fun _ => ?_)
  refine .keeps_bind (hI.of_graph fun _ => keeps_unprojectCase) hkeep (fun degraded => ?_)
  refine .bind (hI.setIndex _ _ _ hE htype haccepts nofun (by simp)) (fun _ => .pure ?_)
  exact fun w h => ⟨h.1, h.2.1, fun _ hnot => absurd hop hnot⟩

theorem HandlerInvariant.handleCase {ports : IndexPorts γ} {event : IndexJobMessage} (hE : E event)
    (htype : event.entityType = .diagnosisCase) :
    Prog.Triple I (handleCase ports event) (fun _ w => I w ∧ Indexed event w ∧ Replaced event w)
      (fun e w => I w ∧ (e = .stale → Rejects event w)) := by
  intro w hw
  unfold Indexing.handleCase
  rw [Prog.bind_read]
  cases hcheck : checkCase event (w.getCase event.entityId) with
  | error e =>
      refine ⟨hw, fun he => ?_⟩
      subst he
      exact rejects_of_checkCase hcheck
  | ok case =>
      obtain ⟨hfound, _, hstatus⟩ := checkCase_status hcheck
      rw [Prog.bind_of_ok (Prog.lift_apply _ w)]
      by_cases hop : event.operation = .tombstone
      · rw [if_pos hop] at hstatus ⊢
        exact Prog.Triple.weaken (.and (hI.tombstoneCase hE htype hop hstatus.1) neverStale_tombstoneCase)
          (fun _ h => h) (fun _ _ h => h.1) (fun _ _ h => ⟨h.1, fun he => absurd he h.2⟩) w
          ⟨⟨hw, hfound⟩, trivial⟩
      · rw [if_neg hop] at hstatus ⊢
        exact Prog.Triple.weaken (.and (hI.upsertCase hE htype hop hstatus) neverStale_upsertCase)
          (fun _ h => h) (fun _ _ h => h.1) (fun _ _ h => ⟨h.1, fun he => absurd he h.2⟩) w
          ⟨⟨hw, hfound⟩, trivial⟩

/-- **The rule for `handle`.** It keeps the invariant; when it returns, the case of the message is
indexed and the case it replaces withdrawn; when it calls the message stale, the message is. -/
theorem HandlerInvariant.handle {ports : IndexPorts γ} {event : IndexJobMessage} (hE : E event) :
    Prog.Triple I (handle ports event) (fun _ w => I w ∧ Indexed event w ∧ Replaced event w)
      (fun e w => I w ∧ (e = .stale → Rejects event w)) := by
  have hother : event.entityType ≠ .diagnosisCase → ∀ x : Handler γ HandlerResult, Prog.Keeps I x →
      Prog.Triple I x (fun _ w => I w ∧ Indexed event w ∧ Replaced event w)
        (fun e w => I w ∧ (e = .stale → Rejects event w)) := fun hne x hx =>
    .weaken hx (fun _ h => h)
      (fun _ _ h => ⟨h, fun htype => absurd htype hne, fun htype => absurd htype hne⟩)
      (fun _ _ h => ⟨h, fun _ htype => absurd htype hne⟩)
  unfold Indexing.handle
  cases htype : event.entityType with
  | manualDocument => exact hother (by simp [htype]) _ (keeps_handleManual hI.core)
  | maintenanceTicket => exact hother (by simp [htype]) _ (keeps_handleTicket hI.core)
  | diagnosisCase => exact hI.handleCase hE htype
  | templateGraph => exact hother (by simp [htype]) _ (.raise _)

end

/-! ## Batches -/

/-- The invariant together with the messages that have been handled already. -/
def WithIndexed (I : World γ → Prop) (D : IndexJobMessage → Prop) (w : World γ) : Prop :=
  I w ∧ ∀ e, D e → Indexed e w

/-- An invariant that the handlers keep, and that a message handled earlier in a batch stays handled
with. -/
def BatchInvariant (E : IndexJobMessage → Prop) (I : World γ → Prop) : Prop :=
  ∀ D : IndexJobMessage → Prop, (∀ e, D e → E e) → HandlerInvariant E (WithIndexed I D)

theorem orderCases_events {w : World γ} : ∀ {events : List IndexJobMessage} {tasks : List CaseTask},
    orderCases w events = .ok tasks → tasks.map (·.event) = events
  | [], _, h => by
    cases h
    rfl
  | event :: events, tasks, h => by
    unfold orderCases at h
    obtain ⟨case, _, h₁⟩ := Prog.except_bind_eq_ok h
    obtain ⟨text, _, h₂⟩ := Prog.except_bind_eq_ok h₁
    obtain ⟨rest, hrest, h₃⟩ := Prog.except_bind_eq_ok h₂
    cases h₃
    rw [List.map_cons, orderCases_events hrest]

section

variable {E : IndexJobMessage → Prop} {I : World γ → Prop} (hI : BatchInvariant E I)
include hI

theorem BatchInvariant.handleEach {ports : IndexPorts γ} (events : List IndexJobMessage) :
    ∀ D : IndexJobMessage → Prop, (∀ e, D e → E e) → (∀ e ∈ events, E e) →
      Prog.Triple (WithIndexed I D) (handleEach ports events)
        (fun _ => WithIndexed I (fun e => D e ∨ e ∈ events)) (fun _ => I) := by
  induction events with
  | nil => exact fun D _ _ => .pure (fun w h => ⟨h.1, fun e he => h.2 e (by simpa using he)⟩)
  | cons event events ih =>
      intro D hD hE
      have hevent : E event := hE event (List.mem_cons_self ..)
      have hD' : ∀ e, D e ∨ e = event → E e := by
        rintro e (he | rfl)
        · exact hD e he
        · exact hevent
      refine .bind (Q := fun _ => WithIndexed I (fun e => D e ∨ e = event))
        (.weaken ((hI D hD).handle hevent) (fun _ h => h) (fun _ w h => ⟨h.1.1, ?_⟩)
          (fun _ _ h => h.1.1)) (fun result => ?_)
      · rintro e (he | rfl)
        · exact h.1.2 e he
        · exact h.2.1
      · refine .bind (ih _ hD' (fun e he => hE e (List.mem_cons_of_mem _ he)))
          (fun _ => .pure fun w h => ⟨h.1, fun e he => h.2 e ?_⟩)
        simp only [List.mem_cons] at he
        tauto

/-- The last loop of the case batch only meets rows that were approved before it, and
`_set_case_index` leaves the review status alone. -/
theorem BatchInvariant.indexCases {ports : IndexPorts γ} {w₀ : World γ} (tasks : List CaseTask) :
    ∀ D : IndexJobMessage → Prop, (∀ e, D e → E e) → (∀ task ∈ tasks, E task.event ∧
        task.event.entityType = .diagnosisCase ∧ task.event.operation ≠ .tombstone ∧
        ∃ row, w₀.getCase task.event.entityId = some row ∧ row.reviewStatus = .approved) →
      Prog.Triple (fun w => WithIndexed I D w ∧ SameReview w₀ w) (indexCases ports tasks)
        (fun _ => WithIndexed I (fun e => D e ∨ e ∈ tasks.map (·.event))) (fun _ => I) := by
  induction tasks with
  | nil => exact fun D _ _ => .pure (fun w h => ⟨h.1.1, fun e he => h.1.2 e (by simpa using he)⟩)
  | cons task tasks ih =>
      intro D hD htasks
      obtain ⟨hE, htype, hop, row₀, hrow₀, hstatus₀⟩ := htasks task (List.mem_cons_self ..)
      have hD' : ∀ e, D e ∨ e = task.event → E e := by
        rintro e (he | rfl)
        · exact hD e he
        · exact hE
      have hproject : Prog.Keeps (fun w => WithIndexed I D w ∧ SameReview w₀ w)
          (projectCase ports task.event task.case) := by
        apply Prog.Keeps.of_snd
        rintro w ⟨hw, hsame⟩
        have hcore := SameCore.of_graph
          ((@keeps_projectCase _ w ports task.event task.case).snd (SameButGraph.refl w))
        exact ⟨(hI D hD).core hcore hw, fun k => by rw [hcore.getCase k]; exact hsame k⟩
      refine .keeps_bind hproject (fun _ _ h => h.1.1) (fun degraded => ?_)
      refine .bind (Q := fun _ w => WithIndexed I (fun e => D e ∨ e = task.event) w ∧ SameReview w₀ w)
        ?_ (fun _ => .bind (ih _ hD' fun t ht => htasks t (List.mem_cons_of_mem _ ht))
          (fun _ => .pure fun w h => ⟨h.1, fun e he => h.2 e ?_⟩))
      · rintro w ⟨hw, hsame⟩
        have hstatus := hsame task.event.entityId
        rw [hrow₀] at hstatus
        obtain ⟨row, hrow, hreview⟩ := Option.map_eq_some_iff.mp hstatus
        have haccepts : Accepts task.event row := by
          rw [Accepts, if_neg hop]
          exact hreview.trans hstatus₀
        have hnot : indexedStatus degraded ≠ .queued := by
          unfold indexedStatus
          split <;> simp
        have hset := Prog.Triple.ok ((hI D hD).setIndex (indexedStatus degraded) true
          (some task.text) hE htype haccepts (fun _ => hop) hnot) ⟨hw, hrow⟩ (Prog.write_apply _ _)
        refine ⟨⟨hset.1.1, ?_⟩, hsame.setCaseIndex _ _ _ _⟩
        rintro e (he | rfl)
        · exact hset.1.2 e he
        · exact hset.2.1
      · simp only [List.map_cons, List.mem_cons] at he
        tauto

theorem BatchInvariant.caseBatch {ports : IndexPorts γ} {events : List IndexJobMessage}
    (hE : ∀ e ∈ events, E e)
    (hbatch : ∀ e ∈ events, e.entityType = .diagnosisCase ∧ e.operation ≠ .tombstone) :
    Prog.Triple I (caseBatch ports events) (fun _ => WithIndexed I (· ∈ events)) (fun _ => I) := by
  have hnone : ∀ e : IndexJobMessage, (fun _ => False) e → E e := fun _ h => h.elim
  intro w hw
  unfold Indexing.caseBatch
  rw [Prog.bind_read]
  cases horder : orderCases w events with
  | error e => exact hw
  | ok tasks =>
      have happroved := orderCases_approved (fun e he => (hbatch e he).2) horder
      have hevents := orderCases_events horder
      rw [Prog.bind_of_ok (Prog.lift_apply _ w)]
      refine Prog.Triple.keeps_bind (P := fun s => WithIndexed I (fun _ => False) s ∧ SameReview w s)
        (.lift _) (fun _ _ h => h.1.1) (fun vectors => ?_) w ⟨⟨hw, fun _ h => h.elim⟩, fun _ => rfl⟩
      refine .keeps_bind (keeps_vectorUpsert fun _ h =>
        ⟨(hI _ hnone).core (.upsertCollection _ _) h.1, h.2⟩) (fun _ _ h => h.1.1) (fun _ => ?_)
      refine .weaken (hI.indexCases tasks _ hnone fun task ht => ?_) (fun _ h => h)
        (fun _ _ h => ⟨h.1, fun e he => h.2 e (Or.inr (hevents.symm ▸ he))⟩) (fun _ _ h => h)
      have hmem : task.event ∈ events := hevents ▸ List.mem_map_of_mem ht
      exact ⟨hE _ hmem, (hbatch _ hmem).1, (hbatch _ hmem).2, _, happroved task ht⟩

/-- **The rule for `handle_batch`.** When it returns, every message of the batch is handled. -/
theorem BatchInvariant.handleBatch {ports : IndexPorts γ} {events : List IndexJobMessage}
    (hE : ∀ e ∈ events, E e) :
    Prog.Triple I (handleBatch ports events) (fun _ => WithIndexed I (· ∈ events)) (fun _ => I) := by
  have hnone : ∀ e : IndexJobMessage, (fun _ => False) e → E e := fun _ h => h.elim
  have hstart : ∀ w, I w → WithIndexed I (fun _ => False) w := fun w h => ⟨h, fun _ h => h.elim⟩
  rcases handleBatch_cases ports events with ⟨htype, hbatch⟩ | ⟨htype, hbatch⟩ | hbatch
  · rw [hbatch]
    refine .weaken (keeps_ticketBatch (hI _ hnone).core) hstart (fun _ w h => ⟨h.1, fun e he => ?_⟩)
      (fun _ _ h => h.1)
    intro hcase
    rw [(batchType_eq_some htype e he).1] at hcase
    cases hcase
  · rw [hbatch]
    exact hI.caseBatch hE (fun e he => ⟨(batchType_eq_some htype e he).1,
      (batchType_eq_some htype e he).2⟩)
  · rw [hbatch]
    exact .weaken (hI.handleEach events _ hnone hE) hstart
      (fun _ w h => ⟨h.1, fun e he => h.2 e (Or.inr he)⟩) (fun _ _ h => h)

end

end EnergyAgent.Indexing
