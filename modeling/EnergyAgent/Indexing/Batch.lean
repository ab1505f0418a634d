import EnergyAgent.Indexing.HandlerRuntime

/-!
# `handle_batch`

`handle_batch` promises to work "without changing per-entity state semantics". Tickets and cases
have batch handlers of their own that repeat the single ones with the loops turned inside out:
first every check, then every embedding, then one vector write, then the database writes entity by
entity.

The comparison is with `handleEach`, the single handler on one message after the other. The two
agree on everything except one: `_case_batch` never queues the case that a revision replaces.

The `dict` of results is the list of its entries.
-/

namespace EnergyAgent.Indexing

open EnergyAgent.Lib EnergyAgent.Persistence

variable {γ : Type}

abbrev BatchResults := List (String × HandlerResult)

/-! ## The batch handlers -/

/-- `handle` on one message after the other. -/
def handleEach (ports : IndexPorts γ) : List IndexJobMessage → Handler γ BatchResults
  | [] => pure []
  | event :: events => do
      let result ← handle ports event
      let results ← handleEach ports events
      pure ((event.jobId, result) :: results)

/-- An entry of `ordered` in `_ticket_batch`. -/
structure TicketTask where
  event : IndexJobMessage
  ticket : MaintenanceTicketModel
  text : String

/-- The first loop of `_ticket_batch`, over the rows read before it. -/
def orderTickets (w : World γ) : List IndexJobMessage → Except HandlerError (List TicketTask)
  | [] => .ok []
  | event :: events => do
      let ticket ← checkTicket event (w.getTicket event.entityId)
      let tasks ← orderTickets w events
      pure (⟨event, ticket, ticketText ticket⟩ :: tasks)

/-- The `UPDATE`s of `_ticket_batch`, one transaction. -/
def indexTickets (tasks : List TicketTask) (w : World γ) : World γ :=
  tasks.foldl (fun w task => indexTicket task.event.entityId task.text w) w

/-- The rows `_ticket_batch` upserts. -/
def ticketVectors (tasks : List TicketTask) (vectors : List Embedding) : List VectorRow :=
  List.zipWith (fun task vector => ticketVector task.event task.ticket vector) tasks vectors

def ticketResults (tasks : List TicketTask) : BatchResults :=
  tasks.map (fun task => (task.event.jobId, ⟨.indexed, false⟩))

/-- `_ticket_batch`. -/
def ticketBatch (ports : IndexPorts γ) (events : List IndexJobMessage) :
    Handler γ BatchResults := do
  let ordered ← Prog.read (fun w => orderTickets w events)
  let tasks ← Prog.lift ordered
  let vectors ← Prog.lift (tasks.mapM (fun task => ports.embedText task.text))
  vectorUpsert ports .ticket (ticketVectors tasks vectors)
  Prog.write (indexTickets tasks)
  pure (ticketResults tasks)

/-- An entry of `ordered` in `_case_batch`. -/
structure CaseTask where
  event : IndexJobMessage
  case : DiagnosisCaseModel
  text : String

/-- The first loop of `_case_batch`, over the rows read before it. No event of it is a tombstone,
and then `checkCase` makes the two tests of the loop. -/
def orderCases (w : World γ) : List IndexJobMessage → Except HandlerError (List CaseTask)
  | [] => .ok []
  | event :: events => do
      let case ← checkCase event (w.getCase event.entityId)
      let text ← caseText case
      let tasks ← orderCases w events
      pure (⟨event, case, text⟩ :: tasks)

/-- The last loop of `_case_batch`. -/
def indexCases (ports : IndexPorts γ) : List CaseTask → Handler γ BatchResults
  | [] => pure []
  | task :: tasks => do
      let degraded ← projectCase ports task.event task.case
      Prog.write (setCaseIndex task.event.entityId (indexedStatus degraded) true (some task.text))
      let results ← indexCases ports tasks
      pure ((task.event.jobId, caseResult degraded) :: results)

/-- The rows `_case_batch` upserts. -/
def caseVectors (tasks : List CaseTask) (vectors : List Embedding) : List VectorRow :=
  List.zipWith (fun task vector => caseVector task.case vector) tasks vectors

/-- `_case_batch`. -/
def caseBatch (ports : IndexPorts γ) (events : List IndexJobMessage) :
    Handler γ BatchResults := do
  let ordered ← Prog.read (fun w => orderCases w events)
  let tasks ← Prog.lift ordered
  let vectors ← Prog.lift (tasks.mapM (fun task => ports.embedText task.text))
  vectorUpsert ports .case (caseVectors tasks vectors)
  indexCases ports tasks

/-- The entity type of a batch that one batch handler takes as a whole: all messages of one type
and of one operation, an upsert or a reindex. -/
def batchType : List IndexJobMessage → Option EntityType
  | [] => none
  | event :: events =>
      if events.all (fun e => e.entityType = event.entityType ∧ e.operation = event.operation) ∧
          (event.operation = .upsert ∨ event.operation = .reindex) then
        some event.entityType
      else none

/-- `handle_batch`. -/
def handleBatch (ports : IndexPorts γ) (events : List IndexJobMessage) : Handler γ BatchResults :=
  match batchType events with
  | some .maintenanceTicket => ticketBatch ports events
  | some .diagnosisCase => caseBatch ports events
  | _ => handleEach ports events

/-! ## One message at a time, taken apart -/

theorem vectorUpsert_eq_ok {ports : IndexPorts γ} {collection : Collection} {rows : List VectorRow}
    {w w' : World γ} {u : Unit} (h : vectorUpsert ports collection rows w = (.ok u, w')) :
    upsertOutcome ports collection rows = .applied ∧ w' = upsertCollection collection rows w := by
  unfold vectorUpsert callOutcome at h
  cases hout : upsertOutcome ports collection rows with
  | applied =>
      rw [hout] at h
      cases h
      exact ⟨rfl, rfl⟩
  | raised e =>
      rw [hout] at h
      cases h
  | appliedThenRaised e =>
      rw [hout] at h
      cases h

theorem vectorUpsert_of_applied {ports : IndexPorts γ} {collection : Collection}
    {rows : List VectorRow} (w : World γ) (h : upsertOutcome ports collection rows = .applied) :
    vectorUpsert ports collection rows w = (.ok (), upsertCollection collection rows w) := by
  unfold vectorUpsert callOutcome
  rw [h]
  rfl

theorem upsertOutcome_cons {ports : IndexPorts γ} {collection : Collection} {row : VectorRow}
    {rows : List VectorRow} (h : upsertOutcome ports collection [row] = .applied) :
    upsertOutcome ports collection (row :: rows) = upsertOutcome ports collection rows := by
  rw [upsertOutcome] at h ⊢
  cases hrow : ports.vectorUpsert collection row with
  | applied => rfl
  | raised e => simp [hrow] at h
  | appliedThenRaised e => simp [hrow] at h

theorem upsertCollection_cons (collection : Collection) (row : VectorRow) (rows : List VectorRow)
    (w : World γ) : upsertCollection collection (row :: rows) w =
      upsertCollection collection rows (upsertCollection collection [row] w) := by
  cases collection <;> rfl

/-- What a single upsert that succeeds has done, step by step. -/
structure UpsertRun (ports : IndexPorts γ) (event : IndexJobMessage) (case : DiagnosisCaseModel)
    (w w' : World γ) where
  text : String
  vector : Embedding
  degraded : Bool
  projected : World γ
  text_eq : caseText case = .ok text
  vector_eq : ports.embedText text = .ok vector
  applied : upsertOutcome ports .case [caseVector case vector] = .applied
  projected_eq : projectCase ports event case (upsertCollection .case [caseVector case vector] w) =
    (.ok degraded, projected)
  superseded_eq : supersedeOriginal ports event case
    (setCaseIndex event.entityId (indexedStatus degraded) true (some text) projected) =
      (.ok (), w')

theorem upsertCase_eq_ok {ports : IndexPorts γ} {event : IndexJobMessage}
    {case : DiagnosisCaseModel} {w w' : World γ} {result : HandlerResult}
    (h : upsertCase ports event case w = (.ok result, w')) :
    ∃ run : UpsertRun ports event case w w', result = caseResult run.degraded := by
  unfold upsertCase at h
  obtain ⟨text, htext, h₁⟩ := Prog.bind_lift_eq_ok h
  obtain ⟨vector, hvector, h₂⟩ := Prog.bind_lift_eq_ok h₁
  obtain ⟨_, _, hupsert, h₃⟩ := Prog.bind_eq_ok h₂
  obtain ⟨happlied, rfl⟩ := vectorUpsert_eq_ok hupsert
  obtain ⟨degraded, projected, hproject, h₄⟩ := Prog.bind_eq_ok h₃
  rw [Prog.bind_write] at h₄
  obtain ⟨_, _, hsupersede, h₅⟩ := Prog.bind_eq_ok h₄
  cases h₅
  exact ⟨⟨text, vector, degraded, projected, htext, hvector, happlied, hproject, hsupersede⟩, rfl⟩

/-- `handle` of a message that is not a tombstone, on a case. -/
theorem handle_case_eq_ok {ports : IndexPorts γ} {event : IndexJobMessage} {w w' : World γ}
    {result : HandlerResult} (htype : event.entityType = .diagnosisCase)
    (hop : event.operation ≠ .tombstone) (h : handle ports event w = (.ok result, w')) :
    ∃ case, checkCase event (w.getCase event.entityId) = .ok case ∧
      ∃ run : UpsertRun ports event case w w', result = caseResult run.degraded := by
  rw [handle_of_case htype] at h
  unfold handleCase at h
  rw [Prog.bind_read] at h
  obtain ⟨case, hcheck, hrest⟩ := Prog.bind_lift_eq_ok h
  rw [if_neg hop] at hrest
  exact ⟨case, hcheck, upsertCase_eq_ok hrest⟩

theorem handleEach_cons_eq_ok {ports : IndexPorts γ} {event : IndexJobMessage}
    {events : List IndexJobMessage} {w w' : World γ} {results : BatchResults}
    (h : handleEach ports (event :: events) w = (.ok results, w')) :
    ∃ result w₁ rest, handle ports event w = (.ok result, w₁) ∧
      handleEach ports events w₁ = (.ok rest, w') ∧ results = (event.jobId, result) :: rest := by
  unfold handleEach at h
  obtain ⟨result, w₁, hhead, h⟩ := Prog.bind_eq_ok h
  obtain ⟨rest, _, hrest, h⟩ := Prog.bind_eq_ok h
  cases h
  exact ⟨result, w₁, rest, hhead, hrest, rfl⟩

/-! ## Rows that an earlier message of the batch has already indexed

The batch reads every row before it writes any; the single handler reads each row after the
messages before it. The rows it finds may differ in the four columns that indexing writes, and those
do not matter to the rest: the stored embedding text is the text that would be embedded again. -/

/-- A row with the columns that `_set_case_index` writes blanked out. -/
def content (row : DiagnosisCaseModel) : DiagnosisCaseModel :=
  { row with embeddingText := none, indexStatus := .pending, indexErrorCode := none,
             isActive := false }

def SameContent (row row' : DiagnosisCaseModel) : Prop :=
  content row = content row' ∧ caseText row = caseText row'

def SameCases (w w' : World γ) : Prop :=
  ∀ caseId, Option.Rel SameContent (w.getCase caseId) (w'.getCase caseId)

theorem SameContent.refl (row : DiagnosisCaseModel) : SameContent row row := ⟨rfl, rfl⟩

theorem SameContent.reviewStatus {row row' : DiagnosisCaseModel} (h : SameContent row row') :
    row'.reviewStatus = row.reviewStatus :=
  (congrArg DiagnosisCaseModel.reviewStatus h.1).symm

theorem SameContent.supersededId {row row' : DiagnosisCaseModel} (h : SameContent row row') :
    row'.supersededId = row.supersededId :=
  (congrArg DiagnosisCaseModel.supersededId h.1).symm

theorem SameContent.caseVector {row row' : DiagnosisCaseModel} (h : SameContent row row')
    (vector : Embedding) : caseVector row' vector = caseVector row vector :=
  (congrArg (Indexing.caseVector · vector) h.1).symm

theorem projectCaseGraph_content (graph : GraphPort γ) (row : DiagnosisCaseModel) :
    projectCaseGraph graph (content row) = projectCaseGraph graph row := rfl

theorem SameContent.projectCase {row row' : DiagnosisCaseModel} (h : SameContent row row')
    (ports : IndexPorts γ) (event : IndexJobMessage) :
    projectCase ports event row' = projectCase ports event row := by
  have hgraph : ∀ graph : GraphPort γ, projectCaseGraph graph row' = projectCaseGraph graph row := by
    intro graph
    rw [← projectCaseGraph_content graph row', ← h.1, projectCaseGraph_content]
  unfold Indexing.projectCase
  simp only [hgraph]

theorem truthy_eq_some {o : Option String} {s : String} (h : Text.truthy o = some s) :
    o = some s ∧ s ≠ "" := by
  cases o with
  | none => cases h
  | some t =>
      by_cases ht : t = ""
      · simp [Text.truthy, ht] at h
      · simp only [Text.truthy, ht, if_false, Option.some.injEq] at h
        exact ⟨by rw [h], h ▸ ht⟩

/-- The text stored by an index run is the text the next one embeds. -/
theorem caseText_stored {row : DiagnosisCaseModel} {text : String} (h : caseText row = .ok text)
    (status : IndexStatus) (active : Bool) :
    caseText (indexRow status active (some text) row) = .ok text := by
  by_cases hempty : text = ""
  · -- an empty text is not kept by `or`, so it is built again from the same parts
    cases htruthy : Text.truthy row.embeddingText with
    | some t =>
        have htext : t = text := by simpa [caseText, htruthy] using h
        exact absurd (htext.trans hempty) (truthy_eq_some htruthy).2
    | none =>
        unfold caseText at h
        rw [htruthy] at h
        simpa only [caseText, indexRow, Option.orElse_some, Text.truthy, hempty, if_true] using h
  · simp [caseText, indexRow, Text.truthy, hempty]

theorem sameCases_setCaseIndex {w w' : World γ} (hcases : w'.cases = w.cases) {caseId text : String}
    {row : DiagnosisCaseModel} (hrow : w.getCase caseId = some row) (htext : caseText row = .ok text)
    (status : IndexStatus) : SameCases w (setCaseIndex caseId status true (some text) w') := by
  intro k
  unfold setCaseIndex
  by_cases hk : k = caseId
  · subst hk
    rw [World.getCase_updateCase_self (indexRow_caseId _ _ _), World.getCase_congr hcases, hrow]
    exact Option.Rel.some ⟨rfl, htext.trans (caseText_stored htext _ _).symm⟩
  · rw [World.getCase_updateCase_ne (indexRow_caseId _ _ _) hk, World.getCase_congr hcases]
    cases w.getCase k with
    | none => exact Option.Rel.none
    | some r => exact Option.Rel.some (SameContent.refl r)

/-- The tasks of a batch are its messages, each with a case that passed the check and the text of
that case. -/
theorem orderCases_checked {w : World γ} :
    ∀ {events : List IndexJobMessage} {tasks : List CaseTask}, orderCases w events = .ok tasks →
      ∀ task ∈ tasks, task.event ∈ events ∧
        checkCase task.event (w.getCase task.event.entityId) = .ok task.case ∧
        caseText task.case = .ok task.text
  | [], tasks, h, task, htask => by
    cases h
    cases htask
  | event :: events, tasks, h, task, htask => by
    unfold orderCases at h
    obtain ⟨case, hcheck, h₁⟩ := Prog.except_bind_eq_ok h
    obtain ⟨text, htext, h₂⟩ := Prog.except_bind_eq_ok h₁
    obtain ⟨rest, hrest, h₃⟩ := Prog.except_bind_eq_ok h₂
    cases h₃
    rcases List.mem_cons.mp htask with rfl | htask'
    · exact ⟨List.mem_cons_self .., hcheck, htext⟩
    · obtain ⟨hmem, hchecked⟩ := orderCases_checked hrest task htask'
      exact ⟨List.mem_cons_of_mem _ hmem, hchecked⟩

theorem orderCases_approved {w : World γ} {events : List IndexJobMessage} {tasks : List CaseTask}
    (hop : ∀ e ∈ events, e.operation ≠ .tombstone) (h : orderCases w events = .ok tasks) :
    ∀ task ∈ tasks, w.getCase task.event.entityId = some task.case ∧
      task.case.reviewStatus = .approved := by
  intro task htask
  obtain ⟨hmem, hcheck, -⟩ := orderCases_checked h task htask
  obtain ⟨hfound, _, hstatus⟩ := checkCase_status hcheck
  rw [if_neg (hop task.event hmem)] at hstatus
  exact ⟨hfound, hstatus⟩

/-- Two lists of tasks that only differ in such columns. -/
def SameTask (task task' : CaseTask) : Prop :=
  task.event = task'.event ∧ SameContent task.case task'.case ∧ task.text = task'.text

theorem checkCase_congr {event : IndexJobMessage} (hop : event.operation ≠ .tombstone)
    {found found' : Option DiagnosisCaseModel} (h : Option.Rel SameContent found found')
    {case : DiagnosisCaseModel} (hcheck : checkCase event found' = .ok case) :
    ∃ row, checkCase event found = .ok row ∧ SameContent row case := by
  cases h with
  | none => cases hcheck
  | @some row row' hrow =>
      have hversion : row'.caseVersion = row.caseVersion :=
        (congrArg DiagnosisCaseModel.caseVersion hrow.1).symm
      have hok : case = row' := by
        simp only [checkCase, hop, if_false] at hcheck
        split at hcheck
        · cases hcheck
        · split at hcheck
          · cases hcheck
          · cases hcheck
            rfl
      subst hok
      refine ⟨row, ?_, hrow⟩
      simp only [checkCase, hop, if_false, hversion, hrow.reviewStatus] at hcheck ⊢
      split at hcheck
      · cases hcheck
      · split at hcheck
        · cases hcheck
        · next h₁ h₂ => rw [if_neg h₁, if_neg h₂]

theorem orderCases_congr {w w' : World γ} (hsame : SameCases w w') :
    ∀ {events : List IndexJobMessage} {tasks' : List CaseTask},
      (∀ e ∈ events, e.operation ≠ .tombstone) → orderCases w' events = .ok tasks' →
      ∃ tasks, orderCases w events = .ok tasks ∧ List.Forall₂ SameTask tasks tasks'
  | [], _, _, h => by
    cases h
    exact ⟨[], rfl, List.Forall₂.nil⟩
  | event :: events, tasks', hop, h => by
    unfold orderCases at h
    obtain ⟨case, hcheck, h₁⟩ := Prog.except_bind_eq_ok h
    obtain ⟨text, htext, h₂⟩ := Prog.except_bind_eq_ok h₁
    obtain ⟨rest, hrest, h₃⟩ := Prog.except_bind_eq_ok h₂
    cases h₃
    obtain ⟨row, hrow, hcontent⟩ :=
      checkCase_congr (hop event (List.mem_cons_self ..)) (hsame event.entityId) hcheck
    obtain ⟨tasks, htasks, hall⟩ :=
      orderCases_congr hsame (fun e he => hop e (List.mem_cons_of_mem _ he)) hrest
    refine ⟨⟨event, row, text⟩ :: tasks, ?_, List.Forall₂.cons ⟨rfl, hcontent, rfl⟩ hall⟩
    unfold orderCases
    rw [hrow]
    show (caseText row >>= _) = _
    rw [hcontent.2, htext]
    show (orderCases w events >>= _) = _
    rw [htasks]
    rfl

theorem mapM_embed_congr {ports : IndexPorts γ} {tasks tasks' : List CaseTask}
    (h : List.Forall₂ SameTask tasks tasks') :
    tasks.mapM (fun task => ports.embedText task.text) =
      tasks'.mapM (fun task => ports.embedText task.text) := by
  induction h with
  | nil => rfl
  | cons hhead _ ih => rw [List.mapM_cons, List.mapM_cons, ih, hhead.2.2]

theorem caseVectors_congr {tasks tasks' : List CaseTask} (h : List.Forall₂ SameTask tasks tasks') :
    ∀ vectors, caseVectors tasks vectors = caseVectors tasks' vectors := by
  unfold caseVectors
  induction h with
  | nil => exact fun _ => rfl
  | cons hhead _ ih =>
      intro vectors
      cases vectors with
      | nil => rfl
      | cons v vs =>
          rw [List.zipWith_cons_cons, List.zipWith_cons_cons, ih vs, hhead.2.1.caseVector]

theorem indexCases_congr {ports : IndexPorts γ} {tasks tasks' : List CaseTask}
    (h : List.Forall₂ SameTask tasks tasks') : indexCases ports tasks = indexCases ports tasks' := by
  induction h with
  | nil => rfl
  | cons hhead _ ih =>
      unfold indexCases
      rw [ih, hhead.1, hhead.2.2, hhead.2.1.projectCase]

/-! ## The case batch against single handling -/

theorem commutes_projectCase {ports : IndexPorts γ} {event : IndexJobMessage}
    {case : DiagnosisCaseModel} (rows : List VectorRow) :
    Prog.Commutes (upsertCollection .case rows) (projectCase ports event case) := by
  unfold projectCase catchException
  refine Prog.Commutes.handle ?_ (fun e => ?_)
  · cases ports.graph with
    | none => exact Prog.Commutes.bind (Prog.Commutes.write fun _ => rfl) (fun _ => .pure _)
    | some graph =>
        refine Prog.Commutes.bind ?_ (fun _ =>
          Prog.Commutes.bind (Prog.Commutes.write fun _ => rfl) (fun _ => .pure _))
        unfold projectCaseGraph
        cases case.resolutionSteps with
        | none => exact Prog.Commutes.raise _
        | some steps => exact Prog.Commutes.bind Prog.Commutes.raiseIf (fun _ _ => rfl)
  · by_cases he : e = .cancelled
    · rw [if_pos he]
      exact Prog.Commutes.raise _
    · rw [if_neg he]
      exact Prog.Commutes.bind (Prog.Commutes.write fun _ => rfl) (fun _ => .pure _)

/-- The case that the message's case replaces is approved: the single handler would retire it. -/
def replacesApproved (w : World γ) (event : IndexJobMessage) : Bool :=
  match (w.getCase event.entityId).bind (·.supersededId) with
  | none => false
  | some old => (w.getCase old).any (fun row => row.reviewStatus = .approved)

theorem replacesApproved_congr {w w' : World γ} (h : SameCases w w') (event : IndexJobMessage) :
    replacesApproved w' event = replacesApproved w event := by
  have hid : ∀ k, (w'.getCase k).bind (·.supersededId) = (w.getCase k).bind (·.supersededId) := by
    intro k
    have hrel := h k
    generalize w.getCase k = found, w'.getCase k = found' at hrel ⊢
    cases hrel with
    | none => rfl
    | some hrow => exact hrow.supersededId
  have hstatus : ∀ k, (w'.getCase k).any (fun row => row.reviewStatus = .approved) =
      (w.getCase k).any (fun row => row.reviewStatus = .approved) := by
    intro k
    have hrel := h k
    generalize w.getCase k = found, w'.getCase k = found' at hrel ⊢
    cases hrel with
    | none => rfl
    | some hrow => simp only [Option.any_some, hrow.reviewStatus]
  unfold replacesApproved
  rw [hid]
  cases (w.getCase event.entityId).bind (·.supersededId) with
  | none => rfl
  | some old => exact hstatus old

/-- When the original is not approved, the last step of an upsert does nothing. -/
theorem supersedeOriginal_skips {ports : IndexPorts γ} {event : IndexJobMessage}
    {case : DiagnosisCaseModel} {w w' : World γ}
    (hold : ∀ old row, case.supersededId = some old → w.getCase old = some row →
      row.reviewStatus ≠ .approved)
    (h : supersedeOriginal ports event case w = (.ok (), w')) : w' = w := by
  unfold supersedeOriginal at h
  cases hid : case.supersededId with
  | none =>
      rw [hid] at h
      cases h
      rfl
  | some old =>
      rw [hid] at h
      unfold queueSupersededCase at h
      obtain ⟨_, s, hraise, hrest⟩ := Prog.bind_eq_ok h
      obtain ⟨rfl, -⟩ := Prog.raiseIf_cases hraise
      have hnoop : supersedeOld event (ports.newJobId event).val old s = .ok ((), s) := by
        unfold supersedeOld
        cases hget : s.getCase old with
        | none => rfl
        | some row => exact if_pos (hold old row hid hget)
      simp only [Prog.transaction, hnoop, Prod.mk.injEq, true_and] at hrest
      exact hrest.symm

/-- **The loops can be turned inside out.** If `handle` succeeds on each message in turn and retires
no case on the way, the case batch makes the same checks, embeds the same texts, upserts the same
rows and writes the same columns. -/
theorem caseBatch_of_handleEach {ports : IndexPorts γ} :
    ∀ {events : List IndexJobMessage} {w w' : World γ} {results : BatchResults},
      (∀ e ∈ events, e.entityType = .diagnosisCase ∧ e.operation ≠ .tombstone) →
      (∀ e ∈ events, replacesApproved w e = false) →
      handleEach ports events w = (.ok results, w') →
      ∃ tasks vectors, orderCases w events = .ok tasks ∧
        tasks.mapM (fun task => ports.embedText task.text) = .ok vectors ∧
        upsertOutcome ports .case (caseVectors tasks vectors) = .applied ∧
        indexCases ports tasks (upsertCollection .case (caseVectors tasks vectors) w) =
          (.ok results, w')
  | [], w, w', results, _, _, h => by
    cases h
    exact ⟨[], [], rfl, rfl, rfl, rfl⟩
  | event :: events, w, w', results, htype, hold, h => by
    obtain ⟨result, w₁, rest, hhead, htail, rfl⟩ := handleEach_cons_eq_ok h
    obtain ⟨hcase, hop⟩ := htype event (List.mem_cons_self ..)
    obtain ⟨case, hcheck, run, rfl⟩ := handle_case_eq_ok hcase hop hhead
    have hfound := checkCase_eq_ok hcheck
    obtain ⟨graph, projections, hprojected⟩ := projectCase_frame run.projected_eq
    have hcases : run.projected.cases = w.cases := by rw [hprojected]; rfl
    have hsame : SameCases w (setCaseIndex event.entityId (indexedStatus run.degraded) true
        (some run.text) run.projected) := sameCases_setCaseIndex hcases hfound run.text_eq _
    -- nothing is superseded, so the single run ends with `_set_case_index`
    have hw₁ : w₁ = setCaseIndex event.entityId (indexedStatus run.degraded) true (some run.text)
        run.projected := by
      refine supersedeOriginal_skips ?_ run.superseded_eq
      intro old row hid hget happroved
      have hnot := (replacesApproved_congr hsame event).trans (hold event (List.mem_cons_self ..))
      have hself := hsame event.entityId
      rw [hfound] at hself
      cases hself' : (setCaseIndex event.entityId (indexedStatus run.degraded) true (some run.text)
          run.projected).getCase event.entityId with
      | none =>
          rw [hself'] at hself
          cases hself
      | some row' =>
          rw [hself'] at hself
          cases hself with
          | some hrow =>
              simp [replacesApproved, hself', hrow.supersededId, hid, hget, happroved] at hnot
    rw [hw₁] at htail
    obtain ⟨tasks', vectors, htasks', hvectors', happlied', hindex'⟩ :=
      caseBatch_of_handleEach (fun e he => htype e (List.mem_cons_of_mem _ he))
        (fun e he => (replacesApproved_congr hsame e).trans (hold e (List.mem_cons_of_mem _ he)))
        htail
    obtain ⟨tasks, htasks, hall⟩ := orderCases_congr hsame
      (fun e he => (htype e (List.mem_cons_of_mem _ he)).2) htasks'
    rw [← mapM_embed_congr hall] at hvectors'
    rw [← caseVectors_congr hall] at happlied' hindex'
    rw [← indexCases_congr hall] at hindex'
    refine ⟨⟨event, case, run.text⟩ :: tasks, run.vector :: vectors, ?_, ?_, ?_, ?_⟩
    · unfold orderCases
      rw [hcheck]
      show (caseText case >>= _) = _
      rw [run.text_eq]
      show (orderCases w events >>= _) = _
      rw [htasks]
      rfl
    · rw [List.mapM_cons, run.vector_eq, hvectors']
      rfl
    · exact (upsertOutcome_cons run.applied).trans happlied'
    · -- the vector rows of the later tasks are written first now; `projectCase` does not see them
      show indexCases ports _ (upsertCollection .case
        (caseVector case run.vector :: caseVectors tasks vectors) w) = _
      rw [upsertCollection_cons]
      unfold indexCases
      rw [Prog.bind_apply, commutes_projectCase, run.projected_eq]
      exact Prog.bind_of_ok hindex'

/-! ## The ticket batch against single handling -/

/-- A ticket with the columns that indexing writes blanked out. -/
def ticketContent (ticket : MaintenanceTicketModel) : MaintenanceTicketModel :=
  { ticket with embeddingText := none, indexStatus := .pending, indexErrorCode := none,
                indexed := false }

def SameTicket (ticket ticket' : MaintenanceTicketModel) : Prop :=
  ticketContent ticket = ticketContent ticket'

def SameTickets (w w' : World γ) : Prop :=
  ∀ ticketId, Option.Rel SameTicket (w.getTicket ticketId) (w'.getTicket ticketId)

theorem SameTicket.ticketText {ticket ticket' : MaintenanceTicketModel}
    (h : SameTicket ticket ticket') : ticketText ticket = ticketText ticket' := by
  show Indexing.ticketText (ticketContent ticket) = Indexing.ticketText (ticketContent ticket')
  rw [show ticketContent ticket = ticketContent ticket' from h]

theorem SameTicket.ticketVector {ticket ticket' : MaintenanceTicketModel}
    (h : SameTicket ticket ticket') (event : IndexJobMessage) (vector : Embedding) :
    ticketVector event ticket vector = ticketVector event ticket' vector := by
  show Indexing.ticketVector event (ticketContent ticket) vector =
    Indexing.ticketVector event (ticketContent ticket') vector
  rw [show ticketContent ticket = ticketContent ticket' from h]

theorem indexTicketRow_ticketId (text : String) (ticket : MaintenanceTicketModel) :
    (indexTicketRow text ticket).ticketId = ticket.ticketId := by
  unfold indexTicketRow
  split <;> rfl

theorem sameTicket_indexTicketRow (text : String) (ticket : MaintenanceTicketModel) :
    SameTicket ticket (indexTicketRow text ticket) := by
  unfold indexTicketRow
  split <;> rfl

theorem sameTickets_indexTicket {w w' : World γ} (htickets : w'.tickets = w.tickets)
    (ticketId text : String) : SameTickets w (indexTicket ticketId text w') := by
  have hget : ∀ k, w'.getTicket k = w.getTicket k := by
    intro k
    unfold World.getTicket
    rw [htickets]
  intro k
  unfold indexTicket
  by_cases hk : k = ticketId
  · subst hk
    rw [World.getTicket_updateTicket_self (indexTicketRow_ticketId _), hget]
    cases w.getTicket k with
    | none => exact Option.Rel.none
    | some ticket => exact Option.Rel.some (sameTicket_indexTicketRow text ticket)
  · rw [World.getTicket_updateTicket_ne (indexTicketRow_ticketId _) hk, hget]
    cases w.getTicket k with
    | none => exact Option.Rel.none
    | some ticket => exact Option.Rel.some rfl

theorem checkTicket_eq_ok {event : IndexJobMessage} {found : Option MaintenanceTicketModel}
    {ticket : MaintenanceTicketModel} (h : checkTicket event found = .ok ticket) :
    found = some ticket := by
  cases found with
  | none => cases h
  | some row =>
      simp only [checkTicket] at h
      split at h
      · cases h
      · cases h
        rfl

theorem checkTicket_congr {event : IndexJobMessage} {found found' : Option MaintenanceTicketModel}
    (h : Option.Rel SameTicket found found') {ticket : MaintenanceTicketModel}
    (hcheck : checkTicket event found' = .ok ticket) :
    ∃ row, checkTicket event found = .ok row ∧ SameTicket row ticket := by
  cases h with
  | none => cases hcheck
  | @some row row' hrow =>
      obtain rfl : row' = ticket := Option.some.inj (checkTicket_eq_ok hcheck)
      have hgeneration : row'.indexGeneration = row.indexGeneration :=
        (congrArg MaintenanceTicketModel.indexGeneration hrow).symm
      have hverified : row'.isVerified = row.isVerified :=
        (congrArg MaintenanceTicketModel.isVerified hrow).symm
      refine ⟨row, ?_, hrow⟩
      simp only [checkTicket, hgeneration, hverified] at hcheck ⊢
      split at hcheck
      · cases hcheck
      · next hok => rw [if_neg hok]

def SameTicketTask (task task' : TicketTask) : Prop :=
  task.event = task'.event ∧ SameTicket task.ticket task'.ticket ∧ task.text = task'.text

theorem orderTickets_congr {w w' : World γ} (hsame : SameTickets w w') :
    ∀ {events : List IndexJobMessage} {tasks' : List TicketTask},
      orderTickets w' events = .ok tasks' →
      ∃ tasks, orderTickets w events = .ok tasks ∧ List.Forall₂ SameTicketTask tasks tasks'
  | [], _, h => by
    cases h
    exact ⟨[], rfl, List.Forall₂.nil⟩
  | event :: events, tasks', h => by
    unfold orderTickets at h
    obtain ⟨ticket, hcheck, h₁⟩ := Prog.except_bind_eq_ok h
    obtain ⟨rest, hrest, h₂⟩ := Prog.except_bind_eq_ok h₁
    cases h₂
    obtain ⟨row, hrow, hticket⟩ := checkTicket_congr (hsame event.entityId) hcheck
    obtain ⟨tasks, htasks, hall⟩ := orderTickets_congr hsame hrest
    refine ⟨⟨event, row, ticketText row⟩ :: tasks, ?_,
      List.Forall₂.cons ⟨rfl, hticket, hticket.ticketText⟩ hall⟩
    unfold orderTickets
    rw [hrow]
    show (orderTickets w events >>= _) = _
    rw [htasks]
    rfl

/-- What the rest of the batch does with its tasks is the same for both lists. -/
theorem ticketTasks_congr {ports : IndexPorts γ} {tasks tasks' : List TicketTask}
    (h : List.Forall₂ SameTicketTask tasks tasks') :
    tasks.mapM (fun task => ports.embedText task.text) =
        tasks'.mapM (fun task => ports.embedText task.text) ∧
      (∀ vectors, ticketVectors tasks vectors = ticketVectors tasks' vectors) ∧
      (∀ w : World γ, indexTickets tasks w = indexTickets tasks' w) ∧
      ticketResults tasks = ticketResults tasks' := by
  induction h with
  | nil => exact ⟨rfl, fun _ => rfl, fun _ => rfl, rfl⟩
  | cons hhead _ ih =>
      obtain ⟨hevent, hticket, htext⟩ := hhead
      obtain ⟨hembed, hvectors, hindex, hresults⟩ := ih
      refine ⟨?_, ?_, ?_, ?_⟩
      · rw [List.mapM_cons, List.mapM_cons, hembed, htext]
      · intro vectors
        cases vectors with
        | nil => rfl
        | cons v vs =>
            unfold ticketVectors at hvectors ⊢
            rw [List.zipWith_cons_cons, List.zipWith_cons_cons, hvectors vs, hevent,
              hticket.ticketVector]
      · intro w
        show indexTickets _ (indexTicket _ _ w) = indexTickets _ (indexTicket _ _ w)
        rw [hindex, hevent, htext]
      · show (_, _) :: ticketResults _ = (_, _) :: ticketResults _
        rw [hresults, hevent]

/-- The same for tickets, whose loops have no graph call in them. -/
theorem ticketBatch_of_handleEach {ports : IndexPorts γ} :
    ∀ {events : List IndexJobMessage} {w w' : World γ} {results : BatchResults},
      (∀ e ∈ events, e.entityType = .maintenanceTicket) →
      handleEach ports events w = (.ok results, w') →
      ∃ tasks vectors, orderTickets w events = .ok tasks ∧
        tasks.mapM (fun task => ports.embedText task.text) = .ok vectors ∧
        upsertOutcome ports .ticket (ticketVectors tasks vectors) = .applied ∧
        w' = indexTickets tasks (upsertCollection .ticket (ticketVectors tasks vectors) w) ∧
        results = ticketResults tasks
  | [], w, w', results, _, h => by
    cases h
    exact ⟨[], [], rfl, rfl, rfl, rfl, rfl⟩
  | event :: events, w, w', results, htype, h => by
    obtain ⟨result, w₁, rest, hhead, htail, rfl⟩ := handleEach_cons_eq_ok h
    rw [handle_of_ticket (htype event (List.mem_cons_self ..))] at hhead
    unfold handleTicket at hhead
    rw [Prog.bind_read] at hhead
    obtain ⟨ticket, hcheck, h₁⟩ := Prog.bind_lift_eq_ok hhead
    obtain ⟨vector, hvector, h₂⟩ := Prog.bind_lift_eq_ok h₁
    obtain ⟨_, _, hupsert, h₃⟩ := Prog.bind_eq_ok h₂
    obtain ⟨happlied, rfl⟩ := vectorUpsert_eq_ok hupsert
    rw [Prog.bind_write] at h₃
    cases h₃
    obtain ⟨tasks', vectors, htasks', hvectors', happlied', rfl, rfl⟩ :=
      ticketBatch_of_handleEach (fun e he => htype e (List.mem_cons_of_mem _ he)) htail
    have hsame : SameTickets w (indexTicket event.entityId (ticketText ticket)
        (upsertCollection .ticket [ticketVector event ticket vector] w)) :=
      sameTickets_indexTicket rfl _ _
    obtain ⟨tasks, htasks, hall⟩ := orderTickets_congr hsame htasks'
    obtain ⟨hembed, hrows, hindex, hresults⟩ := @ticketTasks_congr _ ports _ _ hall
    refine ⟨⟨event, ticket, ticketText ticket⟩ :: tasks, vector :: vectors, ?_, ?_, ?_, ?_, ?_⟩
    · unfold orderTickets
      rw [hcheck]
      show (orderTickets w events >>= _) = _
      rw [htasks]
      rfl
    · rw [List.mapM_cons, hvector, hembed, hvectors']
      rfl
    · rw [← hrows] at happlied'
      exact (upsertOutcome_cons happlied).trans happlied'
    · show indexTickets tasks' _ = indexTickets tasks (indexTicket _ _ (upsertCollection .ticket
        (ticketVector event ticket vector :: ticketVectors tasks vectors) w))
      rw [upsertCollection_cons, hindex, hrows]
      rfl
    · show (_, _) :: ticketResults tasks' = (_, _) :: ticketResults tasks
      rw [hresults]

/-! ## Where the two differ -/

/-- What handling does to the case rows, seen from one row: the original it names stays, and a case
that is not approved does not become so. -/
def CasesStep (w w' : World γ) : Prop :=
  ∀ caseId row, w.getCase caseId = some row → ∃ row', w'.getCase caseId = some row' ∧
    row'.supersededId = row.supersededId ∧
    (row.reviewStatus ≠ .approved → row'.reviewStatus ≠ .approved)

theorem CasesStep.of_cases {w w' : World γ} (h : w'.cases = w.cases) : CasesStep w w' :=
  fun _ row hrow => ⟨row, (World.getCase_congr h).trans hrow, rfl, id⟩

theorem CasesStep.trans {w₁ w₂ w₃ : World γ} (h₁ : CasesStep w₁ w₂) (h₂ : CasesStep w₂ w₃) :
    CasesStep w₁ w₃ := by
  intro caseId row hrow
  obtain ⟨row₂, hrow₂, hid₂, hstatus₂⟩ := h₁ caseId row hrow
  obtain ⟨row₃, hrow₃, hid₃, hstatus₃⟩ := h₂ caseId row₂ hrow₂
  exact ⟨row₃, hrow₃, hid₃.trans hid₂, fun h => hstatus₃ (hstatus₂ h)⟩

theorem CasesStep.updateCase {w : World γ} {caseId : String}
    {f : DiagnosisCaseModel → DiagnosisCaseModel} (hkey : ∀ r, (f r).caseId = r.caseId)
    (hid : ∀ r, (f r).supersededId = r.supersededId)
    (hstatus : ∀ r, r.reviewStatus ≠ .approved → (f r).reviewStatus ≠ .approved) :
    CasesStep w (w.updateCase caseId f) := by
  intro k row hrow
  by_cases hk : k = caseId
  · subst hk
    refine ⟨f row, ?_, hid row, hstatus row⟩
    rw [World.getCase_updateCase_self hkey, hrow]
    rfl
  · exact ⟨row, (World.getCase_updateCase_ne hkey hk).trans hrow, rfl, id⟩

theorem CasesStep.setCaseIndex {w : World γ} {caseId : String} {status : IndexStatus}
    {active : Bool} {embeddingText : Option String} :
    CasesStep w (setCaseIndex caseId status active embeddingText w) :=
  .updateCase (indexRow_caseId _ _ _) (fun _ => rfl) (fun _ h => h)

theorem CasesStep.supersedeOriginal {ports : IndexPorts γ} {event : IndexJobMessage}
    {case : DiagnosisCaseModel} {w w' : World γ}
    (h : supersedeOriginal ports event case w = (.ok (), w')) :
    CasesStep w w' ∧ ∀ old row, case.supersededId = some old → w.getCase old = some row →
      ∃ row', w'.getCase old = some row' ∧ row'.reviewStatus ≠ .approved := by
  unfold Indexing.supersedeOriginal at h
  cases hid : case.supersededId with
  | none =>
      rw [hid] at h
      cases h
      exact ⟨.of_cases rfl, by simp⟩
  | some old =>
      rw [hid] at h
      unfold queueSupersededCase at h
      obtain ⟨_, s, hraise, htx⟩ := Prog.bind_eq_ok h
      obtain ⟨rfl, -⟩ := Prog.raiseIf_cases hraise
      unfold Prog.transaction at htx
      split at htx
      · next u s' hold =>
          cases htx
          rcases supersedeOld_cases hold with ⟨rfl, hnot⟩ | ⟨row, rec, hrow, _, hadd⟩
          · refine ⟨.of_cases rfl, fun k row hk hget => ?_⟩
            cases hk
            exact ⟨row, hget, hnot row hget⟩
          · have hstep : CasesStep s (s.updateCase old supersededRow) :=
              .updateCase supersededRow_caseId (fun _ => rfl) (fun _ _ => by simp [supersededRow])
            refine ⟨hstep.trans (.of_cases (addJob_caseTable hadd)), fun k r hk _ => ?_⟩
            cases hk
            refine ⟨supersededRow row, ?_, by simp [supersededRow]⟩
            rw [World.getCase_congr (addJob_caseTable hadd),
              World.getCase_updateCase_self supersededRow_caseId, hrow]
            rfl
      · cases htx

/-- After a single upsert the original its case names is not approved any more. -/
theorem UpsertRun.retires {ports : IndexPorts γ} {event : IndexJobMessage}
    {case : DiagnosisCaseModel} {w w' : World γ} (run : UpsertRun ports event case w w') :
    CasesStep w w' ∧ ∀ old row, case.supersededId = some old → w.getCase old = some row →
      ∃ row', w'.getCase old = some row' ∧ row'.reviewStatus ≠ .approved := by
  obtain ⟨graph, projections, hprojected⟩ := projectCase_frame run.projected_eq
  have hset : CasesStep w (setCaseIndex event.entityId (indexedStatus run.degraded) true
      (some run.text) run.projected) := by
    refine CasesStep.trans (.of_cases ?_) .setCaseIndex
    rw [hprojected]
    rfl
  obtain ⟨hstep, hretired⟩ := CasesStep.supersedeOriginal run.superseded_eq
  refine ⟨hset.trans hstep, fun old row hid hrow => ?_⟩
  obtain ⟨row', hrow', _, _⟩ := hset old row hrow
  exact hretired old row' hid hrow'

theorem replacesApproved_eq_true {w : World γ} {event : IndexJobMessage}
    (h : replacesApproved w event = true) :
    ∃ case old row, w.getCase event.entityId = some case ∧ case.supersededId = some old ∧
      w.getCase old = some row ∧ row.reviewStatus = .approved := by
  unfold replacesApproved at h
  split at h
  · cases h
  · next old hold =>
      obtain ⟨case, hcase, hid⟩ := Option.bind_eq_some_iff.mp hold
      obtain ⟨row, hrow, happroved⟩ := (Option.any_eq_true _ _).mp h
      exact ⟨case, old, row, hcase, hid, hrow, by simpa using happroved⟩

theorem handleEach_casesStep {ports : IndexPorts γ} :
    ∀ {events : List IndexJobMessage} {w w' : World γ} {results : BatchResults},
      (∀ e ∈ events, e.entityType = .diagnosisCase ∧ e.operation ≠ .tombstone) →
      handleEach ports events w = (.ok results, w') → CasesStep w w'
  | [], _, _, _, _, h => by
    cases h
    exact .of_cases rfl
  | event :: events, w, w', _, htype, h => by
    obtain ⟨result, w₁, rest, hhead, htail, -⟩ := handleEach_cons_eq_ok h
    obtain ⟨hcase, hop⟩ := htype event (List.mem_cons_self ..)
    obtain ⟨case, _, run, _⟩ := handle_case_eq_ok hcase hop hhead
    exact run.retires.1.trans
      (handleEach_casesStep (fun e he => htype e (List.mem_cons_of_mem _ he)) htail)

/-- Single handling retires every original that a case of the list names. -/
theorem handleEach_retires {ports : IndexPorts γ} {event : IndexJobMessage} {old : String} :
    ∀ {events : List IndexJobMessage} {w w' : World γ} {results : BatchResults},
      (∀ e ∈ events, e.entityType = .diagnosisCase ∧ e.operation ≠ .tombstone) →
      event ∈ events →
      (∃ case, w.getCase event.entityId = some case ∧ case.supersededId = some old) →
      (∃ row, w.getCase old = some row) →
      handleEach ports events w = (.ok results, w') →
      ∃ row', w'.getCase old = some row' ∧ row'.reviewStatus ≠ .approved
  | [], _, _, _, _, hmem, _, _, _ => absurd hmem List.not_mem_nil
  | head :: events, w, w', _, htype, hmem, ⟨case, hcase, hid⟩, ⟨row, hrow⟩, h => by
    obtain ⟨result, w₁, rest, hhead, htail, -⟩ := handleEach_cons_eq_ok h
    obtain ⟨htype', hop⟩ := htype head (List.mem_cons_self ..)
    have htypes := fun e he => htype e (List.mem_cons_of_mem head he)
    obtain ⟨found, hcheck, run, _⟩ := handle_case_eq_ok htype' hop hhead
    obtain ⟨hstep, hretired⟩ := run.retires
    rcases List.mem_cons.mp hmem with rfl | hmem'
    · -- this message retires it, and the rest leaves it retired
      obtain rfl : found = case := Option.some.inj ((checkCase_eq_ok hcheck).symm.trans hcase)
      obtain ⟨row₁, hrow₁, hnot₁⟩ := hretired old row hid hrow
      obtain ⟨row₂, hrow₂, _, hkeep⟩ := handleEach_casesStep htypes htail old row₁ hrow₁
      exact ⟨row₂, hrow₂, hkeep hnot₁⟩
    · obtain ⟨case₁, hcase₁, hid₁, _⟩ := hstep event.entityId case hcase
      obtain ⟨row₁, hrow₁, _, _⟩ := hstep old row hrow
      exact handleEach_retires htypes hmem' ⟨case₁, hcase₁, hid₁.trans hid⟩ ⟨row₁, hrow₁⟩ htail

/-- Every case has the review status it has in `w`. -/
def SameReview (w w' : World γ) : Prop :=
  ∀ caseId, (w'.getCase caseId).map (·.reviewStatus) = (w.getCase caseId).map (·.reviewStatus)

theorem SameReview.setCaseIndex {w w' : World γ} (h : SameReview w w') (caseId : String)
    (status : IndexStatus) (active : Bool) (embeddingText : Option String) :
    SameReview w (setCaseIndex caseId status active embeddingText w') := by
  intro k
  rw [← h k]
  unfold Indexing.setCaseIndex
  by_cases hk : k = caseId
  · subst hk
    rw [World.getCase_updateCase_self (indexRow_caseId _ _ _), Option.map_map]
    rfl
  · rw [World.getCase_updateCase_ne (indexRow_caseId _ _ _) hk]

theorem keeps_indexCases {ports : IndexPorts γ} {w : World γ} (tasks : List CaseTask) :
    Prog.Keeps (SameReview w) (indexCases ports tasks) := by
  induction tasks with
  | nil => exact .pure _
  | cons task tasks ih =>
      have hproject : Prog.Keeps (SameReview w) (projectCase ports task.event task.case) := by
        apply Prog.Keeps.of_snd
        intro s hs k
        obtain ⟨graph, projections, hframe⟩ :=
          keeps_projectCase.of_eq (Prod.eta (projectCase ports task.event task.case s)).symm
            (SameButGraph.refl s)
        rw [hframe]
        exact hs k
      refine .bind hproject (fun degraded => ?_)
      exact .bind (.write fun s hs => hs.setCaseIndex _ _ _ _) (fun _ =>
        .bind ih (fun _ => .pure _))

/-- The case batch never touches a review status. -/
theorem keeps_caseBatch {ports : IndexPorts γ} {w : World γ} (events : List IndexJobMessage) :
    Prog.Keeps (SameReview w) (caseBatch ports events) := by
  unfold caseBatch
  refine .bind (.read _) (fun ordered => .bind (.lift _) (fun tasks => .bind (.lift _) (fun _ => ?_)))
  exact .bind (keeps_vectorUpsert fun _ h => h) (fun _ => keeps_indexCases tasks)

/-! ## The comparison -/

/-- The same rows in every table, and the same vectors. -/
structure SameRows (w w' : World γ) : Prop where
  cases : w.cases = w'.cases
  caseEvents : w.caseEvents = w'.caseEvents
  jobs : w.jobs = w'.jobs
  outbox : w.outbox = w'.outbox
  tickets : w.tickets = w'.tickets
  documents : w.documents = w'.documents
  chunks : w.chunks = w'.chunks
  projections : w.projections = w'.projections
  vectors : w.vectors = w'.vectors

theorem SameRows.refl (w : World γ) : SameRows w w :=
  ⟨rfl, rfl, rfl, rfl, rfl, rfl, rfl, rfl, rfl⟩

theorem batchType_eq_some {events : List IndexJobMessage} {t : EntityType}
    (h : batchType events = some t) :
    ∀ e ∈ events, e.entityType = t ∧ e.operation ≠ .tombstone := by
  cases events with
  | nil => cases h
  | cons event events =>
      rw [batchType] at h
      split at h
      · next hall =>
          cases h
          obtain ⟨hsame, hop⟩ := hall
          have hevent : event.operation ≠ .tombstone := by
            rcases hop with hop | hop <;> simp [hop]
          intro e he
          rcases List.mem_cons.mp he with rfl | he'
          · exact ⟨rfl, hevent⟩
          · have := List.all_eq_true.mp hsame e he'
            simp only [decide_eq_true_eq] at this
            exact ⟨this.1, this.2 ▸ hevent⟩
      · cases h

/-- Which handler `handle_batch` calls. -/
theorem handleBatch_cases (ports : IndexPorts γ) (events : List IndexJobMessage) :
    (batchType events = some .maintenanceTicket ∧
      handleBatch ports events = ticketBatch ports events) ∨
    (batchType events = some .diagnosisCase ∧
      handleBatch ports events = caseBatch ports events) ∨
    handleBatch ports events = handleEach ports events := by
  unfold handleBatch
  split
  · next htype => exact Or.inl ⟨htype, rfl⟩
  · next htype => exact Or.inr (Or.inl ⟨htype, rfl⟩)
  · exact Or.inr (Or.inr rfl)

theorem caseBatch_eq_of_handleEach {ports : IndexPorts γ} {events : List IndexJobMessage}
    {w w' : World γ} {results : BatchResults}
    (htype : ∀ e ∈ events, e.entityType = .diagnosisCase ∧ e.operation ≠ .tombstone)
    (hold : ∀ e ∈ events, replacesApproved w e = false)
    (h : handleEach ports events w = (.ok results, w')) :
    caseBatch ports events w = (.ok results, w') := by
  obtain ⟨tasks, vectors, htasks, hvectors, happlied, hindex⟩ :=
    caseBatch_of_handleEach htype hold h
  unfold caseBatch
  rw [Prog.bind_read, htasks, Prog.bind_of_ok (Prog.lift_apply _ w), hvectors,
    Prog.bind_of_ok (Prog.lift_apply _ w), Prog.bind_of_ok (vectorUpsert_of_applied w happlied)]
  exact hindex

theorem ticketBatch_eq_of_handleEach {ports : IndexPorts γ} {events : List IndexJobMessage}
    {w w' : World γ} {results : BatchResults}
    (htype : ∀ e ∈ events, e.entityType = .maintenanceTicket)
    (h : handleEach ports events w = (.ok results, w')) :
    ticketBatch ports events w = (.ok results, w') := by
  obtain ⟨tasks, vectors, htasks, hvectors, happlied, rfl, rfl⟩ :=
    ticketBatch_of_handleEach htype h
  unfold ticketBatch
  rw [Prog.bind_read, htasks, Prog.bind_of_ok (Prog.lift_apply _ w), hvectors,
    Prog.bind_of_ok (Prog.lift_apply _ w), Prog.bind_of_ok (vectorUpsert_of_applied w happlied)]
  rfl

/-- **When batch handling refines single handling.** Let `handle` succeed on every message of the
list in turn. Then `handle_batch` returns the same results and leaves the same rows and vectors
exactly when the list is not a batch of case upserts (or reindexes) with a revision in it whose
original is still approved: there the batch leaves the original approved and queues nothing. -/
theorem handleBatch_agrees_iff {ports : IndexPorts γ} {events : List IndexJobMessage}
    {w w' : World γ} {results : BatchResults}
    (h : handleEach ports events w = (.ok results, w')) :
    (∃ w'', handleBatch ports events w = (.ok results, w'') ∧ SameRows w'' w') ↔
      ¬ (batchType events = some .diagnosisCase ∧ ∃ e ∈ events, replacesApproved w e = true) := by
  constructor
  · rintro ⟨w'', hbatch, hrows⟩ ⟨htype, event, hmem, hreplaces⟩
    obtain ⟨case, old, row, hcase, hid, hrow, happroved⟩ := replacesApproved_eq_true hreplaces
    obtain ⟨row', hrow', hnot⟩ :=
      handleEach_retires (batchType_eq_some htype) hmem ⟨case, hcase, hid⟩ ⟨row, hrow⟩ h
    rw [show handleBatch ports events = caseBatch ports events by unfold handleBatch; rw [htype]]
      at hbatch
    have hreview := (keeps_caseBatch events).of_eq hbatch (fun _ => rfl) old
    rw [World.getCase_congr hrows.cases, hrow', hrow] at hreview
    exact hnot ((Option.some.inj hreview).trans happroved)
  · intro hnot
    refine ⟨w', ?_, SameRows.refl w'⟩
    rcases handleBatch_cases ports events with ⟨htype, hbatch⟩ | ⟨htype, hbatch⟩ | hbatch
    · rw [hbatch]
      exact ticketBatch_eq_of_handleEach (fun e he => (batchType_eq_some htype e he).1) h
    · rw [hbatch]
      refine caseBatch_eq_of_handleEach (batchType_eq_some htype) (fun e he => ?_) h
      have hfalse : ¬ replacesApproved w e = true := fun he' => hnot ⟨htype, e, he, he'⟩
      simpa using hfalse
    · rw [hbatch]
      exact h

/-! ### A batch that loses a supersession -/

/-- Providers that always answer, and no graph. -/
def quietPorts : IndexPorts Unit where
  embed := fun _ => .ok []
  vectorUpsert := fun _ _ => .applied
  vectorDelete := fun _ => .applied
  graph := none
  repository := true
  newJobId := fun event => ⟨"tombstone-" ++ event.jobId, by simp [String.append_eq_empty_iff]⟩

/-- An approved case that is not indexed yet. -/
def approvedCase (caseId : String) (version : Nat) (supersedes : Option String) :
    DiagnosisCaseModel where
  caseId := caseId
  sourceSessionId := "session"
  sourceRunId := "run"
  sourceReviewId := "review"
  sourceTicketId := none
  deviceType := some "inverter"
  deviceModel := none
  manufacturer := none
  alarmName := some "over temperature"
  symptomSummary := none
  timeseriesFeatures := none
  rootCause := "blocked fan"
  resolutionSteps := some ["clean the fan"]
  safetyNotes := some []
  evidenceRefs := some ["manual:1"]
  reviewStatus := .approved
  reviewer := some "reviewer"
  reviewComment := none
  caseVersion := version
  embeddingText := none
  indexStatus := .queued
  indexErrorCode := none
  isActive := false
  supersedesCaseId := supersedes
  createdBy := "engineer"

/-- The message that asks to index a case. -/
def upsertMessage (jobId caseId version : String) : IndexJobMessage where
  jobId := jobId
  entityType := .diagnosisCase
  entityId := caseId
  entityVersion := version
  operation := .upsert
  traceId := "trace"
  correlationId := "session"
  causationId := "review"

/-- The approved `case-1` and its approved revision `case-2`. -/
def revisedWorld : World Unit :=
  { World.empty () with
    cases := [approvedCase "case-1" 1 none, approvedCase "case-2" 2 (some "case-1")] }

/-- On the message of a revision, `handle` retires the original and queues its tombstone;
`handle_batch` does neither. -/
theorem handleBatch_loses_supersession :
    ∃ results w', handleEach quietPorts [upsertMessage "job-2" "case-2" "2"] revisedWorld =
        (.ok results, w') ∧
      ¬ ∃ w'', handleBatch quietPorts [upsertMessage "job-2" "case-2" "2"] revisedWorld =
        (.ok results, w'') ∧ SameRows w'' w' := by
  refine ⟨_, _, rfl, ?_⟩
  rintro ⟨w'', hbatch, hrows⟩
  have hjobs : w''.jobs = [] := (congrArg (fun r => r.2.jobs) hbatch).symm.trans rfl
  have hqueued := hrows.jobs
  rw [hjobs] at hqueued
  exact absurd hqueued (by decide)

theorem handleBatch_agrees_without_revision :
    ∃ w'', handleBatch quietPorts [upsertMessage "job-1" "case-1" "1"] revisedWorld =
        (.ok [("job-1", caseResult true)], w'') ∧
      SameRows w'' (handleEach quietPorts [upsertMessage "job-1" "case-1" "1"] revisedWorld).2 :=
  (handleBatch_agrees_iff rfl).mpr (by decide)

end EnergyAgent.Indexing
