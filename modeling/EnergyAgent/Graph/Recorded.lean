import EnergyAgent.Graph.Projections
import EnergyAgent.Indexing.HandlerRules
import EnergyAgent.Lib.Transition

/-!
# Recorded graph projections

`graph_projection` says what became of the graph part of an index message. `_case` and `_case_batch`
write `PROJECTED` when `project_case` has not raised; but where no template has an alarm that fits, the
query removes the old relations of the case and puts nothing in their place. As long as every message
that gets as far as the graph finds an alarm, both statuses are true in every state.
-/

namespace EnergyAgent.Graph

open EnergyAgent.Lib EnergyAgent.Persistence EnergyAgent.Indexing

/-! ## The handlers with a graph that works -/

abbrev GraphWorld := World KnowledgeGraph

/-- A provider whose queries succeed. -/
def neo4j (db : Database) : GraphPort KnowledgeGraph where
  projectCase projection g := (.ok (), projectCase db projection g)
  tombstoneCase caseId g := (.ok (), tombstoneCase caseId g)

def withGraph (db : Database) (ports : IndexPorts KnowledgeGraph) : IndexPorts KnowledgeGraph :=
  { ports with graph := some (neo4j db) }

/-- The arguments of the call that `_project_case_graph` makes, when it makes one. -/
def graphArguments (case : DiagnosisCaseModel) : Option CaseProjection :=
  match case.resolutionSteps with
  | none => none
  | some steps =>
      let deviceType := Text.strip (case.deviceType.getD "")
      let alarmName := Text.strip (case.alarmName.getD "")
      let action := resolutionAction steps
      if deviceType = "" ∨ alarmName = "" ∨ action = "" then none
      else
        some
          { caseId := case.caseId
            caseVersion := case.caseVersion
            deviceType := deviceType
            alarmName := alarmName
            faultCause := case.rootCause
            resolutionAction := action }

section graph

variable {db : Database} {ports : IndexPorts KnowledgeGraph} {event : IndexJobMessage}
  {case : DiagnosisCaseModel} {p : CaseProjection}

theorem graphArguments_eq_some (h : graphArguments case = some p) :
    p.caseId = case.caseId ∧ p.faultCause = case.rootCause := by
  unfold graphArguments at h
  split at h
  · cases h
  · dsimp only at h
    split at h
    · cases h
    · cases h
      exact ⟨rfl, rfl⟩

theorem projectCaseGraph_of_some (h : graphArguments case = some p) (w : GraphWorld) :
    projectCaseGraph (neo4j db) case w = (.ok (), { w with graph := projectCase db p w.graph }) := by
  unfold graphArguments at h
  unfold projectCaseGraph
  cases hsteps : case.resolutionSteps with
  | none =>
      rw [hsteps] at h
      cases h
  | some steps =>
      simp only [hsteps] at h
      split at h
      · cases h
      · next hfields =>
          cases h
          dsimp only
          rw [Prog.bind_of_ok (Prog.raiseIf_of_not hfields _ _)]
          rfl

theorem projectCaseGraph_of_none (h : graphArguments case = none) (w : GraphWorld) :
    ∃ e, e ≠ .cancelled ∧ projectCaseGraph (neo4j db) case w = (.error e, w) := by
  unfold graphArguments at h
  unfold projectCaseGraph
  cases hsteps : case.resolutionSteps with
  | none => exact ⟨.uncoded "TypeError", by simp [HandlerError.uncoded], rfl⟩
  | some steps =>
      simp only [hsteps] at h
      split at h
      · next hfields =>
          refine ⟨.uncoded "ValueError", by simp [HandlerError.uncoded], ?_⟩
          exact Prog.bind_of_error (if_pos hfields)
      · cases h

theorem catchException_of_ok {α : Type} {x h : Handler KnowledgeGraph α} {w w' : GraphWorld} {a : α}
    (hx : x w = (.ok a, w')) : catchException x h w = (.ok a, w') := by
  unfold catchException Prog.handle
  rw [hx]

theorem catchException_of_error {α : Type} {x h : Handler KnowledgeGraph α} {w w' : GraphWorld}
    {e : HandlerError} (hx : x w = (.error e, w')) (he : e ≠ .cancelled) :
    catchException x h w = h w' := by
  unfold catchException Prog.handle
  rw [hx]
  simp only [if_neg he]

/-- A call to the graph is taken for a projection. -/
theorem projectCase_of_arguments (h : graphArguments case = some p) (w : GraphWorld) :
    Indexing.projectCase (withGraph db ports) event case w = (.ok false,
      projection event .projected none { w with graph := projectCase db p w.graph }) := by
  apply catchException_of_ok
  exact Prog.bind_of_ok (projectCaseGraph_of_some h w)

/-- Without the fields it needs, the graph is not called. -/
theorem projectCase_of_no_arguments (h : graphArguments case = none) (w : GraphWorld) :
    Indexing.projectCase (withGraph db ports) event case w = (.ok true,
      projection event .degraded (some "GRAPH_PROJECTION_FAILED") w) := by
  obtain ⟨e, he, hraised⟩ := @projectCaseGraph_of_none db case h w
  exact catchException_of_error (Prog.bind_of_error hraised) he

theorem unprojectCase_eq (w : GraphWorld) :
    unprojectCase (withGraph db ports) event case w = (.ok false, projection event .tombstoned none
      { w with graph := tombstoneCase case.caseId w.graph }) := rfl

end graph

/-! ## What the rows say -/

/-- The row of `graph_projection` for a version of a case. -/
def projectionRow (w : GraphWorld) (caseId version : String) : Option GraphProjectionModel :=
  Table.get GraphProjectionModel.key w.projections (.diagnosisCase, caseId, version)

/-- **Recorded projections are true.** -/
structure RecordsTrue (w : GraphWorld) : Prop where
  projected : ∀ caseId version row, projectionRow w caseId version = some row →
    row.status = .projected → ∃ case, w.getCase caseId = some case ∧
      toString case.caseVersion = version ∧ Shown w.graph caseId case.rootCause
  tombstoned : ∀ caseId version row, projectionRow w caseId version = some row →
    row.status = .tombstoned → Absent w.graph caseId

/-- The case has been approved, and perhaps withdrawn again. -/
def Reviewed (case : DiagnosisCaseModel) : Prop :=
  case.reviewStatus = .approved ∨ case.reviewStatus.withdrawn = true

instance (case : DiagnosisCaseModel) : Decidable (Reviewed case) :=
  inferInstanceAs (Decidable (_ ∨ _))

/-- The same version of the same case, which is still a reviewed one. -/
def Preserves (case case' : DiagnosisCaseModel) : Prop :=
  Reviewed case' ∧ case'.rootCause = case.rootCause ∧ case'.caseVersion = case.caseVersion

instance (case case' : DiagnosisCaseModel) : Decidable (Preserves case case') :=
  inferInstanceAs (Decidable (_ ∧ _))

/-- Reviewed cases stay what they are. -/
def CasesPreserved (w w' : GraphWorld) : Prop :=
  ∀ caseId case, w.getCase caseId = some case → Reviewed case →
    ∃ case', w'.getCase caseId = some case' ∧ Preserves case case'

/-- The rows are true, and each is about the one version that its case has. -/
structure Recorded (w : GraphWorld) : Prop where
  owned : WellOwned w.graph
  rows : ∀ caseId version row, projectionRow w caseId version = some row →
    ∃ case, w.getCase caseId = some case ∧ Reviewed case ∧ toString case.caseVersion = version ∧
      (row.status = .projected → Shown w.graph caseId case.rootCause) ∧
      (row.status = .tombstoned → Absent w.graph caseId)

theorem Recorded.true {w : GraphWorld} (h : Recorded w) : RecordsTrue w := by
  constructor
  · intro caseId version row hrow hstatus
    obtain ⟨case, hcase, -, hversion, hshown, -⟩ := h.rows caseId version row hrow
    exact ⟨case, hcase, hversion, hshown hstatus⟩
  · intro caseId version row hrow hstatus
    obtain ⟨case, -, -, -, -, habsent⟩ := h.rows caseId version row hrow
    exact habsent hstatus

/-- Whatever leaves the graph, the rows and the reviewed cases alone. -/
theorem Recorded.frame {w w' : GraphWorld} (h : Recorded w) (hgraph : w'.graph = w.graph)
    (hrows : w'.projections = w.projections) (hcases : CasesPreserved w w') : Recorded w' := by
  refine ⟨hgraph ▸ h.owned, fun caseId version row hrow => ?_⟩
  have hrow' : projectionRow w caseId version = some row := by
    unfold projectionRow at hrow ⊢
    rwa [hrows] at hrow
  obtain ⟨case, hcase, hreviewed, hversion, hshown, habsent⟩ := h.rows caseId version row hrow'
  obtain ⟨case', hcase', hreviewed', hcause, hsame⟩ := hcases caseId case hcase hreviewed
  rw [hgraph]
  refine ⟨case', hcase', hreviewed', by rw [hsame, hversion], fun hstatus => ?_, habsent⟩
  rw [hcause]
  exact hshown hstatus

/-- The message is about a version of a case that is there. -/
structure About (event : IndexJobMessage) (case : DiagnosisCaseModel) (w : GraphWorld) : Prop where
  type : event.entityType = .diagnosisCase
  found : ∃ row, w.getCase event.entityId = some row ∧ Preserves case row
  version : toString case.caseVersion = event.entityVersion
  id : case.caseId = event.entityId

/-- The row of a message is written with a change of the graph that only concerns its case. -/
theorem Recorded.projection {w : GraphWorld} {event : IndexJobMessage} {case : DiagnosisCaseModel}
    (h : Recorded w) (habout : About event case w) {g : KnowledgeGraph} (hg : WellOwned g)
    {status : GraphProjectionStatus} {code : Option String}
    (hothers : ∀ caseId, caseId ≠ event.entityId →
      (∀ cause, Shown w.graph caseId cause → Shown g caseId cause) ∧
      (Absent w.graph caseId → Absent g caseId))
    (hshown : status = .projected → Shown g event.entityId case.rootCause)
    (habsent : status = .tombstoned → Absent g event.entityId) :
    Recorded (projection event status code { w with graph := g }) := by
  refine ⟨hg, fun caseId version row hrow => ?_⟩
  let new : GraphProjectionModel :=
    { entityType := event.entityType
      entityId := event.entityId
      entityVersion := event.entityVersion
      status := status
      lastErrorCode := code
      projected := status = .projected ∨ status = .tombstoned }
  have hwritten : projectionRow (Indexing.projection event status code { w with graph := g })
      caseId version = Table.get GraphProjectionModel.key
        (Table.upsert GraphProjectionModel.key w.projections new) (.diagnosisCase, caseId, version) :=
    rfl
  have hkey : GraphProjectionModel.key new = (.diagnosisCase, event.entityId, event.entityVersion) := by
    show (event.entityType, _, _) = _
    rw [habout.type]
  rw [hwritten] at hrow
  by_cases hsame : (EntityType.diagnosisCase, caseId, version) = GraphProjectionModel.key new
  · rw [hsame, Table.get_upsert_self, Option.some.injEq] at hrow
    rw [hkey] at hsame
    cases hsame
    subst hrow
    obtain ⟨found, hfound, hreviewed, hcause, hversion⟩ := habout.found
    refine ⟨found, hfound, hreviewed, by rw [hversion, habout.version], fun hstatus => ?_, habsent⟩
    rw [hcause]
    exact hshown hstatus
  · rw [Table.get_upsert_ne _ hsame] at hrow
    obtain ⟨old, hold, hreviewed, hversion, hshown', habsent'⟩ := h.rows caseId version row hrow
    have hne : caseId ≠ event.entityId := by
      -- a case has one version, and so one row
      rintro rfl
      obtain ⟨found, hfound, -, -, hfoundVersion⟩ := habout.found
      rw [hfound, Option.some.injEq] at hold
      subst hold
      apply hsame
      rw [hkey, ← hversion, hfoundVersion, habout.version]
    obtain ⟨hkeep, hgone⟩ := hothers caseId hne
    exact ⟨old, hold, hreviewed, hversion, fun hstatus => hkeep _ (hshown' hstatus),
      fun hstatus => hgone (habsent' hstatus)⟩

/-! ## The writes of a handler -/

theorem Preserves.trans {case case' case'' : DiagnosisCaseModel} (h : Preserves case case')
    (h' : Preserves case' case'') : Preserves case case'' :=
  ⟨h'.1, h'.2.1.trans h.2.1, h'.2.2.trans h.2.2⟩

theorem CasesPreserved.of_cases {w w' : GraphWorld} (h : w'.cases = w.cases) : CasesPreserved w w' :=
  fun _ case hcase hreviewed => ⟨case, (World.getCase_congr h).trans hcase, hreviewed, rfl, rfl⟩

theorem CasesPreserved.updateCase {w : GraphWorld} {caseId : String}
    {f : DiagnosisCaseModel → DiagnosisCaseModel} (hkey : ∀ row, (f row).caseId = row.caseId)
    (hf : ∀ row, Reviewed row → Preserves row (f row)) : CasesPreserved w (w.updateCase caseId f) := by
  intro k row hrow hreviewed
  by_cases hk : k = caseId
  · subst hk
    refine ⟨f row, ?_, hf row hreviewed⟩
    rw [World.getCase_updateCase_self hkey, hrow]
    rfl
  · exact ⟨row, (World.getCase_updateCase_ne hkey hk).trans hrow, hreviewed, rfl, rfl⟩

theorem CasesPreserved.setCaseIndex {w : GraphWorld} {caseId : String} {status : IndexStatus}
    {active : Bool} {text : Option String} :
    CasesPreserved w (setCaseIndex caseId status active text w) :=
  .updateCase (indexRow_caseId _ _ _) (fun _ h => ⟨h, rfl, rfl⟩)

theorem Recorded.setCaseIndex {w : GraphWorld} (h : Recorded w) {caseId : String} {status : IndexStatus}
    {active : Bool} {text : Option String} : Recorded (setCaseIndex caseId status active text w) :=
  h.frame rfl rfl .setCaseIndex

theorem Recorded.supersedeOld {w w' : GraphWorld} (h : Recorded w) {event : IndexJobMessage}
    {jobId old : String} (hdone : supersedeOld event jobId old w = .ok ((), w')) : Recorded w' := by
  rcases supersedeOld_cases hdone with ⟨rfl, -⟩ | ⟨row, rec, -, -, hadd⟩
  · exact h
  · have hpreserved : CasesPreserved w (w.updateCase old supersededRow) :=
      .updateCase supersededRow_caseId fun _ _ => ⟨Or.inr rfl, rfl, rfl⟩
    have hqueued : Recorded (w.updateCase old supersededRow) := h.frame rfl rfl hpreserved
    rcases addJob_cases hadd with ⟨-, rfl⟩ | ⟨-, -, -, rfl⟩
    · exact hqueued
    · exact hqueued.frame rfl rfl (.of_cases rfl)

theorem About.preserved {event : IndexJobMessage} {case : DiagnosisCaseModel} {w w' : GraphWorld}
    (h : About event case w) (hcases : CasesPreserved w w') : About event case w' := by
  obtain ⟨row, hrow, hsame⟩ := h.found
  obtain ⟨row', hrow', hsame'⟩ := hcases _ row hrow hsame.1
  exact ⟨h.type, ⟨row', hrow', hsame.trans hsame'⟩, h.version, h.id⟩

/-- A case that passes the check is what the message is about. -/
theorem about_of_checkCase {event : IndexJobMessage} {case : DiagnosisCaseModel} {w : GraphWorld}
    (htype : event.entityType = .diagnosisCase)
    (h : checkCase event (w.getCase event.entityId) = .ok case) : About event case w := by
  obtain ⟨hfound, hversion, hstatus⟩ := checkCase_status h
  refine ⟨htype, ⟨case, hfound, ?_, rfl, rfl⟩, hversion, (Table.get_eq_some hfound).2⟩
  split at hstatus
  · exact Or.inr hstatus.1
  · exact Or.inl hstatus

/-- The call for the case, if there is one, finds an alarm. -/
def Finds (db : Database) (case : DiagnosisCaseModel) (g : KnowledgeGraph) : Prop :=
  ∀ p ∈ graphArguments case, alarmRows db p.deviceType p.alarmName g ≠ []

section step

variable {db : Database} {ports : IndexPorts KnowledgeGraph} {event : IndexJobMessage}
  {case : DiagnosisCaseModel} {w : GraphWorld}

/-- **A projection that finds an alarm is recorded truly.** -/
theorem Recorded.project (h : Recorded w) (habout : About event case w)
    (hfinds : Finds db case w.graph) :
    Recorded (Indexing.projectCase (withGraph db ports) event case w).2 := by
  cases hargs : graphArguments case with
  | none =>
      rw [projectCase_of_no_arguments hargs]
      exact h.projection habout h.owned (fun _ _ => ⟨fun _ => id, id⟩) (by simp) (by simp)
  | some p =>
      obtain ⟨hid, hcause⟩ := graphArguments_eq_some hargs
      rw [habout.id] at hid
      rw [projectCase_of_arguments hargs]
      apply h.projection habout (h.owned.projectCase p)
      · intro caseId hne
        rw [← hid] at hne
        exact ⟨fun cause hshown => hshown.projectCase h.owned hne,
          fun habsent => habsent.projectCase h.owned hne⟩
      · intro _
        rw [← hid, ← hcause]
        exact shown_projectCase h.owned (hfinds p hargs)
      · simp

theorem Recorded.unproject (h : Recorded w) (habout : About event case w) :
    Recorded (unprojectCase (withGraph db ports) event case w).2 := by
  rw [unprojectCase_eq, habout.id]
  apply h.projection habout (h.owned.tombstoneCase event.entityId)
  · intro caseId hne
    exact ⟨fun cause hshown => hshown.tombstoneCase h.owned hne,
      fun habsent => habsent.tombstoneCase h.owned hne⟩
  · simp
  · intro _
    exact absent_tombstoneCase h.owned

/-- The projection of a case does not change what alarms are found. -/
theorem Finds.project {other : DiagnosisCaseModel} (hg : WellOwned w.graph)
    (h : Finds db other w.graph) :
    Finds db other (Indexing.projectCase (withGraph db ports) event case w).2.graph := by
  cases hargs : graphArguments case with
  | none =>
      rw [projectCase_of_no_arguments hargs]
      exact h
  | some p =>
      rw [projectCase_of_arguments hargs]
      intro q hq
      show alarmRows db q.deviceType q.alarmName (projectCase db p w.graph) ≠ []
      rw [alarmRows_projectCase hg]
      exact h q hq

/-- Nothing of a handler is lost between the vector store and the database. -/
theorem recorded_vectorUpsert {α : Type} {rows : List VectorRow} {rest : Unit → Handler KnowledgeGraph α}
    (h : Recorded w) (hrest : upsertOutcome ports .case rows = .applied →
      Recorded (rest () (upsertCollection .case rows w)).2) :
    Recorded ((vectorUpsert ports .case rows >>= rest) w).2 := by
  have happlied : Recorded (upsertCollection .case rows w) := h.frame rfl rfl (.of_cases rfl)
  unfold vectorUpsert callOutcome
  cases houtcome : upsertOutcome ports .case rows with
  | applied => exact hrest houtcome
  | raised e => exact h
  | appliedThenRaised e => exact happlied

end step

/-! ## The handlers -/

section handlers

variable {db : Database} {ports : IndexPorts KnowledgeGraph} {event : IndexJobMessage}
  {case : DiagnosisCaseModel} {tasks : List CaseTask}

theorem About.graphOnly {w w' : GraphWorld} (h : About event case w) (hsame : SameButGraph w w') :
    About event case w' := by
  obtain ⟨graph, projections, rfl⟩ := hsame
  exact h.preserved (.of_cases rfl)

/-- `_case` on a tombstone. -/
theorem keeps_tombstoneCase : Prog.Keeps (fun w : GraphWorld => Recorded w ∧ About event case w)
    (Indexing.tombstoneCase (withGraph db ports) event case) := by
  unfold Indexing.tombstoneCase vectorDelete
  refine .bind (keeps_callOutcome ?_ _) fun _ => .bind (.of_snd ?_) fun degraded => ?_
  · rintro w ⟨h, habout⟩
    exact ⟨h.frame rfl rfl (.of_cases rfl), habout.preserved (.of_cases rfl)⟩
  · rintro w ⟨h, habout⟩
    exact ⟨h.unproject habout, habout.graphOnly (keeps_unprojectCase.snd (SameButGraph.refl w))⟩
  · refine .bind (.write ?_) fun _ => .pure _
    rintro w ⟨h, habout⟩
    exact ⟨h.setCaseIndex, habout.preserved .setCaseIndex⟩

/-- The cases of the tasks can be projected. -/
structure Ready (db : Database) (tasks : List CaseTask) (w : GraphWorld) : Prop where
  recorded : Recorded w
  about : ∀ task ∈ tasks, About task.event task.case w
  finds : ∀ task ∈ tasks, Finds db task.case w.graph

theorem Ready.frame {w w' : GraphWorld} (h : Ready db tasks w) (hgraph : w'.graph = w.graph)
    (hrows : w'.projections = w.projections) (hcases : CasesPreserved w w') : Ready db tasks w' := by
  refine ⟨h.recorded.frame hgraph hrows hcases, fun task ht => (h.about task ht).preserved hcases, ?_⟩
  rw [hgraph]
  exact h.finds

theorem keeps_project {task : CaseTask} (ht : task ∈ tasks) :
    Prog.Keeps (Ready db tasks) (Indexing.projectCase (withGraph db ports) task.event task.case) := by
  apply Prog.Keeps.of_snd
  intro w h
  refine ⟨h.recorded.project (h.about task ht) (h.finds task ht), fun other hother => ?_,
    fun other hother => (h.finds other hother).project h.recorded.owned⟩
  exact (h.about other hother).graphOnly (keeps_projectCase.snd (SameButGraph.refl w))

theorem keeps_setCaseIndex {caseId : String} {status : IndexStatus} {active : Bool}
    {text : Option String} : Prog.Keeps (Ready db tasks)
      (Prog.write (setCaseIndex caseId status active text) : Handler KnowledgeGraph Unit) :=
  .write fun _ h => h.frame rfl rfl .setCaseIndex

theorem keeps_indexCases_ready {rest : List CaseTask} (hrest : ∀ task ∈ rest, task ∈ tasks) :
    Prog.Keeps (Ready db tasks) (indexCases (withGraph db ports) rest) := by
  induction rest with
  | nil => exact .pure _
  | cons task rest ih =>
      refine .bind (keeps_project (hrest task (List.mem_cons_self ..))) fun degraded => ?_
      refine .bind keeps_setCaseIndex fun _ => .bind (ih ?_) fun _ => .pure _
      exact fun other hother => hrest other (List.mem_cons_of_mem _ hother)

theorem keeps_supersedeOriginal : Prog.Keeps (fun w : GraphWorld => Recorded w)
    (supersedeOriginal ports event case) := by
  unfold supersedeOriginal
  cases case.supersededId with
  | none => exact .pure _
  | some old =>
      refine .bind .raiseIf fun _ => .transaction ?_
      rintro w ⟨⟩ w' h hdone
      exact h.supersedeOld hdone

/-- The tasks of the messages, when the handler gets as far as the graph. -/
def projectingTasks (ports : IndexPorts KnowledgeGraph) (w : GraphWorld)
    (events : List IndexJobMessage) : List CaseTask :=
  match orderCases w events with
  | .error _ => []
  | .ok tasks =>
      match tasks.mapM fun task => ports.embedText task.text with
      | .error _ => []
      | .ok vectors =>
          if upsertOutcome ports .case (caseVectors tasks vectors) = .applied then tasks else []

theorem projectingTasks_eq {w : GraphWorld} {events : List IndexJobMessage}
    {vectors : List Embedding} (htasks : orderCases w events = .ok tasks)
    (hvectors : (tasks.mapM fun task => ports.embedText task.text) = .ok vectors)
    (happlied : upsertOutcome ports .case (caseVectors tasks vectors) = .applied) :
    projectingTasks ports w events = tasks := by
  unfold projectingTasks
  simp only [htasks, hvectors, happlied, if_true]

/-- `_case_batch`. -/
theorem recorded_caseBatch {w : GraphWorld} {events : List IndexJobMessage} (h : Recorded w)
    (htype : ∀ e ∈ events, e.entityType = .diagnosisCase)
    (hfinds : ∀ task ∈ projectingTasks (withGraph db ports) w events, Finds db task.case w.graph) :
    Recorded (caseBatch (withGraph db ports) events w).2 := by
  unfold caseBatch
  rw [Prog.bind_read]
  cases htasks : orderCases w events with
  | error e => exact h
  | ok tasks =>
      rw [Prog.bind_of_ok (Prog.lift_apply _ w)]
      cases hvectors : tasks.mapM fun task => (withGraph db ports).embedText task.text with
      | error e => exact h
      | ok vectors =>
          rw [Prog.bind_of_ok (Prog.lift_apply _ w)]
          apply recorded_vectorUpsert h
          intro happlied
          rw [projectingTasks_eq htasks hvectors happlied] at hfinds
          have hready : Ready db tasks (upsertCollection .case (caseVectors tasks vectors) w) := by
            refine Ready.frame ⟨h, fun task ht => ?_, hfinds⟩ rfl rfl (.of_cases rfl)
            obtain ⟨hmem, hcheck, -⟩ := orderCases_checked htasks task ht
            exact about_of_checkCase (htype _ hmem) hcheck
          exact ((keeps_indexCases_ready fun _ ht => ht).snd hready).recorded

/-- What `_case` does behind the vector store. -/
theorem recorded_projectUpserted {text : String} : Prog.Triple (Ready db [⟨event, case, text⟩]) (do
    let degraded ← Indexing.projectCase (withGraph db ports) event case
    Prog.write (setCaseIndex event.entityId (indexedStatus degraded) true (some text))
    supersedeOriginal (withGraph db ports) event case
    pure (caseResult degraded)) (fun _ => Recorded) (fun _ => Recorded) := by
  have hrecorded : ∀ w : GraphWorld, Ready db [⟨event, case, text⟩] w → Recorded w :=
    fun _ h => h.recorded
  refine .keeps_bind (keeps_project (List.mem_singleton_self _)) (fun _ => hrecorded) fun degraded => ?_
  refine .keeps_bind keeps_setCaseIndex (fun _ => hrecorded) fun _ => ?_
  refine .bind (.weaken keeps_supersedeOriginal hrecorded (fun _ _ h => h) fun _ _ h => h) fun _ => ?_
  exact .pure fun _ h => h

/-- `_case` on any other operation. -/
theorem recorded_upsertCase {w : GraphWorld} (h : Recorded w) (habout : About event case w)
    (hcheck : checkCase event (w.getCase event.entityId) = .ok case)
    (hfinds : ∀ task ∈ projectingTasks (withGraph db ports) w [event], Finds db task.case w.graph) :
    Recorded (upsertCase (withGraph db ports) event case w).2 := by
  unfold upsertCase
  cases htext : caseText case with
  | error e => exact h
  | ok text =>
      rw [Prog.bind_of_ok (Prog.lift_apply _ w)]
      cases hvector : (withGraph db ports).embedText text with
      | error e => exact h
      | ok vector =>
          rw [Prog.bind_of_ok (Prog.lift_apply _ w)]
          apply recorded_vectorUpsert h
          intro happlied
          have htasks : orderCases w [event] = .ok [⟨event, case, text⟩] := by
            simp only [orderCases, hcheck, htext, bind, Except.bind]
            rfl
          have hvectors : ([(⟨event, case, text⟩ : CaseTask)].mapM
              fun task => (withGraph db ports).embedText task.text) = .ok [vector] := by
            rw [List.mapM_cons, hvector]
            rfl
          rw [projectingTasks_eq htasks hvectors happlied] at hfinds
          have hready : Ready db [⟨event, case, text⟩]
              (upsertCollection .case [caseVector case vector] w) := by
            refine Ready.frame ⟨h, fun task ht => ?_, hfinds⟩ rfl rfl (.of_cases rfl)
            rw [List.mem_singleton.mp ht]
            exact habout
          exact recorded_projectUpserted.snd hready

/-- `_case`. -/
theorem recorded_handleCase {w : GraphWorld} (h : Recorded w)
    (htype : event.entityType = .diagnosisCase)
    (hfinds : event.operation ≠ .tombstone →
      ∀ task ∈ projectingTasks (withGraph db ports) w [event], Finds db task.case w.graph) :
    Recorded (handleCase (withGraph db ports) event w).2 := by
  unfold handleCase
  rw [Prog.bind_read]
  cases hcheck : checkCase event (w.getCase event.entityId) with
  | error e => exact h
  | ok case =>
      have habout := about_of_checkCase htype hcheck
      rw [Prog.bind_of_ok (Prog.lift_apply _ w)]
      by_cases hop : event.operation = .tombstone
      · rw [if_pos hop]
        exact (keeps_tombstoneCase.snd ⟨h, habout⟩).1
      · rw [if_neg hop]
        exact recorded_upsertCase h habout hcheck (hfinds hop)

end handlers

/-! ## The system -/

/-- What happens to the graph and the rows. -/
inductive Move
  /-- `_case` handles a message. -/
  | case (ports : IndexPorts KnowledgeGraph) (event : IndexJobMessage)
  /-- `_case_batch` handles a batch. -/
  | batch (ports : IndexPorts KnowledgeGraph) (events : List IndexJobMessage)
  /-- A template is projected. -/
  | template (template : TemplateProjection)
  /-- Anything else that happens: the graph and the rows are left alone, and reviewed cases are
  what they were. -/
  | others (w : GraphWorld)

/-- What anything else leaves alone. -/
def Undisturbed (w w' : GraphWorld) : Prop :=
  w'.graph = w.graph ∧ w'.projections = w.projections ∧ ∀ case ∈ w.cases, Reviewed case →
    ∃ case' ∈ w'.getCase case.caseId, Preserves case case'

instance (w w' : GraphWorld) : Decidable (Undisturbed w w') :=
  inferInstanceAs (Decidable (_ ∧ _ ∧ ∀ case ∈ w.cases, Reviewed case →
    ∃ case' ∈ w'.getCase case.caseId, Preserves case case'))

/-- A step. A message that has been handled leaves its traces whether the handler returned or raised. -/
def projectingStep (db : Database) (w : GraphWorld) : Move → Option GraphWorld
  | .case ports event =>
      if event.entityType = .diagnosisCase then
        some (handleCase (withGraph db ports) event w).2
      else none
  | .batch ports events =>
      if batchType events = some .diagnosisCase then
        some (caseBatch (withGraph db ports) events w).2
      else none
  | .template template => some { w with graph := projectTemplate template w.graph }
  | .others w' => if Undisturbed w w' then some w' else none

/-- From an empty graph without rows. -/
def projecting (db : Database) : TransitionSystem GraphWorld Move where
  init w := w.graph = ⟨[], []⟩ ∧ w.projections = []
  step := projectingStep db

/-- Whatever a message projects finds an alarm. -/
def FindsAlarm (db : Database) (w : GraphWorld) : Move → Prop
  | .case ports event => event.operation ≠ .tombstone →
      ∀ task ∈ projectingTasks (withGraph db ports) w [event], Finds db task.case w.graph
  | .batch ports events =>
      ∀ task ∈ projectingTasks (withGraph db ports) w events, Finds db task.case w.graph
  | .template _ | .others _ => True

theorem recorded_init {db : Database} {w : GraphWorld} (h : (projecting db).init w) : Recorded w := by
  obtain ⟨hgraph, hrows⟩ := h
  constructor
  · intro r hr
    rw [hgraph] at hr
    cases hr
  · intro caseId version row hrow
    unfold projectionRow at hrow
    rw [hrows] at hrow
    cases hrow

theorem Recorded.template {w : GraphWorld} (h : Recorded w) (template : TemplateProjection) :
    Recorded { w with graph := projectTemplate template w.graph } := by
  refine ⟨h.owned.projectTemplate, fun caseId version row hrow => ?_⟩
  obtain ⟨case, hcase, hreviewed, hversion, hshown, habsent⟩ := h.rows caseId version row hrow
  exact ⟨case, hcase, hreviewed, hversion, fun hstatus => (hshown hstatus).projectTemplate,
    fun hstatus => (habsent hstatus).projectTemplate h.owned⟩

theorem casesPreserved_of_undisturbed {w w' : GraphWorld} (h : Undisturbed w w') :
    CasesPreserved w w' := by
  intro caseId case hcase hreviewed
  obtain ⟨hmem, rfl⟩ := Table.get_eq_some hcase
  exact h.2.2 case hmem hreviewed

/-- **The step lemma.** -/
theorem recorded_step {db : Database} {w w' : GraphWorld} {move : Move} (h : Recorded w)
    (hfinds : FindsAlarm db w move) (hstep : (projecting db).step w move = some w') : Recorded w' := by
  replace hstep : projectingStep db w move = some w' := hstep
  cases move with
  | case ports event =>
      simp only [projectingStep] at hstep
      split at hstep
      · next htype =>
          cases hstep
          exact recorded_handleCase h htype hfinds
      · cases hstep
  | batch ports events =>
      simp only [projectingStep] at hstep
      split at hstep
      · next htype =>
          cases hstep
          exact recorded_caseBatch h (fun e he => (batchType_eq_some htype e he).1) hfinds
      · cases hstep
  | template template =>
      cases hstep
      exact h.template template
  | others w'' =>
      simp only [projectingStep] at hstep
      split at hstep
      · next hsame =>
          cases hstep
          exact h.frame hsame.1 hsame.2.1 (casesPreserved_of_undisturbed hsame)
      · cases hstep

/-- **Recorded projections are true** in every state of every run whose messages find an alarm for
what they project. -/
theorem recorded_projections_true {db : Database} {w : GraphWorld}
    (h : (projecting db).ReachableVia (FindsAlarm db) w) : RecordsTrue w :=
  Recorded.true (h.invariant (fun _ => recorded_init) fun _ _ _ => recorded_step)

/-! ## A case without an alarm, and one with -/

/-- The services that always answer. -/
def answeringPorts : IndexPorts KnowledgeGraph where
  embed := quietPorts.embed
  vectorUpsert := quietPorts.vectorUpsert
  vectorDelete := quietPorts.vectorDelete
  graph := none
  repository := quietPorts.repository
  newJobId := quietPorts.newJobId

/-- An empty graph, and one approved case. -/
def caseWorld (case : DiagnosisCaseModel) : GraphWorld :=
  { World.empty ⟨[], []⟩ with cases := [case] }

/-- The message that asks to index it. -/
def indexCase : Move := .case answeringPorts (upsertMessage "job-1" "case-1" "1")

/-- **Recorded projections are not always true**: the one of a case for whose alarm there is no template
says `PROJECTED`, and the graph has no node of the case. -/
theorem projected_without_alarm :
    ¬ ∀ (db : Database) (w : GraphWorld), (projecting db).Reachable w → RecordsTrue w := by
  intro hall
  have hreached : (projecting sampleDatabase).Reachable
      (handleCase (withGraph sampleDatabase answeringPorts) (upsertMessage "job-1" "case-1" "1")
        (caseWorld (approvedCase "case-1" 1 none))).2 :=
    .step (a := indexCase) (.init ⟨rfl, rfl⟩) trivial rfl
  obtain ⟨case, -, -, hshown⟩ := (hall _ _ hreached).projected "case-1" "1" _ rfl rfl
  exact absurd hshown.case (by decide)

/-- A case about the fan, for which there is a template. -/
def fanCaseRow : DiagnosisCaseModel :=
  { approvedCase "case-1" 1 none with deviceType := some "PCS", alarmName := some "fan abnormal" }

instance (db : Database) (case : DiagnosisCaseModel) (g : KnowledgeGraph) :
    Decidable (Finds db case g) :=
  inferInstanceAs (Decidable (∀ p ∈ graphArguments case, alarmRows db p.deviceType p.alarmName g ≠ []))

instance (db : Database) (w : GraphWorld) : (move : Move) → Decidable (FindsAlarm db w move)
  | .case ports event => inferInstanceAs (Decidable (event.operation ≠ .tombstone →
      ∀ task ∈ projectingTasks (withGraph db ports) w [event], Finds db task.case w.graph))
  | .batch ports events => inferInstanceAs (Decidable
      (∀ task ∈ projectingTasks (withGraph db ports) w events, Finds db task.case w.graph))
  | .template _ | .others _ => isTrue trivial

/-- The case is projected, and the row says so. -/
theorem fan_case_recorded : ∃ w, (projecting sampleDatabase).runChecked
      (fun w move => FindsAlarm sampleDatabase w move) (caseWorld fanCaseRow)
      [.template fanTemplate, indexCase] = some w ∧
    (projectionRow w "case-1" "1").map (·.status) = some .projected ∧ RecordsTrue w := by
  refine ⟨_, rfl, by decide, ?_⟩
  have hinit : (projecting sampleDatabase).ReachableVia (FindsAlarm sampleDatabase)
      (caseWorld fanCaseRow) := .init ⟨rfl, rfl⟩
  apply @recorded_projections_true sampleDatabase
  exact hinit.of_runChecked (fun _ _ h => of_decide_eq_true h)
    (rfl : (projecting sampleDatabase).runChecked _ _ [.template fanTemplate, indexCase] = _)

end EnergyAgent.Graph
