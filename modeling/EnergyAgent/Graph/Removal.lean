import EnergyAgent.Graph.Neo4j

/-!
# Case knowledge is removable

Two runs side by side: one with the operations on some cases, one without them. `Erased` says what the
graphs of the two have in common, and every operation keeps it. The graph of the run without is the
other one less the relations of these cases; a tombstone leaves no relation of its case.
-/

namespace EnergyAgent.Graph

open EnergyAgent.Lib EnergyAgent.Indexing

section relations

variable {db : Database} {g : KnowledgeGraph} {projection : CaseProjection}

/-! ## What a query does to the relations -/

/-- A merge among relations of the case that are all of other kinds. -/
theorem mergeCase_append {base added : List Relation} (hg : g.relations = base ++ added)
    (set : RelationProperties → RelationProperties) (kind : RelationKind) (source target : Key)
    (hbase : ∀ r ∈ base, owner r ≠ some projection.caseId) (hadded : ∀ r ∈ added, r.kind ≠ kind) :
    (mergeCase projection set kind source target g).relations = base ++ (added ++
      [⟨kind, source, target, set { sourceType := .case, sourceId := projection.caseId }⟩]) := by
  unfold mergeCase
  rw [PropertyGraph.mergeRelation_relations, PropertyGraph.mergeInto_of_absent, hg,
    List.append_assoc]
  intro r hr
  rw [Bool.eq_false_iff]
  intro hfits
  simp only [PropertyGraph.Relation.fits, decide_eq_true_eq] at hfits
  obtain ⟨hkind, -, -, hsource, hid⟩ := hfits
  rw [hg] at hr
  rcases List.mem_append.mp hr with hold | hnew
  · apply hbase r hold
    unfold owner
    rw [if_pos hsource, hid]
  · exact hadded r hnew hkind

/-- The relations that `project_case` creates. -/
def caseRelations (projection : CaseProjection) (alarm : Key) (component : Option Key) :
    List Relation :=
  let device : Key := ⟨.deviceType, projection.deviceType⟩
  let fault : Key := ⟨.faultCause, projection.faultCause⟩
  let action : Key := ⟨.action, projection.resolutionAction⟩
  let properties : RelationProperties := { sourceType := .case, sourceId := projection.caseId }
  [⟨.confirms, ⟨.case, projection.caseId⟩, fault, setConfirms projection properties⟩,
    ⟨.hasAlarm, device, alarm, setActive projection properties⟩,
    ⟨.mayBeCausedBy, alarm, fault, setActive projection properties⟩,
    ⟨.mitigatedBy, fault, action, setActive projection properties⟩] ++
  component.toList.map fun c => ⟨.relatesTo, fault, c, setActive projection properties⟩

theorem owner_caseRelations {alarm : Key} {component : Option Key} {r : Relation}
    (hr : r ∈ caseRelations projection alarm component) : owner r = some projection.caseId := by
  simp only [caseRelations, List.cons_append, List.nil_append, List.mem_cons, List.mem_map] at hr
  rcases hr with rfl | rfl | rfl | rfl | ⟨c, -, rfl⟩ <;> rfl

theorem relations_linkCase {alarm : Key}
    (hg : ∀ r ∈ g.relations, owner r ≠ some projection.caseId) :
    (linkCase db projection alarm g).relations = g.relations ++ caseRelations projection alarm
      (db.component.pick (componentRows ⟨.faultCause, projection.faultCause⟩ g)) := by
  let device : Key := ⟨.deviceType, projection.deviceType⟩
  let fault : Key := ⟨.faultCause, projection.faultCause⟩
  let action : Key := ⟨.action, projection.resolutionAction⟩
  have hmerged : (mergeCaseNodes projection g).relations = g.relations ++ [] :=
    (List.append_nil _).symm
  have hconfirms := mergeCase_append hmerged (setConfirms projection) .confirms
    ⟨.case, projection.caseId⟩ fault hg (by simp)
  have halarm := mergeCase_append hconfirms (setActive projection) .hasAlarm device alarm hg (by simp)
  have hcause := mergeCase_append halarm (setActive projection) .mayBeCausedBy alarm fault hg (by simp)
  have haction := mergeCase_append hcause (setActive projection) .mitigatedBy fault action hg (by simp)
  have hrows : componentRows fault (mergeCaseNodes projection g) = componentRows fault g := rfl
  unfold linkCase
  simp only [hrows, fault]
  cases db.component.pick (componentRows ⟨.faultCause, projection.faultCause⟩ g) with
  | none => exact haction
  | some component =>
      exact mergeCase_append haction (setActive projection) .relatesTo fault component hg (by simp)

/-- What is left when the relations of the case are deleted. -/
theorem filter_ofCase (hg : WellOwned g) (caseId : String) :
    (g.relations.filter fun r => ¬ ofCase caseId r) =
      g.relations.filter fun r => owner r ≠ some caseId := by
  apply List.filter_congr
  intro r hr
  rw [decide_eq_decide, ofCase_iff (hg r hr)]

theorem alarmRows_congr {g' : KnowledgeGraph} {deviceType alarmName : String}
    {keep : Relation → Bool} (hrelations : g'.relations = g.relations.filter keep)
    (hkeep : ∀ r ∈ g.relations, owner r = none → keep r)
    (halarms : ∀ id, g'.node? ⟨.alarm, id⟩ = g.node? ⟨.alarm, id⟩) :
    alarmRows db deviceType alarmName g' = alarmRows db deviceType alarmName g := by
  unfold alarmRows
  rw [hrelations, filter_linksTemplate hkeep]
  congr 1
  apply List.filterMap_congr
  intro r hr
  have hlabel : r.target.label = .alarm := by
    have hlinks := (List.mem_filter.mp hr).2
    simp only [linksTemplate, decide_eq_true_eq] at hlinks
    exact hlinks.2.2.2
  have htarget : r.target = ⟨.alarm, r.target.id⟩ := by rw [← hlabel]
  rw [htarget]
  exact halarms _

theorem componentRows_congr {g' : KnowledgeGraph} {fault : Key} {keep : Relation → Bool}
    (hrelations : g'.relations = g.relations.filter keep)
    (hkeep : ∀ r ∈ g.relations, owner r = none → keep r) :
    componentRows fault g' = componentRows fault g := by
  unfold componentRows
  rw [hrelations, filter_linksTemplate hkeep]

/-- The relations that `project_case` leaves, by what it finds in `g`. -/
def newRelations (db : Database) (projection : CaseProjection) (g : KnowledgeGraph) : List Relation :=
  match db.alarm.pick (alarmRows db projection.deviceType projection.alarmName g) with
  | some alarm => caseRelations projection alarm.key
      (db.component.pick (componentRows ⟨.faultCause, projection.faultCause⟩ g))
  | none => []

theorem owner_newRelations {r : Relation} (hr : r ∈ newRelations db projection g) :
    owner r = some projection.caseId := by
  unfold newRelations at hr
  split at hr
  · exact owner_caseRelations hr
  · cases hr

theorem relations_clearCase (hg : WellOwned g) :
    (clearCase projection g).relations =
      g.relations.filter fun r => owner r ≠ some projection.caseId := by
  rw [← filter_ofCase hg]
  rfl

/-- The case's own relations are not what an alarm is found by. -/
theorem alarmRows_clearCase (hg : WellOwned g) (deviceType alarmName : String) :
    alarmRows db deviceType alarmName (clearCase projection g) =
      alarmRows db deviceType alarmName g := by
  apply alarmRows_congr (relations_clearCase hg)
  · intro r _ hnone
    simp [hnone]
  · intro id
    exact PropertyGraph.mergeNode_node?_ne (by simp)

theorem projectCase_of_some (hg : WellOwned g) {alarm : Node}
    (h : db.alarm.pick (alarmRows db projection.deviceType projection.alarmName g) = some alarm) :
    projectCase db projection g = linkCase db projection alarm.key (clearCase projection g) := by
  unfold projectCase
  rw [alarmRows_clearCase hg, h]

theorem projectCase_of_none (hg : WellOwned g)
    (h : db.alarm.pick (alarmRows db projection.deviceType projection.alarmName g) = none) :
    projectCase db projection g = clearCase projection g := by
  unfold projectCase
  rw [alarmRows_clearCase hg, h]

/-- **The relations behind `project_case`**: the case's own are replaced by the new ones. -/
theorem relations_projectCase (hg : WellOwned g) :
    (projectCase db projection g).relations =
      (g.relations.filter fun r => owner r ≠ some projection.caseId) ++
        newRelations db projection g := by
  have hkeep : ∀ r ∈ g.relations, owner r = none → decide (owner r ≠ some projection.caseId) := by
    intro r _ hnone
    simp [hnone]
  unfold newRelations
  cases halarm : db.alarm.pick (alarmRows db projection.deviceType projection.alarmName g) with
  | none =>
      rw [projectCase_of_none hg halarm, relations_clearCase hg]
      simp
  | some alarm =>
      rw [projectCase_of_some hg halarm, relations_linkCase, relations_clearCase hg,
        componentRows_congr (relations_clearCase hg) hkeep]
      intro r hr
      rw [relations_clearCase hg] at hr
      simpa using (List.mem_filter.mp hr).2

/-- **The relations behind `tombstone_case`**: the case's own are gone. The node of the case had no
others. -/
theorem relations_tombstoneCase (hg : WellOwned g) (caseId : String) :
    (tombstoneCase caseId g).relations = g.relations.filter fun r => owner r ≠ some caseId := by
  show ((g.relations.filter fun r => ¬ ofCase caseId r).filter
    fun r => ¬ r.touches ⟨.case, caseId⟩) = _
  rw [filter_ofCase hg, List.filter_eq_self]
  intro r hr
  obtain ⟨hmem, howner⟩ := List.mem_filter.mp hr
  have hr := hg r hmem
  simp only [PropertyGraph.Relation.touches, decide_eq_true_eq, not_or]
  constructor
  · intro hsource
    have hlabel : r.source.label = .case := by rw [hsource]
    have hown := hr.source hlabel
    rw [hsource] at hown
    simp [hown] at howner
  · intro htarget
    apply hr.target
    rw [htarget]

end relations

/-! ## Every relation has one owner -/

section owned

variable {db : Database} {g : KnowledgeGraph} {template : TemplateProjection}

theorem WellOwned.mergeNode (hg : WellOwned g) (key : Key) (new : NodeProperties)
    (set : NodeProperties → NodeProperties) : WellOwned (g.mergeNode key new set) := hg

theorem WellOwned.mergeTemplate (hg : WellOwned g) (kind : RelationKind) {source target : Key}
    (hsource : source.label ≠ .case) (htarget : target.label ≠ .case) :
    WellOwned (mergeTemplate template kind source target g) := by
  intro r hr
  rcases PropertyGraph.mem_mergeInto_id hr with hold | rfl
  · exact hg r hold
  · exact ⟨by simp, fun h => absurd h hsource, htarget⟩

theorem WellOwned.projectAction (hg : WellOwned g) (cause action : String) :
    WellOwned (projectAction template ⟨.faultCause, cause⟩ g action) :=
  (hg.mergeNode _ _ _).mergeTemplate _ (by simp) (by simp)

theorem WellOwned.projectRelation (hg : WellOwned g) (relation : TemplateRelation) :
    WellOwned (projectRelation template g relation) := by
  unfold Graph.projectRelation
  apply List.foldlRecOn
  · apply WellOwned.mergeTemplate _ _ (by simp) (by simp)
    apply WellOwned.mergeTemplate _ _ (by simp) (by simp)
    exact (hg.mergeNode _ _ _).mergeNode _ _ _
  · intro g hg action _
    exact hg.projectAction _ _

theorem WellOwned.projectTemplate (hg : WellOwned g) : WellOwned (projectTemplate template g) := by
  unfold Graph.projectTemplate
  apply List.foldlRecOn
  · apply WellOwned.mergeTemplate _ _ (by simp) (by simp)
    exact (hg.mergeNode _ _ _).mergeNode _ _ _
  · intro g hg relation _
    exact hg.projectRelation _

theorem alarm_of_pick {deviceType alarmName : String} {alarm : Node}
    (h : db.alarm.pick (alarmRows db deviceType alarmName g) = some alarm) :
    alarm.key.label = .alarm := by
  have hmem := (List.mem_filter.mp (db.alarm.mem h)).1
  obtain ⟨r, hr, hnode⟩ := List.mem_filterMap.mp hmem
  have hlinks := (List.mem_filter.mp hr).2
  simp only [linksTemplate, decide_eq_true_eq] at hlinks
  have hkey : alarm.key = r.target := by simpa using List.find?_some hnode
  rw [hkey]
  exact hlinks.2.2.2

theorem component_of_pick {fault component : Key}
    (h : db.component.pick (componentRows fault g) = some component) :
    component.label = .component := by
  obtain ⟨r, hr, rfl⟩ := List.mem_map.mp (db.component.mem h)
  have hlinks := (List.mem_filter.mp hr).2
  simp only [linksTemplate, decide_eq_true_eq] at hlinks
  exact hlinks.2.2.2

theorem owned_newRelations {projection : CaseProjection} {r : Relation}
    (hr : r ∈ newRelations db projection g) : Owned r := by
  unfold newRelations at hr
  split at hr
  · next alarm halarm =>
      have hlabel := alarm_of_pick halarm
      simp only [caseRelations, List.cons_append, List.nil_append, List.mem_cons, List.mem_map] at hr
      rcases hr with rfl | rfl | rfl | rfl | ⟨component, hcomponent, rfl⟩
      · exact ⟨by simp [setConfirms, owner, setActive], by simp [owner, setConfirms, setActive], by simp⟩
      · exact ⟨by simp [setActive], by simp, by simp [hlabel]⟩
      · exact ⟨by simp [setActive], by simp [hlabel], by simp⟩
      · exact ⟨by simp [setActive], by simp, by simp⟩
      · have hlabel := component_of_pick (Option.mem_toList.mp hcomponent)
        exact ⟨by simp [setActive], by simp, by simp [hlabel]⟩
  · cases hr

theorem WellOwned.projectCase (hg : WellOwned g) (projection : CaseProjection) :
    WellOwned (projectCase db projection g) := by
  intro r hr
  rw [relations_projectCase hg] at hr
  rcases List.mem_append.mp hr with hold | hnew
  · exact hg r (List.mem_filter.mp hold).1
  · exact owned_newRelations hnew

theorem WellOwned.tombstoneCase (hg : WellOwned g) (caseId : String) :
    WellOwned (tombstoneCase caseId g) := by
  intro r hr
  rw [relations_tombstoneCase hg] at hr
  exact hg r (List.mem_filter.mp hr).1

theorem WellOwned.apply (hg : WellOwned g) (op : Operation) : WellOwned (op.apply db g) := by
  cases op with
  | projectTemplate template => exact hg.projectTemplate
  | projectCase projection => exact hg.projectCase projection
  | tombstoneCase caseId => exact hg.tombstoneCase caseId

theorem wellOwned_run (operations : List Operation) : WellOwned (run db operations) := by
  unfold run
  apply List.foldlRecOn
  · intro r hr
    cases hr
  · intro g hg op _
    exact hg.apply op

end owned

/-! ## Two runs -/

/-- The relation comes from none of these cases. -/
def spared (erased : String → Bool) (r : Relation) : Bool := !(owner r).any erased

/-- `g'` is `g` without what comes from the erased cases. -/
structure Erased (erased : String → Bool) (g g' : KnowledgeGraph) : Prop where
  relations : g'.relations = g.relations.filter (spared erased)
  alarms : ∀ id, g'.node? ⟨.alarm, id⟩ = g.node? ⟨.alarm, id⟩

section erasure

variable {db : Database} {erased : String → Bool} {g g' : KnowledgeGraph}
  {template : TemplateProjection} {projection : CaseProjection}

theorem spared_of_owner_none {r : Relation} (h : owner r = none) : spared erased r := by
  simp [spared, h]

theorem Erased.mergeNode (h : Erased erased g g') (key : Key) (new : NodeProperties)
    (set : NodeProperties → NodeProperties) :
    Erased erased (g.mergeNode key new set) (g'.mergeNode key new set) := by
  refine ⟨h.relations, fun id => ?_⟩
  by_cases hkey : ⟨.alarm, id⟩ = key
  · subst hkey
    rw [PropertyGraph.mergeNode_node?_self, PropertyGraph.mergeNode_node?_self, h.alarms]
  · rw [PropertyGraph.mergeNode_node?_ne hkey, PropertyGraph.mergeNode_node?_ne hkey]
    exact h.alarms id

theorem Erased.mergeTemplate (h : Erased erased g g') (kind : RelationKind) (source target : Key) :
    Erased erased (mergeTemplate template kind source target g)
      (mergeTemplate template kind source target g') := by
  refine ⟨?_, h.alarms⟩
  show PropertyGraph.mergeInto _ _ _ _ _ _ g'.relations = List.filter _
    (PropertyGraph.mergeInto _ _ _ _ _ _ g.relations)
  rw [h.relations, PropertyGraph.filter_mergeInto]
  · intro r _ hfits
    simp only [PropertyGraph.Relation.fits, decide_eq_true_eq] at hfits
    exact spared_of_owner_none (owner_of_template hfits.2.2.2.1)
  · exact spared_of_owner_none (owner_of_template rfl)

theorem Erased.projectAction (h : Erased erased g g') (fault : Key) (action : String) :
    Erased erased (projectAction template fault g action) (projectAction template fault g' action) :=
  (h.mergeNode _ _ _).mergeTemplate _ _ _

theorem Erased.projectRelation (h : Erased erased g g') (relation : TemplateRelation) :
    Erased erased (projectRelation template g relation) (projectRelation template g' relation) := by
  unfold Graph.projectRelation
  apply List.foldl_rel
  · apply Erased.mergeTemplate
    apply Erased.mergeTemplate
    exact (h.mergeNode _ _ _).mergeNode _ _ _
  · intro action _ g g' h
    exact h.projectAction _ _

theorem Erased.projectTemplate (h : Erased erased g g') :
    Erased erased (projectTemplate template g) (projectTemplate template g') := by
  unfold Graph.projectTemplate
  apply List.foldl_rel
  · apply Erased.mergeTemplate
    exact (h.mergeNode _ _ _).mergeNode _ _ _
  · intro relation _ g g' h
    exact h.projectRelation _

/-- The relations that `project_case` merges leave the nodes alone. -/
theorem node?_linkCase {alarm key : Key} :
    (linkCase db projection alarm g).node? key = (mergeCaseNodes projection g).node? key := by
  unfold linkCase
  dsimp only
  split <;> rfl

/-- No case operation touches an alarm. -/
theorem alarm_projectCase (id : String) :
    (projectCase db projection g).node? ⟨.alarm, id⟩ = g.node? ⟨.alarm, id⟩ := by
  have hmerge : ∀ (g : KnowledgeGraph) (key : Key) (new : NodeProperties)
      (set : NodeProperties → NodeProperties), key.label ≠ .alarm →
      (g.mergeNode key new set).node? ⟨.alarm, id⟩ = g.node? ⟨.alarm, id⟩ := by
    intro g key new set hlabel
    apply PropertyGraph.mergeNode_node?_ne
    rintro rfl
    exact hlabel rfl
  have hcleared : (clearCase projection g).node? ⟨.alarm, id⟩ = g.node? ⟨.alarm, id⟩ :=
    hmerge _ _ _ _ (by simp)
  have hnodes : ∀ g : KnowledgeGraph,
      (mergeCaseNodes projection g).node? ⟨.alarm, id⟩ = g.node? ⟨.alarm, id⟩ := by
    intro g
    unfold mergeCaseNodes
    rw [hmerge _ _ _ _ (by simp), hmerge _ _ _ _ (by simp), hmerge _ _ _ _ (by simp)]
  unfold projectCase
  split
  · rw [node?_linkCase]
    exact (hnodes _).trans hcleared
  · exact hcleared

theorem alarm_tombstoneCase (caseId id : String) :
    (tombstoneCase caseId g).node? ⟨.alarm, id⟩ = g.node? ⟨.alarm, id⟩ := by
  unfold tombstoneCase
  rw [PropertyGraph.deleteOrphans_node?_of_label (by simp),
    PropertyGraph.detachDelete_node?_ne (by simp)]
  rfl

/-- An operation on an erased case is not seen in the other run. -/
theorem Erased.skip (h : Erased erased g g') (hg : WellOwned g) {op : Operation} {caseId : String}
    (hop : op.caseId = some caseId) (herased : erased caseId) : Erased erased (op.apply db g) g' := by
  have hdropped : (g.relations.filter fun r => owner r ≠ some caseId).filter (spared erased) =
      g.relations.filter (spared erased) := by
    rw [List.filter_filter]
    apply List.filter_congr
    intro r _
    by_cases howner : owner r = some caseId
    · simp [spared, howner, herased]
    · simp [howner]
  cases op with
  | projectTemplate template => cases hop
  | projectCase projection =>
      cases hop
      refine ⟨?_, fun id => (h.alarms id).trans (alarm_projectCase id).symm⟩
      show _ = (projectCase db projection g).relations.filter _
      have hnone : (newRelations db projection g).filter (spared erased) = [] := by
        rw [List.filter_eq_nil_iff]
        intro r hr
        simp [spared, owner_newRelations hr, herased]
      rw [relations_projectCase hg, List.filter_append, hdropped, hnone, List.append_nil, h.relations]
  | tombstoneCase caseId =>
      cases hop
      refine ⟨?_, fun id => (h.alarms id).trans (alarm_tombstoneCase caseId id).symm⟩
      show _ = (tombstoneCase caseId g).relations.filter _
      rw [relations_tombstoneCase hg, hdropped, h.relations]

/-- Any other operation does the same in both. -/
theorem Erased.both (h : Erased erased g g') (hg : WellOwned g) (hg' : WellOwned g') {op : Operation}
    (hop : ∀ caseId, op.caseId = some caseId → ¬ erased caseId) :
    Erased erased (op.apply db g) (op.apply db g') := by
  have hothers : ∀ caseId, (g'.relations.filter fun r => owner r ≠ some caseId) =
      (g.relations.filter fun r => owner r ≠ some caseId).filter (spared erased) := by
    intro caseId
    rw [h.relations, List.filter_comm]
  cases op with
  | projectTemplate template => exact h.projectTemplate
  | projectCase projection =>
      have hspared : ∀ r ∈ newRelations db projection g, spared erased r := by
        intro r hr
        have hnot := hop _ rfl
        simp [spared, owner_newRelations hr, hnot]
      have hnew : newRelations db projection g' = newRelations db projection g := by
        have hkeep : ∀ r ∈ g.relations, owner r = none → spared erased r :=
          fun _ _ hnone => spared_of_owner_none hnone
        unfold newRelations
        rw [alarmRows_congr h.relations hkeep h.alarms, componentRows_congr h.relations hkeep]
      refine ⟨?_, fun id => ?_⟩
      · show (projectCase db projection g').relations =
          (projectCase db projection g).relations.filter _
        rw [relations_projectCase hg, relations_projectCase hg', List.filter_append, hothers, hnew,
          List.filter_eq_self.mpr hspared]
      · exact (alarm_projectCase id).trans ((h.alarms id).trans (alarm_projectCase id).symm)
  | tombstoneCase caseId =>
      refine ⟨?_, fun id => ?_⟩
      · show (tombstoneCase caseId g').relations = (tombstoneCase caseId g).relations.filter _
        rw [relations_tombstoneCase hg, relations_tombstoneCase hg', hothers]
      · exact (alarm_tombstoneCase caseId id).trans
          ((h.alarms id).trans (alarm_tombstoneCase caseId id).symm)

theorem run_concat (operations : List Operation) (op : Operation) :
    run db (operations ++ [op]) = op.apply db (run db operations) := by
  unfold run
  rw [List.foldl_append]
  rfl

/-- **The run without the operations on some cases** has the graph of the whole run less what comes
from these cases. -/
theorem erased_run (erased : String → Bool) (operations : List Operation) :
    Erased erased (run db operations)
      (run db (operations.filter fun op => ¬ op.caseId.any erased)) := by
  induction operations using List.reverseRecOn with
  | nil => exact ⟨rfl, fun _ => rfl⟩
  | append_singleton operations op ih =>
      rw [List.filter_append, run_concat]
      cases hop : op.caseId with
      | none =>
          have hkept : [op].filter (fun op => ¬ op.caseId.any erased) = [op] := by simp [hop]
          rw [hkept, run_concat]
          apply ih.both (wellOwned_run _) (wellOwned_run _)
          intro caseId hcase
          rw [hop] at hcase
          cases hcase
      | some caseId =>
          by_cases herased : erased caseId
          · have hskipped : [op].filter (fun op => ¬ op.caseId.any erased) = [] := by
              simp [hop, herased]
            rw [hskipped, List.append_nil]
            exact ih.skip (wellOwned_run _) hop herased
          · have hkept : [op].filter (fun op => ¬ op.caseId.any erased) = [op] := by
              simp [hop, herased]
            rw [hkept, run_concat]
            apply ih.both (wellOwned_run _) (wellOwned_run _)
            intro other hother
            rw [hop] at hother
            cases hother
            exact herased

end erasure

section removal

variable {db : Database}

/-- Behind the tombstone of a case nothing comes from it. -/
theorem unowned_of_tombstoned {caseId : String} (operations : List Operation)
    (hlast : (operations.filter fun op => op.caseId = some caseId).getLast? =
      some (.tombstoneCase caseId)) :
    ∀ r ∈ (run db operations).relations, owner r ≠ some caseId := by
  induction operations using List.reverseRecOn with
  | nil => cases hlast
  | append_singleton operations op ih =>
      rw [run_concat]
      have hg : WellOwned (run db operations) := wellOwned_run _
      rw [List.filter_append] at hlast
      by_cases hop : op.caseId = some caseId
      · -- the last operation on the case is this one
        have hsingle : [op].filter (fun op => op.caseId = some caseId) = [op] := by simp [hop]
        rw [hsingle, List.getLast?_concat, Option.some.injEq] at hlast
        subst hlast
        intro r hr
        replace hr : r ∈ (tombstoneCase caseId (run db operations)).relations := hr
        rw [relations_tombstoneCase hg] at hr
        simpa using (List.mem_filter.mp hr).2
      · have hnone : [op].filter (fun op => op.caseId = some caseId) = [] := by simp [hop]
        rw [hnone, List.append_nil] at hlast
        have h := ih hlast
        have hsame : Erased (fun id => id = caseId) (run db operations) (run db operations) := by
          refine ⟨?_, fun _ => rfl⟩
          refine (List.filter_eq_self.mpr fun r hr => ?_).symm
          have howner := h r hr
          cases hid : owner r with
          | none => simp [spared, hid]
          | some id =>
              rw [hid] at howner
              simpa [spared, hid] using howner
        have hboth : Erased (fun id => id = caseId) (op.apply db (run db operations))
            (op.apply db (run db operations)) := by
          apply hsame.both hg hg
          intro id hid herased
          rw [decide_eq_true_eq] at herased
          exact hop (herased ▸ hid)
        intro r hr howner
        rw [hboth.relations] at hr
        have hspared := (List.mem_filter.mp hr).2
        simp [spared, howner] at hspared

/-- **Case knowledge is removable.** When the last operation on a case is its tombstone, the relations
are those of the run that leaves out all operations on it; and the relations of the templates are
always those that the projections of templates make alone. -/
theorem case_knowledge_removable (operations : List Operation) :
    (∀ caseId, (operations.filter fun op => op.caseId = some caseId).getLast? =
        some (.tombstoneCase caseId) →
      (run db operations).relations =
        (run db (operations.filter fun op => op.caseId ≠ some caseId)).relations) ∧
    (run db operations).relations.filter (fun r => r.properties.sourceType = .template) =
      (run db (operations.filter fun op => op.caseId = none)).relations := by
  constructor
  · intro caseId hlast
    have hothers : (operations.filter fun op => op.caseId ≠ some caseId) =
        operations.filter fun op => ¬ op.caseId.any fun id => id = caseId := by
      apply List.filter_congr
      intro op _
      cases op.caseId <;> simp
    rw [hothers, (erased_run (fun id => id = caseId) operations).relations]
    refine (List.filter_eq_self.mpr fun r hr => ?_).symm
    have howner := unowned_of_tombstoned operations hlast r hr
    cases hid : owner r with
    | none => simp [spared, hid]
    | some id =>
        rw [hid] at howner
        simpa [spared, hid] using howner
  · have htemplates : (operations.filter fun op => op.caseId = none) =
        operations.filter fun op => ¬ op.caseId.any fun _ => true := by
      apply List.filter_congr
      intro op _
      cases op.caseId <;> simp
    rw [htemplates, (erased_run (fun _ => true) operations).relations]
    apply List.filter_congr
    intro r _
    cases hsource : r.properties.sourceType <;> simp [spared, owner, hsource]

end removal

/-! ## A case that goes again -/

/-- Letters as they are, and the first of the largest. -/
def sampleDatabase : Database := ⟨id, .first _, .first _⟩

def fanTemplate : TemplateProjection where
  templateId := "pcs_fan_abnormal_v1"
  templateVersion := "1.1.0"
  deviceType := "PCS"
  alarmId := "pcs_fan_abnormal_v1"
  alarmName := "fan"
  relations := [⟨"stuck", "fan", ["check"]⟩]

/-- A case about the fan. -/
def fanCase (caseId : String) : CaseProjection := ⟨caseId, 1, "PCS", "fan abnormal", "stuck", "replace"⟩

def retiring : List Operation :=
  [.projectTemplate fanTemplate, .projectCase (fanCase "case-1"), .projectCase (fanCase "case-2"),
    .tombstoneCase "case-1"]

/-- The first of two cases was in the graph, and is not in it any more. -/
theorem retired_case_removed :
    (run sampleDatabase (retiring.take 2)).relations.any (fun r => owner r = some "case-1") ∧
    (run sampleDatabase retiring).relations = (run sampleDatabase [.projectTemplate fanTemplate,
      .projectCase (fanCase "case-2")]).relations := by
  constructor
  · decide
  · exact (case_knowledge_removable retiring).1 "case-1" rfl

end EnergyAgent.Graph
