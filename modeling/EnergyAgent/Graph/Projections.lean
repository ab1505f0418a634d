import EnergyAgent.Graph.Removal

/-!
# What a projection is to show

`Shown` and `Absent` are what the two statuses `PROJECTED` and `TOMBSTONED` promise of a case. The
operations on one case bring them about, all other operations keep them.
-/

namespace EnergyAgent.Graph

open EnergyAgent.Lib EnergyAgent.Indexing

/-- The relation confirms the cause for the case, and is active. -/
def Relation.Confirms (r : Relation) (caseId faultCause : String) : Prop :=
  r.kind = .confirms ∧ r.source = ⟨.case, caseId⟩ ∧ r.target = ⟨.faultCause, faultCause⟩ ∧
    r.properties.active = some true

/-- The node of the case is in the graph, with an active `CONFIRMS` to the node of its cause. -/
structure Shown (g : KnowledgeGraph) (caseId faultCause : String) : Prop where
  case : (g.node? ⟨.case, caseId⟩).isSome
  cause : (g.node? ⟨.faultCause, faultCause⟩).isSome
  confirms : ∃ r ∈ g.relations, Relation.Confirms r caseId faultCause

/-- Neither a node nor a relation of the case is in the graph. -/
structure Absent (g : KnowledgeGraph) (caseId : String) : Prop where
  node : g.node? ⟨.case, caseId⟩ = none
  relations : ∀ r ∈ g.relations, ¬ ofCase caseId r ∧ ¬ r.touches ⟨.case, caseId⟩

section frame

variable {db : Database} {g : KnowledgeGraph} {caseId faultCause : String}
  {projection : CaseProjection} {template : TemplateProjection}

theorem isSome_mergeNode {key k : Key} {new : NodeProperties} {set : NodeProperties → NodeProperties}
    (h : (g.node? k).isSome) : ((g.mergeNode key new set).node? k).isSome := by
  by_cases hk : k = key
  · subst hk
    rw [PropertyGraph.mergeNode_node?_self]
    rfl
  · rw [PropertyGraph.mergeNode_node?_ne hk]
    exact h

theorem isSome_merged {key : Key} {new : NodeProperties} {set : NodeProperties → NodeProperties} :
    ((g.mergeNode key new set).node? key).isSome := by
  rw [PropertyGraph.mergeNode_node?_self]
  rfl

/-- A relation that touches the case is the case's own. -/
theorem owner_of_touches {r : Relation} (hr : Owned r) (h : r.touches ⟨.case, caseId⟩) :
    owner r = some caseId := by
  simp only [PropertyGraph.Relation.touches, decide_eq_true_eq] at h
  rcases h with hsource | htarget
  · have hown := hr.source (by rw [hsource])
    rwa [hsource] at hown
  · exact absurd (by rw [htarget]) hr.target

theorem owner_of_confirms {r : Relation} (hr : Owned r) (h : Relation.Confirms r caseId faultCause) :
    owner r = some caseId := by
  apply owner_of_touches hr
  simp [PropertyGraph.Relation.touches, h.2.1]

theorem absent_iff (hg : WellOwned g) : Absent g caseId ↔
    g.node? ⟨.case, caseId⟩ = none ∧ ∀ r ∈ g.relations, owner r ≠ some caseId := by
  constructor
  · intro h
    refine ⟨h.node, fun r hr howner => ?_⟩
    exact (h.relations r hr).1 ((ofCase_iff (hg r hr)).mpr howner)
  · rintro ⟨hnode, howners⟩
    refine ⟨hnode, fun r hr => ⟨fun hof => ?_, fun htouch => ?_⟩⟩
    · exact howners r hr ((ofCase_iff (hg r hr)).mp hof)
    · exact howners r hr (owner_of_touches (hg r hr) htouch)

/-! ## Templates -/

/-- A write that only adds nodes and relations that no case owns. -/
structure Grows (g g' : KnowledgeGraph) : Prop where
  nodes : ∀ key, (g.node? key).isSome → (g'.node? key).isSome
  cases : ∀ id, g'.node? ⟨.case, id⟩ = g.node? ⟨.case, id⟩
  relations : ∀ r ∈ g.relations, r ∈ g'.relations
  new : ∀ r ∈ g'.relations, r ∈ g.relations ∨ owner r = none

theorem Grows.refl (g : KnowledgeGraph) : Grows g g :=
  ⟨fun _ h => h, fun _ => rfl, fun _ h => h, fun _ h => Or.inl h⟩

theorem Grows.mergeNode {g' : KnowledgeGraph} (h : Grows g g') {key : Key} (hkey : key.label ≠ .case)
    (new : NodeProperties) (set : NodeProperties → NodeProperties) :
    Grows g (g'.mergeNode key new set) := by
  refine ⟨fun k hk => isSome_mergeNode (h.nodes k hk), fun id => ?_, h.relations, h.new⟩
  rw [PropertyGraph.mergeNode_node?_ne, h.cases]
  rintro rfl
  exact hkey rfl

theorem Grows.mergeTemplate {g' : KnowledgeGraph} (h : Grows g g') (kind : RelationKind)
    (source target : Key) : Grows g (mergeTemplate template kind source target g') := by
  refine ⟨h.nodes, h.cases, fun r hr => ?_, fun r hr => ?_⟩
  · exact PropertyGraph.mem_mergeInto_of_mem (h.relations r hr)
  · rcases PropertyGraph.mem_mergeInto_id hr with hold | rfl
    · exact h.new r hold
    · exact Or.inr rfl

theorem grows_projectTemplate : Grows g (projectTemplate template g) := by
  have hrelation : ∀ g' relation, Grows g g' → Grows g (projectRelation template g' relation) := by
    intro g' relation h
    unfold projectRelation
    apply List.foldlRecOn
    · apply Grows.mergeTemplate
      apply Grows.mergeTemplate
      exact (h.mergeNode (by simp) _ _).mergeNode (by simp) _ _
    · intro g' h action _
      exact (h.mergeNode (by simp) _ _).mergeTemplate _ _ _
  unfold projectTemplate
  apply List.foldlRecOn
  · apply Grows.mergeTemplate
    exact ((Grows.refl g).mergeNode (by simp) _ _).mergeNode (by simp) _ _
  · intro g' h relation _
    exact hrelation g' relation h

theorem Shown.projectTemplate (h : Shown g caseId faultCause) :
    Shown (projectTemplate template g) caseId faultCause := by
  have hgrows : Grows g (Graph.projectTemplate template g) := grows_projectTemplate
  obtain ⟨r, hr, hconfirms⟩ := h.confirms
  exact ⟨hgrows.nodes _ h.case, hgrows.nodes _ h.cause, r, hgrows.relations r hr, hconfirms⟩

theorem Absent.projectTemplate (hg : WellOwned g) (h : Absent g caseId) :
    Absent (projectTemplate template g) caseId := by
  have hgrows : Grows g (Graph.projectTemplate template g) := grows_projectTemplate
  obtain ⟨hnode, howners⟩ := (absent_iff hg).mp h
  refine (absent_iff hg.projectTemplate).mpr ⟨(hgrows.cases caseId).trans hnode, fun r hr => ?_⟩
  rcases hgrows.new r hr with hold | hnone
  · exact howners r hold
  · simp [hnone]

/-! ## Cases -/

/-- What `project_case` does to the nodes. -/
theorem node?_projectCase_case (hne : caseId ≠ projection.caseId) :
    (projectCase db projection g).node? ⟨.case, caseId⟩ = g.node? ⟨.case, caseId⟩ := by
  have hother : ∀ (g : KnowledgeGraph) (key : Key) (new : NodeProperties)
      (set : NodeProperties → NodeProperties), key ≠ ⟨.case, caseId⟩ →
      (g.mergeNode key new set).node? ⟨.case, caseId⟩ = g.node? ⟨.case, caseId⟩ :=
    fun g key new set hkey => PropertyGraph.mergeNode_node?_ne hkey.symm
  have hcleared : (clearCase projection g).node? ⟨.case, caseId⟩ = g.node? ⟨.case, caseId⟩ :=
    hother _ _ _ _ (by simp)
  unfold projectCase
  split
  · rw [node?_linkCase]
    unfold mergeCaseNodes
    dsimp only
    rw [hother _ _ _ _ (by simp), hother _ _ _ _ (by simp), hother _ _ _ _ (by simpa using hne.symm),
      hcleared]
  · exact hcleared

theorem isSome_projectCase {key : Key} (h : (g.node? key).isSome) :
    ((projectCase db projection g).node? key).isSome := by
  unfold projectCase
  split
  · rw [node?_linkCase]
    apply isSome_mergeNode
    apply isSome_mergeNode
    apply isSome_mergeNode
    apply isSome_mergeNode
    exact h
  · exact isSome_mergeNode h

theorem Shown.projectCase (hg : WellOwned g) (h : Shown g caseId faultCause)
    (hne : caseId ≠ projection.caseId) : Shown (projectCase db projection g) caseId faultCause := by
  obtain ⟨r, hr, hconfirms⟩ := h.confirms
  refine ⟨isSome_projectCase h.case, isSome_projectCase h.cause, r, ?_, hconfirms⟩
  rw [relations_projectCase hg]
  apply List.mem_append_left
  rw [List.mem_filter, owner_of_confirms (hg r hr) hconfirms]
  exact ⟨hr, by simpa using hne⟩

theorem Absent.projectCase (hg : WellOwned g) (h : Absent g caseId)
    (hne : caseId ≠ projection.caseId) : Absent (projectCase db projection g) caseId := by
  obtain ⟨hnode, howners⟩ := (absent_iff hg).mp h
  refine (absent_iff (hg.projectCase projection)).mpr
    ⟨(node?_projectCase_case hne).trans hnode, fun r hr howner => ?_⟩
  rw [relations_projectCase hg] at hr
  rcases List.mem_append.mp hr with hold | hnew
  · exact howners r (List.mem_filter.mp hold).1 howner
  · rw [owner_newRelations hnew] at howner
    exact hne (Option.some.inj howner).symm

/-- What alarms are found does not depend on the case. -/
theorem alarmRows_projectCase (hg : WellOwned g) (deviceType alarmName : String) :
    alarmRows db deviceType alarmName (projectCase db projection g) =
      alarmRows db deviceType alarmName g := by
  let erased : String → Bool := fun id => id = projection.caseId
  let rest : KnowledgeGraph := ⟨g.nodes, g.relations.filter (spared erased)⟩
  have hbefore : Erased erased g rest := ⟨rfl, fun _ => rfl⟩
  have hbehind : Erased erased (Operation.apply db (.projectCase projection) g) rest :=
    hbefore.skip hg rfl (by simp [erased])
  have hrows : ∀ {g' : KnowledgeGraph}, Erased erased g' rest →
      alarmRows db deviceType alarmName rest = alarmRows db deviceType alarmName g' := by
    intro g' h
    exact alarmRows_congr h.relations (fun _ _ hnone => spared_of_owner_none hnone) h.alarms
  exact (hrows hbehind).symm.trans (hrows hbefore)

/-- **A projection that finds an alarm shows the case.** -/
theorem shown_projectCase (hg : WellOwned g)
    (hrows : alarmRows db projection.deviceType projection.alarmName g ≠ []) :
    Shown (projectCase db projection g) projection.caseId projection.faultCause := by
  obtain ⟨alarm, halarm⟩ := Option.isSome_iff_exists.mp (db.alarm.found hrows)
  have hnodes : ((projectCase db projection g).node? ⟨.case, projection.caseId⟩).isSome ∧
      ((projectCase db projection g).node? ⟨.faultCause, projection.faultCause⟩).isSome := by
    rw [projectCase_of_some hg halarm, node?_linkCase, node?_linkCase]
    unfold mergeCaseNodes
    exact ⟨isSome_mergeNode (isSome_mergeNode isSome_merged), isSome_mergeNode isSome_merged⟩
  refine ⟨hnodes.1, hnodes.2, ?_⟩
  rw [relations_projectCase hg]
  unfold newRelations
  rw [halarm]
  refine ⟨_, List.mem_append_right _ (List.mem_cons_self ..), rfl, rfl, rfl, rfl⟩

theorem node?_tombstoneCase_ne {key : Key} (hne : key ≠ ⟨.case, caseId⟩)
    (hkept : (∃ r ∈ (tombstoneCase caseId g).relations, r.touches key) ∨ key.label = .case) :
    (tombstoneCase caseId g).node? key = g.node? key := by
  have hdetach : ((g.deleteRelations (ofCase caseId)).detachDelete ⟨.case, caseId⟩).node? key =
      (g.deleteRelations (ofCase caseId)).node? key := PropertyGraph.detachDelete_node?_ne hne
  unfold tombstoneCase at hkept ⊢
  rcases hkept with ⟨r, hr, htouch⟩ | hlabel
  · rw [PropertyGraph.deleteOrphans_relations] at hr
    rw [PropertyGraph.deleteOrphans_node?_of_touched hr htouch, hdetach]
    rfl
  · rw [PropertyGraph.deleteOrphans_node?_of_label (by simp [hlabel]), hdetach]
    rfl

theorem Shown.tombstoneCase {other : String} (hg : WellOwned g) (h : Shown g caseId faultCause)
    (hne : caseId ≠ other) : Shown (tombstoneCase other g) caseId faultCause := by
  obtain ⟨r, hr, hconfirms⟩ := h.confirms
  have hkept : r ∈ (Graph.tombstoneCase other g).relations := by
    rw [relations_tombstoneCase hg, List.mem_filter, owner_of_confirms (hg r hr) hconfirms]
    exact ⟨hr, by simpa using hne⟩
  refine ⟨?_, ?_, r, hkept, hconfirms⟩
  · rw [node?_tombstoneCase_ne (by simpa using hne) (Or.inr rfl)]
    exact h.case
  · rw [node?_tombstoneCase_ne (by simp)
      (Or.inl ⟨r, hkept, by simp [PropertyGraph.Relation.touches, hconfirms.2.2.1]⟩)]
    exact h.cause

theorem Absent.tombstoneCase {other : String} (hg : WellOwned g) (h : Absent g caseId)
    (hne : caseId ≠ other) : Absent (tombstoneCase other g) caseId := by
  obtain ⟨hnode, howners⟩ := (absent_iff hg).mp h
  have hkey : (⟨.case, caseId⟩ : Key) ≠ ⟨.case, other⟩ := by simpa using hne
  refine (absent_iff (hg.tombstoneCase other)).mpr ⟨?_, fun r hr => ?_⟩
  · rw [node?_tombstoneCase_ne hkey (Or.inr rfl)]
    exact hnode
  · rw [relations_tombstoneCase hg] at hr
    exact howners r (List.mem_filter.mp hr).1

/-- **A tombstone takes the case out.** -/
theorem absent_tombstoneCase (hg : WellOwned g) : Absent (tombstoneCase caseId g) caseId := by
  refine (absent_iff (hg.tombstoneCase caseId)).mpr ⟨?_, fun r hr => ?_⟩
  · unfold tombstoneCase
    rw [PropertyGraph.deleteOrphans_node?_of_label (by simp), PropertyGraph.detachDelete_node?_self]
  · rw [relations_tombstoneCase hg] at hr
    simpa using (List.mem_filter.mp hr).2

end frame

end EnergyAgent.Graph
