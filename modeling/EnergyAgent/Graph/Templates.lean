import EnergyAgent.Graph.Query
import EnergyAgent.Graph.Removal

/-!
# Versions of templates in the graph

A projection adds the relations of its template under their version and takes none away, and nothing
else touches relations of templates. So the graph holds what any version had, and it shows the
version projected last exactly when that one has all of it.
-/

namespace EnergyAgent.Graph

open EnergyAgent.Lib EnergyAgent.Indexing

/-! ## What a projection adds -/

/-- A relation of the template, as its `MERGE` creates it. -/
def templateRelation (template : TemplateProjection) (kind : RelationKind) (source target : Key) :
    Relation :=
  ⟨kind, source, target, {
    sourceType := .template
    sourceId := template.templateId
    sourceVersion := some (.text template.templateVersion) }⟩

def actionRelations (template : TemplateProjection) (fault : Key) (action : String) : List Relation :=
  [templateRelation template .mitigatedBy fault ⟨.action, action⟩]

def rowRelations (template : TemplateProjection) (relation : TemplateRelation) : List Relation :=
  let fault : Key := ⟨.faultCause, relation.faultCause⟩
  [templateRelation template .mayBeCausedBy ⟨.alarm, template.alarmId⟩ fault,
    templateRelation template .relatesTo fault ⟨.component, relation.component⟩] ++
  relation.actions.flatMap (actionRelations template fault)

/-- The relations of a version of a template. -/
def templateRelations (template : TemplateProjection) : List Relation :=
  templateRelation template .hasAlarm ⟨.deviceType, template.deviceType⟩ ⟨.alarm, template.alarmId⟩ ::
    template.relations.flatMap (rowRelations template)

/-- The relation is of a template, and has no more properties than its `MERGE` gives it. -/
def Plain (r : Relation) : Prop := r.properties.sourceType = .template →
  ∃ version, r.properties =
    { sourceType := .template, sourceId := r.properties.sourceId, sourceVersion := some (.text version) }

/-- `g'` has the relations of `g` and the added ones. -/
structure Adds (added : List Relation) (g g' : KnowledgeGraph) : Prop where
  plain : ∀ r ∈ g'.relations, Plain r
  mem_iff : ∀ r, r ∈ g'.relations ↔ r ∈ g.relations ∨ r ∈ added

section adds

variable {g g' g'' : KnowledgeGraph} {template : TemplateProjection} {added added' : List Relation}

theorem Adds.trans (h : Adds added g g') (h' : Adds added' g' g'') : Adds (added ++ added') g g'' := by
  refine ⟨h'.plain, fun r => ?_⟩
  rw [h'.mem_iff, h.mem_iff, List.mem_append, or_assoc]

theorem Adds.refl (hg : ∀ r ∈ g.relations, Plain r) : Adds [] g g :=
  ⟨hg, fun r => by simp⟩

/-- What a loop adds when each of its steps adds something. -/
theorem Adds.foldl {α : Type} (step : KnowledgeGraph → α → KnowledgeGraph) (adds : α → List Relation)
    (hstep : ∀ g item, (∀ r ∈ g.relations, Plain r) → Adds (adds item) g (step g item))
    (items : List α) {g : KnowledgeGraph} (hg : ∀ r ∈ g.relations, Plain r) :
    Adds (items.flatMap adds) g (items.foldl step g) := by
  induction items generalizing g with
  | nil => exact .refl hg
  | cons item items ih =>
      have hfirst := hstep g item hg
      exact hfirst.trans (ih hfirst.plain)

/-- A node is no relation. -/
theorem Adds.ofMergeNode {key : Key} {new : NodeProperties} {set : NodeProperties → NodeProperties}
    (h : Adds added (g.mergeNode key new set) g') : Adds added g g' := ⟨h.plain, h.mem_iff⟩

/-- A plain relation that fits the pattern of a template is the one that its `MERGE` creates. -/
theorem eq_templateRelation {kind : RelationKind} {source target : Key} {r : Relation} (hr : Plain r)
    (hfits : r.fits kind source target fun p => p.sourceType = .template ∧
      p.sourceId = template.templateId ∧ p.sourceVersion = some (.text template.templateVersion)) :
    r = templateRelation template kind source target := by
  simp only [PropertyGraph.Relation.fits, decide_eq_true_eq] at hfits
  obtain ⟨hkind, hsource, htarget, htype, hid, hversion⟩ := hfits
  obtain ⟨version, hproperties⟩ := hr htype
  obtain ⟨kind, source, target, properties⟩ := r
  dsimp only at hkind hsource htarget hid hversion hproperties
  rw [hproperties] at hversion
  dsimp only at hversion
  unfold templateRelation
  rw [hkind, hsource, htarget, hproperties, hid, hversion]

theorem adds_mergeTemplate (template : TemplateProjection) (g : KnowledgeGraph)
    (hg : ∀ r ∈ g.relations, Plain r) (kind : RelationKind) (source target : Key) :
    Adds [templateRelation template kind source target] g
      (mergeTemplate template kind source target g) := by
  have hplain : ∀ r ∈ (mergeTemplate template kind source target g).relations, Plain r := by
    intro r hr
    rcases PropertyGraph.mem_mergeInto_id hr with hold | rfl
    · exact hg r hold
    · exact fun _ => ⟨template.templateVersion, rfl⟩
  refine ⟨hplain, fun r => ?_⟩
  rw [List.mem_singleton]
  constructor
  · exact PropertyGraph.mem_mergeInto_id
  · rintro (hold | rfl)
    · exact PropertyGraph.mem_mergeInto_of_mem hold
    · obtain ⟨r, hr, hfits⟩ : ∃ r ∈ (mergeTemplate template kind source target g).relations,
          r.fits kind source target _ :=
        PropertyGraph.exists_fits_mergeInto_id (by simp)
      rw [← eq_templateRelation (hplain r hr) hfits]
      exact hr

theorem adds_projectAction (template : TemplateProjection) (fault : Key) (g : KnowledgeGraph)
    (action : String) (hg : ∀ r ∈ g.relations, Plain r) :
    Adds (actionRelations template fault action) g (projectAction template fault g action) :=
  (adds_mergeTemplate template (g.mergeNode ⟨.action, action⟩ {} (named action)) hg .mitigatedBy fault
    ⟨.action, action⟩).ofMergeNode

theorem adds_projectRelation (template : TemplateProjection) (g : KnowledgeGraph)
    (relation : TemplateRelation) (hg : ∀ r ∈ g.relations, Plain r) :
    Adds (rowRelations template relation) g (projectRelation template g relation) := by
  let fault : Key := ⟨.faultCause, relation.faultCause⟩
  let component : Key := ⟨.component, relation.component⟩
  let merged := (g.mergeNode fault {} (named relation.faultCause)).mergeNode component {}
    (named relation.component)
  have hcause := adds_mergeTemplate template merged hg .mayBeCausedBy ⟨.alarm, template.alarmId⟩ fault
  have hrelates := adds_mergeTemplate template _ hcause.plain .relatesTo fault component
  have hactions := Adds.foldl (projectAction template fault) (actionRelations template fault)
    (adds_projectAction template fault) relation.actions hrelates.plain
  exact ((hcause.trans hrelates).trans hactions).ofMergeNode.ofMergeNode

/-- **What `project_template` adds**: the relations of the version, and nothing goes. -/
theorem adds_projectTemplate (template : TemplateProjection) (g : KnowledgeGraph)
    (hg : ∀ r ∈ g.relations, Plain r) :
    Adds (templateRelations template) g (projectTemplate template g) := by
  let device : Key := ⟨.deviceType, template.deviceType⟩
  let alarm : Key := ⟨.alarm, template.alarmId⟩
  have halarm := adds_mergeTemplate template
    ((g.mergeNode device {} id).mergeNode alarm {} (named template.alarmName)) hg .hasAlarm device alarm
  have hrows := Adds.foldl (projectRelation template) (rowRelations template)
    (adds_projectRelation template) template.relations halarm.plain
  exact (halarm.trans hrows).ofMergeNode.ofMergeNode

theorem template_of_mem {r : Relation} (h : r ∈ templateRelations template) :
    r.properties.sourceType = .template ∧ r.properties.sourceId = template.templateId := by
  simp only [templateRelations, rowRelations, actionRelations, List.mem_cons, List.mem_flatMap,
    List.cons_append, List.nil_append, List.not_mem_nil, or_false] at h
  rcases h with rfl | ⟨row, -, rfl | rfl | ⟨action, -, rfl⟩⟩ <;> exact ⟨rfl, rfl⟩

end adds

/-! ## Runs -/

/-- The template that an operation projects. -/
def Operation.template? : Operation → Option TemplateProjection
  | .projectTemplate template => some template
  | .projectCase _ => none
  | .tombstoneCase _ => none

/-- The projections of a template, the first one first. -/
def projections (templateId : String) (operations : List Operation) : List TemplateProjection :=
  (operations.filterMap Operation.template?).filter fun template => template.templateId = templateId

/-- The version projected last. -/
def lastProjection (operations : List Operation) (templateId : String) : Option TemplateProjection :=
  (projections templateId operations).getLast?

theorem mem_projections {operations : List Operation} {template : TemplateProjection} :
    template ∈ projections template.templateId operations ↔
      .projectTemplate template ∈ operations := by
  simp only [projections, List.mem_filter, List.mem_filterMap, decide_true, and_true]
  constructor
  · rintro ⟨op, hop, htemplate⟩
    cases op with
    | projectTemplate template' =>
        cases htemplate
        exact hop
    | projectCase projection => cases htemplate
    | tombstoneCase caseId => cases htemplate
  · intro hop
    exact ⟨_, hop, rfl⟩

section runs

variable {db : Database} {g : KnowledgeGraph}

/-- An operation on a case leaves the relations of templates, and makes none. -/
theorem template_relations_apply (hg : WellOwned g) {op : Operation} (hop : op.template? = none)
    {r : Relation} (hr : r.properties.sourceType = .template) :
    r ∈ (op.apply db g).relations ↔ r ∈ g.relations := by
  have howner : ∀ caseId, owner r ≠ some caseId := by
    intro caseId
    rw [owner_of_template hr]
    simp
  cases op with
  | projectTemplate template => cases hop
  | projectCase projection =>
      show r ∈ (projectCase db projection g).relations ↔ _
      rw [relations_projectCase hg, List.mem_append]
      constructor
      · rintro (hold | hnew)
        · exact List.mem_of_mem_filter hold
        · exact absurd (owner_newRelations hnew) (howner _)
      · intro hmem
        exact Or.inl (List.mem_filter.mpr ⟨hmem, by simp [howner]⟩)
  | tombstoneCase caseId =>
      show r ∈ (tombstoneCase caseId g).relations ↔ _
      rw [relations_tombstoneCase hg, List.mem_filter]
      simp [howner]

/-- **The relations of templates behind a run** are those of all versions that were projected. -/
theorem template_relations_run (operations : List Operation) :
    (∀ r ∈ (run db operations).relations, Plain r) ∧
    ∀ r, r.properties.sourceType = .template →
      (r ∈ (run db operations).relations ↔
        ∃ template, .projectTemplate template ∈ operations ∧ r ∈ templateRelations template) := by
  induction operations using List.reverseRecOn with
  | nil =>
      refine ⟨fun r hr => absurd hr List.not_mem_nil, fun r _ => ?_⟩
      simp [run]
  | append_singleton operations op ih =>
      obtain ⟨hplain, hmem⟩ := ih
      rw [run_concat]
      cases hop : op.template? with
      | some template =>
          obtain rfl : op = .projectTemplate template := by
            cases op <;> cases hop
            rfl
          have hadds := adds_projectTemplate template (run db operations) hplain
          refine ⟨hadds.plain, fun r hr => ?_⟩
          show r ∈ (projectTemplate template (run db operations)).relations ↔ _
          rw [hadds.mem_iff, hmem r hr]
          simp only [List.mem_append, List.mem_singleton, Operation.projectTemplate.injEq,
            or_and_right, exists_or, exists_eq_left]
      | none =>
          have hsame : ∀ {r : Relation}, r.properties.sourceType = .template →
              (r ∈ (op.apply db (run db operations)).relations ↔ r ∈ (run db operations).relations) :=
            template_relations_apply (wellOwned_run operations) hop
          refine ⟨fun r hr htype => hplain r ((hsame htype).mp hr) htype, fun r hr => ?_⟩
          rw [hsame hr, hmem r hr]
          refine exists_congr fun template => and_congr_left fun _ => ?_
          rw [List.mem_append, List.mem_singleton]
          refine (or_iff_left ?_).symm
          rintro rfl
          cases hop

end runs

/-! ## Current versions -/

section current

variable (db : Database) (operations : List Operation)

/-- The relation is one of the version of its template that was projected last. -/
def Current (r : Relation) : Prop :=
  ∃ template, lastProjection operations r.properties.sourceId = some template ∧
    r ∈ templateRelations template

/-- Some case, or a current version of a template, says that the alarm may have the cause. -/
def Backed (row : GraphRelation) : Prop :=
  ∃ af ∈ (run db operations).relations, af.kind = .mayBeCausedBy ∧
    (∃ a, (run db operations).node? af.source = some a ∧ a.properties.name = some row.alarmName) ∧
    (∃ f, (run db operations).node? af.target = some f ∧ f.properties.name = some row.faultCause) ∧
    (af.properties.sourceType = .case ∨ Current operations af)

/-- The graph reflects the current versions: for each template it holds the relations of the version
projected last and no others, and no query returns a cause that only a replaced version supports. -/
structure Reflects : Prop where
  relations : ∀ templateId r,
    (r ∈ (run db operations).relations ∧ r.properties.sourceType = .template ∧
      r.properties.sourceId = templateId) ↔
    ∃ template, lastProjection operations templateId = some template ∧ r ∈ templateRelations template
  causes : ∀ order alarmName deviceType component topK result,
    queryRelations db order (run db operations) alarmName deviceType component topK = some result →
      ∀ row ∈ result, Backed db operations row

theorem mem_of_lastProjection {templateId : String} {template : TemplateProjection}
    (h : lastProjection operations templateId = some template) :
    template.templateId = templateId ∧ .projectTemplate template ∈ operations := by
  have hmem : template ∈ projections templateId operations := List.mem_of_getLast? h
  have hid : template.templateId = templateId := of_decide_eq_true (List.mem_filter.mp hmem).2
  exact ⟨hid, mem_projections.mp (hid ▸ hmem)⟩

theorem exists_lastProjection {template : TemplateProjection}
    (h : .projectTemplate template ∈ operations) :
    ∃ last, lastProjection operations template.templateId = some last := by
  have hmem := mem_projections.mpr h
  exact Option.isSome_iff_exists.mp (List.getLast?_isSome.mpr (List.ne_nil_of_mem hmem))

/-- **When the graph reflects the current versions**: exactly when the version of each template that
was projected last has all relations, versions included, of all its projections. -/
theorem reflects_iff :
    Reflects db operations ↔ ∀ template last, .projectTemplate template ∈ operations →
      lastProjection operations template.templateId = some last →
        templateRelations template ⊆ templateRelations last := by
  have hmem : ∀ r, r.properties.sourceType = .template → (r ∈ (run db operations).relations ↔
      ∃ template, .projectTemplate template ∈ operations ∧ r ∈ templateRelations template) :=
    (template_relations_run operations).2
  constructor
  · intro h template last htemplate hlast r hr
    obtain ⟨htype, hid⟩ := template_of_mem hr
    obtain ⟨last', hlast', hin⟩ := (h.relations template.templateId r).mp
      ⟨(hmem r htype).mpr ⟨template, htemplate, hr⟩, htype, hid⟩
    rw [hlast] at hlast'
    cases hlast'
    exact hin
  · intro h
    have hcurrent : ∀ r ∈ (run db operations).relations, r.properties.sourceType = .template →
        Current operations r := by
      intro r hr htype
      obtain ⟨template, htemplate, hin⟩ := (hmem r htype).mp hr
      obtain ⟨last, hlast⟩ := exists_lastProjection operations htemplate
      refine ⟨last, ?_, h template last htemplate hlast hin⟩
      rw [(template_of_mem hin).2]
      exact hlast
    refine ⟨fun templateId r => ⟨?_, ?_⟩, ?_⟩
    · rintro ⟨hr, htype, rfl⟩
      exact hcurrent r hr htype
    · rintro ⟨template, hlast, hin⟩
      obtain ⟨hid, htemplate⟩ := mem_of_lastProjection operations hlast
      obtain ⟨htype, hid'⟩ := template_of_mem hin
      exact ⟨(hmem r htype).mpr ⟨template, htemplate, hin⟩, htype, hid'.trans hid⟩
    · intro order alarmName deviceType component topK result hresult row hrow
      obtain ⟨af, haf, hkind, ha, hf⟩ := queryRelations_supported hresult hrow
      refine ⟨af, haf, hkind, ha, hf, ?_⟩
      cases htype : af.properties.sourceType with
      | template => exact Or.inr (hcurrent af haf htype)
      | case => exact Or.inl rfl

end current

/-- The template about the fan with another cause, in its next version. -/
def revisedFan : TemplateProjection :=
  { fanTemplate with templateVersion := "1.2.0", relations := [⟨"worn", "fan", ["replace"]⟩] }

def revising : List Operation := [.projectTemplate fanTemplate, .projectTemplate revisedFan]

/-- The relation to the cause of the first version. -/
def staleRelation : Relation :=
  templateRelation fanTemplate .mayBeCausedBy ⟨.alarm, "pcs_fan_abnormal_v1"⟩ ⟨.faultCause, "stuck"⟩

/-- The cause of the replaced version is still in the graph, and still returned. -/
theorem replaced_cause_returned :
    ¬ Reflects sampleDatabase revising ∧
    lastProjection revising "pcs_fan_abnormal_v1" = some revisedFan ∧
    (∀ relation ∈ revisedFan.relations, relation.faultCause ≠ "stuck") ∧
    (queryRelations sampleDatabase .plain (run sampleDatabase revising) "fan" (some "PCS") none 5).any
      (fun result => result.any fun row => row.faultCause = "stuck" ∧ row.supportCount = 0) := by
  refine ⟨fun h => ?_, rfl, by decide, by decide +kernel⟩
  have hstale : staleRelation ∈ (run sampleDatabase revising).relations := by decide +kernel
  obtain ⟨template, hlast, hin⟩ :=
    (h.relations "pcs_fan_abnormal_v1" staleRelation).mp ⟨hstale, rfl, rfl⟩
  obtain rfl : revisedFan = template := Option.some.inj hlast
  exact absurd hin (by decide +kernel)

end EnergyAgent.Graph
