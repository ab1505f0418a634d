import EnergyAgent.Indexing.HandlerRuntime
import EnergyAgent.Lib.PropertyGraph

/-!
# `Neo4jProvider`

The three writes of the graph, clause by clause. Each is one query and commits as a whole. `null`
arguments are left out: the callers have none.

What the queries leave to the database is a parameter: how it lowers letters, which of several longest
alarms `LIMIT 1` keeps, and which component `collect` has first.
-/

namespace EnergyAgent.Graph

open EnergyAgent.Lib EnergyAgent.Indexing

inductive Label
  | deviceType | component | alarm | faultCause | action | case
  deriving DecidableEq, Repr

inductive RelationKind
  | hasAlarm | mayBeCausedBy | relatesTo | mitigatedBy | confirms
  deriving DecidableEq, Repr

structure NodeProperties where
  name : Option String := none
  version : Option Nat := none
  active : Option Bool := none
  deriving DecidableEq, Repr

inductive SourceType
  | template | case
  deriving DecidableEq, Repr

/-- A `source_version`: the version of a template is a text, the one of a case a number. -/
inductive SourceVersion
  | text (version : String)
  | number (version : Nat)
  deriving DecidableEq, Repr

structure RelationProperties where
  sourceType : SourceType
  sourceId : String
  sourceVersion : Option SourceVersion := none
  caseId : Option String := none
  caseVersion : Option Nat := none
  active : Option Bool := none
  deriving DecidableEq, Repr

abbrev Key := NodeKey Label

abbrev Node := PropertyGraph.Node Label NodeProperties

abbrev Relation := PropertyGraph.Relation Label RelationKind RelationProperties

abbrev KnowledgeGraph := PropertyGraph Label RelationKind NodeProperties RelationProperties

/-- `size(a.name)`. -/
def nameSize (n : Node) : Nat := (n.properties.name.map String.length).getD 0

/-- What the queries leave to the database. -/
structure Database where
  toLower : String → String
  alarm : PropertyGraph.RowChoice Node nameSize
  component : PropertyGraph.RowChoice Key fun _ => 0

def named (name : String) (properties : NodeProperties) : NodeProperties :=
  { properties with name := some name }

/-! ## Templates -/

/-- A row of `$relations`. -/
structure TemplateRelation where
  faultCause : String
  component : String
  actions : List String
  deriving DecidableEq, Repr

/-- The payload of `project_template`. -/
structure TemplateProjection where
  templateId : String
  templateVersion : String
  deviceType : String
  alarmId : String
  alarmName : String
  relations : List TemplateRelation
  deriving DecidableEq, Repr

/-- `MERGE (s)-[:KIND {source_type: 'template', ...}]->(t)`. -/
def mergeTemplate (template : TemplateProjection) (kind : RelationKind) (source target : Key) :
    KnowledgeGraph → KnowledgeGraph :=
  PropertyGraph.mergeRelation kind source target
    (fun p => p.sourceType = .template ∧ p.sourceId = template.templateId ∧
      p.sourceVersion = some (.text template.templateVersion))
    { sourceType := .template
      sourceId := template.templateId
      sourceVersion := some (.text template.templateVersion) }
    id

/-- What is done for an action of a row. -/
def projectAction (template : TemplateProjection) (fault : Key) (g : KnowledgeGraph) (action : String) :
    KnowledgeGraph :=
  mergeTemplate template .mitigatedBy fault ⟨.action, action⟩
    (g.mergeNode ⟨.action, action⟩ {} (named action))

/-- What is done for a row of `$relations`. -/
def projectRelation (template : TemplateProjection) (g : KnowledgeGraph) (relation : TemplateRelation) :
    KnowledgeGraph :=
  let fault : Key := ⟨.faultCause, relation.faultCause⟩
  let component : Key := ⟨.component, relation.component⟩
  let merged := (g.mergeNode fault {} (named relation.faultCause)).mergeNode component {}
    (named relation.component)
  relation.actions.foldl (projectAction template fault)
    (mergeTemplate template .relatesTo fault component
      (mergeTemplate template .mayBeCausedBy ⟨.alarm, template.alarmId⟩ fault merged))

/-- `project_template`. -/
def projectTemplate (template : TemplateProjection) (g : KnowledgeGraph) : KnowledgeGraph :=
  let device : Key := ⟨.deviceType, template.deviceType⟩
  let alarm : Key := ⟨.alarm, template.alarmId⟩
  template.relations.foldl (projectRelation template)
    (mergeTemplate template .hasAlarm device alarm
      ((g.mergeNode device {} id).mergeNode alarm {} (named template.alarmName)))

/-! ## Cases -/

/-- The relations of a case, as both of its queries look for them. -/
def ofCase (caseId : String) (r : Relation) : Bool :=
  (r.properties.sourceType = .case ∧ r.properties.sourceId = caseId) ∨
    (r.kind = .confirms ∧ r.properties.caseId = some caseId)

/-- `(s)-[:KIND {source_type: 'template'}]->(:Label)`. -/
def linksTemplate (kind : RelationKind) (source : Key) (label : Label) (r : Relation) : Bool :=
  r.kind = kind ∧ r.source = source ∧ r.properties.sourceType = .template ∧ r.target.label = label

/-- One of the two names contains the other. -/
def namesMatch (db : Database) (alarmName : String) (a : Node) : Bool :=
  a.properties.name.any fun name =>
    Text.contains (db.toLower alarmName) (db.toLower name) ∨
      Text.contains (db.toLower name) (db.toLower alarmName)

/-- The alarms of the templates for the type of device that match by name. -/
def alarmRows (db : Database) (deviceType alarmName : String) (g : KnowledgeGraph) : List Node :=
  (((g.relations.filter (linksTemplate .hasAlarm ⟨.deviceType, deviceType⟩ .alarm)).filterMap
    fun r => g.node? r.target)).filter (namesMatch db alarmName)

/-- The components that templates relate to the cause. -/
def componentRows (fault : Key) (g : KnowledgeGraph) : List Key :=
  (g.relations.filter (linksTemplate .relatesTo fault .component)).map PropertyGraph.Relation.target

/-- `MERGE (s)-[r:KIND {source_type: 'case', source_id: $case_id}]->(t) SET r...`. -/
def mergeCase (projection : CaseProjection) (set : RelationProperties → RelationProperties)
    (kind : RelationKind) (source target : Key) : KnowledgeGraph → KnowledgeGraph :=
  PropertyGraph.mergeRelation kind source target
    (fun p => p.sourceType = .case ∧ p.sourceId = projection.caseId)
    { sourceType := .case, sourceId := projection.caseId } set

/-- `SET r.source_version = $case_version, r.active = true`. -/
def setActive (projection : CaseProjection) (p : RelationProperties) : RelationProperties :=
  { p with sourceVersion := some (.number projection.caseVersion), active := some true }

/-- What `SET` adds on `CONFIRMS`. -/
def setConfirms (projection : CaseProjection) (p : RelationProperties) : RelationProperties :=
  { setActive projection p with
    caseId := some projection.caseId
    caseVersion := some projection.caseVersion }

/-- The case, the cause and the action that are merged once an alarm has been found. -/
def mergeCaseNodes (projection : CaseProjection) (g : KnowledgeGraph) : KnowledgeGraph :=
  let confirmed := g.mergeNode ⟨.case, projection.caseId⟩ {} fun p =>
    { p with version := some projection.caseVersion, active := some true }
  let caused := confirmed.mergeNode ⟨.faultCause, projection.faultCause⟩ {}
    (named projection.faultCause)
  caused.mergeNode ⟨.action, projection.resolutionAction⟩ {} (named projection.resolutionAction)

/-- The clauses of `project_case` behind the `MATCH` of an alarm. -/
def linkCase (db : Database) (projection : CaseProjection) (alarm : Key) (g : KnowledgeGraph) :
    KnowledgeGraph :=
  let device : Key := ⟨.deviceType, projection.deviceType⟩
  let fault : Key := ⟨.faultCause, projection.faultCause⟩
  let action : Key := ⟨.action, projection.resolutionAction⟩
  let merged := mergeCaseNodes projection g
  let confirmed := mergeCase projection (setConfirms projection) .confirms
    ⟨.case, projection.caseId⟩ fault merged
  let linked := mergeCase projection (setActive projection) .mitigatedBy fault action
    (mergeCase projection (setActive projection) .mayBeCausedBy alarm fault
      (mergeCase projection (setActive projection) .hasAlarm device alarm confirmed))
  match db.component.pick (componentRows fault merged) with
  | some component =>
      mergeCase projection (setActive projection) .relatesTo fault component linked
  | none => linked

/-- The clauses of `project_case` in front of the `MATCH` of an alarm. -/
def clearCase (projection : CaseProjection) (g : KnowledgeGraph) : KnowledgeGraph :=
  (g.deleteRelations (ofCase projection.caseId)).mergeNode ⟨.deviceType, projection.deviceType⟩ {} id

/-- `project_case`. Without an alarm the `MATCH` has no row, and nothing behind it is done. -/
def projectCase (db : Database) (projection : CaseProjection) (g : KnowledgeGraph) :
    KnowledgeGraph :=
  match db.alarm.pick
    (alarmRows db projection.deviceType projection.alarmName (clearCase projection g)) with
  | some alarm => linkCase db projection alarm.key (clearCase projection g)
  | none => clearCase projection g

/-- `tombstone_case`. -/
def tombstoneCase (caseId : String) (g : KnowledgeGraph) : KnowledgeGraph :=
  ((g.deleteRelations (ofCase caseId)).detachDelete ⟨.case, caseId⟩).deleteOrphans
    fun label => label = .action ∨ label = .faultCause

/-! ## Runs -/

inductive Operation
  | projectTemplate (template : TemplateProjection)
  | projectCase (projection : CaseProjection)
  | tombstoneCase (caseId : String)
  deriving DecidableEq, Repr

/-- The case that an operation is about. -/
def Operation.caseId : Operation → Option String
  | .projectTemplate _ => none
  | .projectCase projection => some projection.caseId
  | .tombstoneCase caseId => some caseId

def Operation.apply (db : Database) : Operation → KnowledgeGraph → KnowledgeGraph
  | .projectTemplate template => Graph.projectTemplate template
  | .projectCase projection => Graph.projectCase db projection
  | .tombstoneCase caseId => Graph.tombstoneCase caseId

/-- The graph after the operations, from an empty one. -/
def run (db : Database) (operations : List Operation) : KnowledgeGraph :=
  operations.foldl (fun g op => op.apply db g) ⟨[], []⟩

/-! ## Whose relation it is -/

/-- The case that a relation comes from. -/
def owner (r : Relation) : Option String :=
  if r.properties.sourceType = .case then some r.properties.sourceId else none

/-- Every mark of a case on a relation names its owner. -/
structure Owned (r : Relation) : Prop where
  caseId : ∀ caseId, r.properties.caseId = some caseId → owner r = some caseId
  source : r.source.label = .case → owner r = some r.source.id
  target : r.target.label ≠ .case

/-- The relations of the graph are owned. -/
def WellOwned (g : KnowledgeGraph) : Prop := ∀ r ∈ g.relations, Owned r

theorem ofCase_iff {r : Relation} (hr : Owned r) {caseId : String} :
    ofCase caseId r ↔ owner r = some caseId := by
  have howner : owner r = some caseId ↔
      r.properties.sourceType = .case ∧ r.properties.sourceId = caseId := by
    unfold owner
    split <;> simp_all
  rw [howner]
  simp only [ofCase, decide_eq_true_eq]
  constructor
  · rintro (hsource | ⟨-, hcase⟩)
    · exact hsource
    · exact howner.mp (hr.caseId caseId hcase)
  · exact Or.inl

theorem owner_of_template {r : Relation} (h : r.properties.sourceType = .template) :
    owner r = none := by
  unfold owner
  rw [if_neg (by simp [h])]

theorem sourceType_of_linksTemplate {kind : RelationKind} {source : Key} {label : Label}
    {r : Relation} (h : linksTemplate kind source label r) :
    r.properties.sourceType = .template := by
  simp only [linksTemplate, decide_eq_true_eq] at h
  exact h.2.2.1

/-- Templates are looked at through what no case owns. -/
theorem filter_linksTemplate {kind : RelationKind} {source : Key} {label : Label}
    {relations : List Relation} {keep : Relation → Bool}
    (hkeep : ∀ r ∈ relations, owner r = none → keep r) :
    (relations.filter keep).filter (linksTemplate kind source label) =
      relations.filter (linksTemplate kind source label) := by
  rw [List.filter_filter]
  apply List.filter_congr
  intro r hr
  cases hlinks : linksTemplate kind source label r with
  | false => rfl
  | true =>
      simp [hkeep r hr (owner_of_template (sourceType_of_linksTemplate hlinks))]

end EnergyAgent.Graph
