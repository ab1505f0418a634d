import EnergyAgent.Graph.Neo4j
import Mathlib.Data.List.Dedup
import Mathlib.Data.List.Sort

/-!
# `query_relations`

The read of the graph: the causes of the alarms that match a name, with what templates and cases say
about them. The order in which the database collects values and meets rows of equal rank is a
parameter.
-/

namespace EnergyAgent.Graph

open EnergyAgent.Lib

/-- `GraphRelation` -/
structure GraphRelation where
  alarmName : String
  faultCause : String
  component : Option String
  actions : List String
  supportCaseIds : List String
  supportCount : Nat
  templateIds : List String
  deriving DecidableEq, Repr

/-- A record of the result, before it is validated: a property can be `null`. -/
structure GraphRecord where
  alarmName : Option String
  faultCause : Option String
  component : Option String
  actions : List String
  supportCaseIds : List String
  supportCount : Nat
  templateIds : List String

/-- The order in which the database goes through values of its own. -/
structure Arrangement where
  arrange : ∀ {α : Type}, List α → List α
  perm : ∀ {α : Type} (values : List α), (arrange values).Perm values

/-- As the values come. -/
def Arrangement.plain : Arrangement where
  arrange := id
  perm := fun values => List.Perm.refl values

section query

variable (db : Database) (order : Arrangement) (g : KnowledgeGraph)

/-- The first condition of the `WHERE` clause; a comparison with `null` does not hold. -/
def alarmMatches (alarmName : String) (a : Node) : Bool :=
  (a.properties.name.any fun name => Text.contains (db.toLower name) (db.toLower alarmName) ||
    Text.contains (db.toLower alarmName) (db.toLower name)) ||
  Text.contains (db.toLower a.key.id) (db.toLower alarmName)

/-- `(:Label)-[r:KIND]->(:Label)` -/
def joins (kind : RelationKind) (source target : Label) (r : Relation) : Bool :=
  r.kind = kind ∧ r.source.label = source ∧ r.target.label = target

/-- The rows of the first `MATCH` that pass its `WHERE`: alarm, cause and the relation between them. -/
def causeRows (alarmName : String) (deviceType : Option String) : List (Node × Node × Relation) :=
  (g.relations.filter fun da => joins .hasAlarm .deviceType .alarm da ∧
      deviceType.all (fun device => da.source.id = device)).flatMap fun da =>
    (g.relations.filter fun af => joins .mayBeCausedBy .alarm .faultCause af ∧
        af.source = da.target).filterMap fun af =>
      match g.node? af.source, g.node? af.target with
      | some a, some f => if alarmMatches db alarmName a then some (a, f, af) else none
      | _, _ => none

/-- `collect(DISTINCT ...)` -/
def collect {α : Type} [DecidableEq α] (values : List α) : List α := order.arrange values.dedup

/-- The ids of the templates among the rows of a pair. -/
def templateIds (rows : List (Node × Node × Relation)) (a f : Node) : List String :=
  collect order ((rows.filter fun row => row.1 = a ∧ row.2.1 = f ∧
    row.2.2.properties.sourceType = .template).map fun row => row.2.2.properties.sourceId)

/-- The nodes that relations of the kind lead to from the cause. -/
def targets (kind : RelationKind) (label : Label) (f : Node) : List Node :=
  (g.relations.filter fun r => joins kind .faultCause label r ∧ r.source = f.key).filterMap
    fun r => g.node? r.target

/-- The ids of the cases that confirm the cause. -/
def supportIds (f : Node) : List String :=
  collect order ((g.relations.filter fun r => joins .confirms .case .faultCause r ∧ r.target = f.key ∧
    r.properties.active = some true).map fun r => r.source.id)

/-- What the query says about a pair of alarm and cause. -/
def recordOf (rows : List (Node × Node × Relation)) (a f : Node) : GraphRecord :=
  { alarmName := a.properties.name
    faultCause := f.properties.name
    component := (collect order (targets g .relatesTo .component f)).head?.bind
      fun node => node.properties.name
    actions := (collect order ((targets g .mitigatedBy .action f).filterMap
      fun node => node.properties.name)).take 10
    supportCaseIds := supportIds order g f
    supportCount := (supportIds order g f).length
    templateIds := templateIds order rows a f }

/-- The component is asked for and among those of the cause, or it is not asked for. -/
def componentMatches (component : Option String) (f : Node) : Bool :=
  component.all fun name => (targets g .relatesTo .component f).any fun node =>
    node.key.id = name ∨ node.properties.name = some name

/-- In ascending order `null` comes last. -/
def nameLe : Option String → Option String → Bool
  | _, none => true
  | none, some _ => false
  | some x, some y => x ≤ y

/-- `ORDER BY support_count DESC, fault_cause` -/
def ranksBefore (x y : GraphRecord) : Bool :=
  y.supportCount < x.supportCount ∨ (x.supportCount = y.supportCount ∧ nameLe x.faultCause y.faultCause)

/-- `GraphRelation.model_validate`; `none` is a `ValidationError`. -/
def GraphRecord.validate (record : GraphRecord) : Option GraphRelation := do
  let alarmName ← record.alarmName
  let faultCause ← record.faultCause
  return {
    alarmName, faultCause
    component := record.component
    actions := record.actions
    supportCaseIds := record.supportCaseIds
    supportCount := record.supportCount
    templateIds := record.templateIds }

/-- `query_relations` -/
def queryRelations (alarmName : String) (deviceType component : Option String) (topK : Nat) :
    Option (List GraphRelation) :=
  let rows := causeRows db g alarmName deviceType
  let pairs := collect order (rows.map fun row => (row.1, row.2.1))
  let records := (pairs.filter fun pair => componentMatches g component pair.2).map
    fun pair => recordOf order g rows pair.1 pair.2
  ((records.insertionSort fun x y => ranksBefore x y).take topK).mapM GraphRecord.validate

end query

section rows

variable {db : Database} {order : Arrangement} {g : KnowledgeGraph}

theorem mem_collect {α : Type} [DecidableEq α] {values : List α} {value : α} :
    value ∈ collect order values ↔ value ∈ values := by
  unfold collect
  rw [(order.perm _).mem_iff, List.mem_dedup]

theorem mem_causeRows {alarmName : String} {deviceType : Option String} {a f : Node} {af : Relation}
    (h : (a, f, af) ∈ causeRows db g alarmName deviceType) :
    af ∈ g.relations ∧ af.kind = .mayBeCausedBy ∧ g.node? af.source = some a ∧
      g.node? af.target = some f := by
  unfold causeRows at h
  obtain ⟨da, -, h⟩ := List.mem_flatMap.mp h
  obtain ⟨af', haf, h⟩ := List.mem_filterMap.mp h
  obtain ⟨hmem, hjoins⟩ := List.mem_filter.mp haf
  simp only [joins, decide_eq_true_eq] at hjoins
  split at h
  · next a' f' ha hf =>
      split at h
      · cases h
        exact ⟨hmem, hjoins.1.1, ha, hf⟩
      · cases h
  · cases h

/-- A value that was computed comes from one of the inputs. -/
theorem exists_of_mem_mapM_some {α β : Type} {f : α → Option β} {xs : List α} {ys : List β}
    (h : xs.mapM f = some ys) : ∀ y ∈ ys, ∃ x ∈ xs, f x = some y := by
  induction xs generalizing ys with
  | nil =>
      cases h
      exact fun y hy => absurd hy List.not_mem_nil
  | cons x xs ih =>
      rw [List.mapM_cons] at h
      obtain ⟨first, hfirst, h⟩ := Option.bind_eq_some_iff.mp h
      obtain ⟨rest, hrest, h⟩ := Option.bind_eq_some_iff.mp h
      cases h
      intro y hy
      rcases List.mem_cons.mp hy with rfl | hy
      · exact ⟨x, List.mem_cons_self .., hfirst⟩
      · obtain ⟨x', hx', hf⟩ := ih hrest y hy
        exact ⟨x', List.mem_cons_of_mem _ hx', hf⟩

theorem GraphRecord.names_of_validate {record : GraphRecord} {row : GraphRelation}
    (h : record.validate = some row) :
    record.alarmName = some row.alarmName ∧ record.faultCause = some row.faultCause := by
  unfold GraphRecord.validate at h
  obtain ⟨alarmName, halarm, h⟩ := Option.bind_eq_some_iff.mp h
  obtain ⟨faultCause, hfault, h⟩ := Option.bind_eq_some_iff.mp h
  cases h
  exact ⟨halarm, hfault⟩

/-- **Every row of the result rests on a relation** from an alarm to a cause of its names. -/
theorem queryRelations_supported {alarmName : String} {deviceType component : Option String}
    {topK : Nat} {result : List GraphRelation}
    (h : queryRelations db order g alarmName deviceType component topK = some result)
    {row : GraphRelation} (hrow : row ∈ result) :
    ∃ af ∈ g.relations, af.kind = .mayBeCausedBy ∧
      (∃ a, g.node? af.source = some a ∧ a.properties.name = some row.alarmName) ∧
      ∃ f, g.node? af.target = some f ∧ f.properties.name = some row.faultCause := by
  unfold queryRelations at h
  dsimp only at h
  obtain ⟨record, hrecord, hvalid⟩ := exists_of_mem_mapM_some h row hrow
  have hfound := (List.mem_insertionSort _).mp (List.mem_of_mem_take hrecord)
  obtain ⟨⟨a, f⟩, hpair, rfl⟩ := List.mem_map.mp hfound
  obtain ⟨⟨a', f', af⟩, hmatch, heq⟩ := List.mem_map.mp (mem_collect.mp (List.mem_of_mem_filter hpair))
  cases heq
  obtain ⟨haf, hkind, ha, hf⟩ := mem_causeRows hmatch
  obtain ⟨halarm, hfault⟩ := GraphRecord.names_of_validate hvalid
  exact ⟨af, haf, hkind, ⟨a', ha, halarm⟩, f', hf, hfault⟩

end rows

end EnergyAgent.Graph
