import Mathlib.Data.List.MinMax

/-!
# Property graphs

Nodes with a label and an id, and relations of a kind between them, both with properties: what a graph
database stores when a constraint makes the id unique within its label. The writes are those of its
query language: `MERGE` with the `SET` behind it, `DELETE` and `DETACH DELETE`. A relation list is
written on its own, since no write of relations looks at the nodes.
-/

namespace EnergyAgent.Lib

/-- What a node is found by. -/
structure NodeKey (L : Type) where
  label : L
  id : String
  deriving DecidableEq, Repr

namespace PropertyGraph

structure Node (L N : Type) where
  key : NodeKey L
  properties : N
  deriving DecidableEq, Repr

structure Relation (L K P : Type) where
  kind : K
  source : NodeKey L
  target : NodeKey L
  properties : P
  deriving DecidableEq, Repr

end PropertyGraph

/-- The state of the database. -/
structure PropertyGraph (L K N P : Type) where
  nodes : List (PropertyGraph.Node L N)
  relations : List (PropertyGraph.Relation L K P)
  deriving DecidableEq, Repr

namespace PropertyGraph

variable {L K N P : Type}

/-- `MATCH ()-[r]->() WHERE p DELETE r`. -/
def deleteRelations (p : Relation L K P → Bool) (g : PropertyGraph L K N P) :
    PropertyGraph L K N P :=
  { g with relations := g.relations.filter fun r => ¬ p r }

@[simp] theorem deleteRelations_relations {p : Relation L K P → Bool} {g : PropertyGraph L K N P} :
    (g.deleteRelations p).relations = g.relations.filter fun r => ¬ p r := rfl

variable [DecidableEq L]

/-! ## Nodes -/

/-- `MATCH (n:Label {id: $id})`. -/
def node? (g : PropertyGraph L K N P) (key : NodeKey L) : Option (Node L N) :=
  g.nodes.find? fun n => n.key = key

/-- The relation begins or ends at the node. -/
def Relation.touches (r : Relation L K P) (key : NodeKey L) : Bool :=
  r.source = key ∨ r.target = key

/-- `MERGE (n:Label {id: $id}) SET n...`: a node that is not there yet begins as `new`. -/
def mergeNode (key : NodeKey L) (new : N) (set : N → N) (g : PropertyGraph L K N P) :
    PropertyGraph L K N P :=
  { g with nodes :=
      if (g.node? key).isSome then
        g.nodes.map fun n => if n.key = key then { n with properties := set n.properties } else n
      else g.nodes ++ [⟨key, set new⟩] }

/-- `MATCH (n:Label {id: $id}) DETACH DELETE n`: the node goes with its relations. -/
def detachDelete (key : NodeKey L) (g : PropertyGraph L K N P) : PropertyGraph L K N P where
  nodes := g.nodes.filter fun n => n.key ≠ key
  relations := g.relations.filter fun r => ¬ r.touches key

/-- `MATCH (n) WHERE p(n) AND NOT (n)--() DELETE n`. -/
def deleteOrphans (p : L → Bool) (g : PropertyGraph L K N P) : PropertyGraph L K N P :=
  { g with nodes := g.nodes.filter fun n =>
      ¬ (p n.key.label ∧ g.relations.all fun r => ¬ r.touches n.key) }

section nodes

variable {g : PropertyGraph L K N P} {key k : NodeKey L} {newNode : N} {setNode : N → N}

@[simp] theorem mergeNode_relations :
    (g.mergeNode key newNode setNode).relations = g.relations := rfl

@[simp] theorem deleteRelations_node? {p : Relation L K P → Bool} :
    (g.deleteRelations p).node? k = g.node? k := rfl

@[simp] theorem deleteOrphans_relations {p : L → Bool} :
    (g.deleteOrphans p).relations = g.relations := rfl

theorem mergeNode_node?_self :
    (g.mergeNode key newNode setNode).node? key =
      some ⟨key, setNode (((g.node? key).map Node.properties).getD newNode)⟩ := by
  unfold mergeNode node?
  by_cases hsome : (g.nodes.find? fun n => n.key = key).isSome
  · obtain ⟨n, hn⟩ := Option.isSome_iff_exists.mp hsome
    have hkey : n.key = key := by simpa using List.find?_some hn
    simp only [hn, Option.isSome_some, if_true, List.find?_map, Function.comp_def, Option.map_some,
      Option.getD_some]
    have hsame : (fun m : Node L N =>
        decide ((if m.key = key then { m with properties := setNode m.properties } else m).key = key)) =
        fun m => decide (m.key = key) := by
      funext m
      by_cases hm : m.key = key <;> simp [hm]
    rw [hsame, hn]
    simp [hkey]
  · rw [Bool.not_eq_true, Option.isSome_eq_false_iff, Option.isNone_iff_eq_none] at hsome
    simp [hsome]

theorem mergeNode_node?_ne (hne : k ≠ key) :
    (g.mergeNode key newNode setNode).node? k = g.node? k := by
  unfold mergeNode node?
  split
  · rw [List.find?_map]
    have hsame : (fun m : Node L N => decide (m.key = k)) ∘
        (fun m => if m.key = key then { m with properties := setNode m.properties } else m) =
        fun m => decide (m.key = k) := by
      funext m
      by_cases hm : m.key = key <;> simp [hm]
    rw [hsame]
    cases hfound : g.nodes.find? fun m => decide (m.key = k) with
    | none => rfl
    | some m =>
        have hkey : m.key = k := by simpa using List.find?_some hfound
        simp [hkey, hne]
  · rw [List.find?_append]
    simp [Ne.symm hne]

/-- A node that a write leaves is found as before. -/
theorem node?_filter {p : Node L N → Bool} {relations : List (Relation L K P)}
    (hp : ∀ n, n.key = key → p n) :
    node? ⟨g.nodes.filter p, relations⟩ key = g.node? key := by
  unfold node?
  rw [List.find?_filter]
  congr 1
  funext n
  by_cases hn : n.key = key
  · simp [hn, hp n hn]
  · simp [hn]

theorem detachDelete_node?_self : (g.detachDelete key).node? key = none := by
  unfold detachDelete node?
  rw [List.find?_eq_none]
  intro n hn
  simpa using (List.mem_filter.mp hn).2

theorem detachDelete_node?_ne (hne : k ≠ key) : (g.detachDelete key).node? k = g.node? k := by
  apply node?_filter
  intro n hn
  simpa [hn] using hne

/-- A node with a relation is no orphan. -/
theorem deleteOrphans_node?_of_touched {p : L → Bool} {r : Relation L K P} (hr : r ∈ g.relations)
    (htouch : r.touches key) : (g.deleteOrphans p).node? key = g.node? key := by
  apply node?_filter
  intro n hn
  simp only [decide_not, Bool.not_eq_eq_eq_not, Bool.not_true, decide_eq_false_iff_not, not_and,
    List.all_eq_true, Bool.not_eq_true, not_forall]
  intro _
  exact ⟨r, hr, by simp [hn, htouch]⟩

theorem deleteOrphans_node?_of_label {p : L → Bool} (hlabel : p key.label = false) :
    (g.deleteOrphans p).node? key = g.node? key := by
  apply node?_filter
  intro n hn
  simp [hn, hlabel]

end nodes

/-! ## Merging relations -/

section merge

variable [DecidableEq K]

/-- The relation is of this kind, between these nodes, and its properties fit the pattern. -/
def Relation.fits (kind : K) (source target : NodeKey L) (pattern : P → Bool) (r : Relation L K P) :
    Bool :=
  r.kind = kind ∧ r.source = source ∧ r.target = target ∧ pattern r.properties

/-- `MERGE (s)-[r:KIND {...}]->(t) SET r...` among these relations: those that fit the pattern are set;
if there is none, one is created as `new` and set. -/
def mergeInto (kind : K) (source target : NodeKey L) (pattern : P → Bool) (new : P) (set : P → P)
    (relations : List (Relation L K P)) : List (Relation L K P) :=
  if relations.any (Relation.fits kind source target pattern) then
    relations.map fun r =>
      if r.fits kind source target pattern then { r with properties := set r.properties } else r
  else relations ++ [⟨kind, source, target, set new⟩]

def mergeRelation (kind : K) (source target : NodeKey L) (pattern : P → Bool) (new : P)
    (set : P → P) (g : PropertyGraph L K N P) : PropertyGraph L K N P :=
  { g with relations := mergeInto kind source target pattern new set g.relations }

variable {kind : K} {source target : NodeKey L} {pattern : P → Bool} {new : P} {set : P → P}
  {relations : List (Relation L K P)}

@[simp] theorem mergeRelation_relations {g : PropertyGraph L K N P} :
    (g.mergeRelation kind source target pattern new set).relations =
      mergeInto kind source target pattern new set g.relations := rfl

@[simp] theorem mergeRelation_node? {g : PropertyGraph L K N P} {key : NodeKey L} :
    (g.mergeRelation kind source target pattern new set).node? key = g.node? key := rfl

/-- What is merged without a `SET`, or is not there yet, is only added. -/
theorem mergeInto_of_absent
    (h : ∀ r ∈ relations, r.fits kind source target pattern = false) :
    mergeInto kind source target pattern new set relations =
      relations ++ [⟨kind, source, target, set new⟩] := by
  unfold mergeInto
  rw [if_neg]
  intro hany
  obtain ⟨r, hr, hfits⟩ := List.any_eq_true.mp hany
  rw [h r hr] at hfits
  cases hfits

theorem mem_mergeInto_id {r : Relation L K P} :
    r ∈ mergeInto kind source target pattern new id relations →
      r ∈ relations ∨ r = ⟨kind, source, target, new⟩ := by
  unfold mergeInto
  split
  · intro hr
    obtain ⟨s, hs, rfl⟩ := List.mem_map.mp hr
    left
    split <;> exact hs
  · intro hr
    rcases List.mem_append.mp hr with hold | hnew
    · exact Or.inl hold
    · exact Or.inr (List.mem_singleton.mp hnew)

theorem mem_mergeInto_of_mem {r : Relation L K P} (hr : r ∈ relations) :
    r ∈ mergeInto kind source target pattern new id relations := by
  unfold mergeInto
  split
  · refine List.mem_map.mpr ⟨r, hr, ?_⟩
    split <;> rfl
  · exact List.mem_append_left _ hr

/-- Behind a merge there is what was asked for. -/
theorem exists_fits_mergeInto_id (hnew : pattern new) :
    ∃ r ∈ mergeInto kind source target pattern new id relations, r.fits kind source target pattern := by
  unfold mergeInto
  split
  · next hany =>
      obtain ⟨r, hr, hfits⟩ := List.any_eq_true.mp hany
      refine ⟨r, List.mem_map.mpr ⟨r, hr, ?_⟩, hfits⟩
      split <;> rfl
  · exact ⟨_, List.mem_append_right _ (List.mem_singleton_self _),
      by simp only [Relation.fits, id_eq, hnew, and_self, decide_true]⟩

/-- A merge among the relations of one owner does not see those of the others. -/
theorem filter_mergeInto {keep : Relation L K P → Bool}
    (hfits : ∀ r ∈ relations, r.fits kind source target pattern → keep r)
    (hnew : keep ⟨kind, source, target, new⟩) :
    (mergeInto kind source target pattern new id relations).filter keep =
      mergeInto kind source target pattern new id (relations.filter keep) := by
  have hany : (relations.filter keep).any (Relation.fits kind source target pattern) =
      relations.any (Relation.fits kind source target pattern) := by
    rw [List.any_filter, Bool.eq_iff_iff, List.any_eq_true, List.any_eq_true]
    refine exists_congr fun r => and_congr_right fun hr => ?_
    rw [Bool.and_eq_true]
    exact and_iff_right_of_imp (hfits r hr)
  have hmap : ∀ rs : List (Relation L K P), (rs.map fun r =>
      if r.fits kind source target pattern then { r with properties := id r.properties } else r) = rs := by
    intro rs
    apply List.map_id''
    intro r
    split <;> rfl
  unfold mergeInto
  rw [hany]
  split
  · rw [hmap, hmap]
  · rw [List.filter_append]
    simp [hnew]

end merge

/-! ## What a query leaves open -/

/-- `ORDER BY size DESC LIMIT 1`: one of the largest rows, if there is a row. Which one of those is for
the database to say. -/
structure RowChoice (α : Type) (size : α → Nat) where
  pick : List α → Option α
  mem : ∀ {rows row}, pick rows = some row → row ∈ rows
  found : ∀ {rows}, rows ≠ [] → (pick rows).isSome
  largest : ∀ {rows row}, pick rows = some row → ∀ other ∈ rows, size other ≤ size row

theorem RowChoice.pick_nil {α : Type} {size : α → Nat} (choice : RowChoice α size) :
    choice.pick [] = none := by
  cases h : choice.pick [] with
  | none => rfl
  | some row => cases choice.mem h

theorem RowChoice.pick_eq_none {α : Type} {size : α → Nat} (choice : RowChoice α size)
    {rows : List α} : choice.pick rows = none ↔ rows = [] := by
  constructor
  · intro hnone
    by_contra hne
    have hfound := choice.found hne
    rw [hnone] at hfound
    cases hfound
  · rintro rfl
    exact choice.pick_nil

/-- The first of the largest. -/
def RowChoice.first {α : Type} (size : α → Nat) : RowChoice α size where
  pick := List.argmax size
  mem := fun h => List.argmax_mem h
  found := by
    intro rows hne
    rw [Option.isSome_iff_ne_none]
    exact mt List.argmax_eq_none.mp hne
  largest := fun h _ hother => List.le_of_mem_argmax hother h

end PropertyGraph

end EnergyAgent.Lib
