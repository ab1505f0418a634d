import EnergyAgent.Lib.JsonSchema

/-!
# Strict schemas

`_openai_strict_schema` of `model/gateway.py`: every schema with properties requires all of them and
allows no others, and no schema has a default. `visit` goes through all dictionaries alike, so that it
takes a dictionary of names, or of data, for a schema when the names happen to be keywords.
-/

namespace EnergyAgent.Model

open EnergyAgent.Lib EnergyAgent.Lib.Json

/-! ## The conversion -/

/-- `list(node["properties"])`, if the value is a dictionary. -/
def propertyNames (node : List (String × Json)) : Option (List String) :=
  match field node "properties" with
  | some (.obj properties) => some (properties.map Prod.fst)
  | _ => none

/-- What `visit` does to a dictionary before it goes on to the values. -/
def strictNode (names : Option (List String)) (node : List (String × Json)) : List (String × Json) :=
  let node := match names with
    | some names =>
        setField (setField node "required" (.arr (names.map .str))) "additionalProperties" (.bool false)
    | none => node
  dropField node "default"

mutual

/-- `visit`. Here the values are visited before the dictionary is changed: what it gets holds no
dictionary. In the order of the source it is `visit_obj`. -/
def visit : Json → Json
  | .obj node => .obj (strictNode (propertyNames node) (visitValues node))
  | .arr items => .arr (visitItems items)
  | value => value

def visitValues : List (String × Json) → List (String × Json)
  | [] => []
  | (name, value) :: rest => (name, visit value) :: visitValues rest

def visitItems : List Json → List Json
  | [] => []
  | item :: items => visit item :: visitItems items

end

/-- The schema of the caller, and the copy that is changed. -/
structure SchemaCopies where
  schema : Json
  strict : Json

def deepcopy (schema : Json) : SchemaCopies where
  schema := schema
  strict := schema

/-- `_openai_strict_schema`; it returns `strict`. -/
def openaiStrictSchema (schema : Json) : SchemaCopies :=
  let copies := deepcopy schema
  { copies with strict := visit copies.strict }

theorem visitValues_eq (node : List (String × Json)) : visitValues node = mapValues visit node := by
  induction node with
  | nil => rfl
  | cons entry node ih =>
      unfold visitValues
      rw [ih]
      rfl

theorem visitItems_eq (items : List Json) : visitItems items = items.map visit := by
  induction items with
  | nil => rfl
  | cons item items ih =>
      unfold visitItems
      rw [ih, List.map_cons]

theorem visit_arr (items : List Json) : visit (.arr items) = .arr (items.map visit) := by
  rw [visit, visitItems_eq]

@[simp] theorem visit_names (names : List String) :
    visit (.arr (names.map .str)) = .arr (names.map .str) := by
  rw [visit_arr, List.map_map]
  congr 1

@[simp] theorem visit_bool (b : Bool) : visit (.bool b) = .bool b := rfl

/-- First the dictionary, then its values. -/
theorem visit_obj (node : List (String × Json)) :
    visit (.obj node) = .obj (mapValues visit (strictNode (propertyNames node) node)) := by
  rw [visit, visitValues_eq]
  unfold strictNode
  rw [mapValues_dropField]
  cases propertyNames node with
  | none => rfl
  | some names => rw [mapValues_setField (visit_bool false), mapValues_setField (visit_names names)]

/-! ## What the conversion should do -/

/-- The keywords that the conversion is about: the others are to stay. -/
def rewritten (node : List (String × Json)) (name : String) : Bool :=
  name = "default" ||
    (propertyNames node).isSome && (name = "required" || name = "additionalProperties")

/-- The second value is the first in strict form. -/
inductive StrictForm : SchemaRole → Json → Json → Prop
  | schema {node node' : List (String × Json)}
      (noDefault : field node' "default" = none)
      (required : ∀ names, propertyNames node = some names →
        field node' "required" = some (.arr (names.map .str)))
      (closed : (propertyNames node).isSome → field node' "additionalProperties" = some (.bool false))
      (keywords : ∀ name, rewritten node name = false →
        (field node' name).isSome = (field node name).isSome)
      (unchanged : ∀ name v v', rewritten node name = false → field node name = some v →
        field node' name = some v' → StrictForm (keywordRole name) v v') :
      StrictForm .schema (.obj node) (.obj node')
  | schemas {items items' : List Json} (length : items'.length = items.length)
      (item : ∀ (i : Nat) v v', items[i]? = some v → items'[i]? = some v' → StrictForm .schema v v') :
      StrictForm .schema (.arr items) (.arr items')
  | always (b : Bool) : StrictForm .schema (.bool b) (.bool b)
  | names {entries entries' : List (String × Json)}
      (names : entries'.map Prod.fst = entries.map Prod.fst)
      (entry : ∀ name v v', field entries name = some v → field entries' name = some v' →
        StrictForm .schema v v') :
      StrictForm .names (.obj entries) (.obj entries')
  | data (v : Json) : StrictForm .data v v

/-- The conversion as its callers need it. -/
structure StrictConversion (schema : Json) : Prop where
  strictForm : StrictForm .schema schema (openaiStrictSchema schema).strict
  unmodified : (openaiStrictSchema schema).schema = schema
  idempotent : (openaiStrictSchema (openaiStrictSchema schema).strict).strict =
    (openaiStrictSchema schema).strict

/-! ## Dictionaries that are no schemas -/

def asString : Json → Option String
  | .str s => some s
  | _ => none

/-- `required` and `additionalProperties` are what the conversion would write. -/
def closedBy (names : List String) (node : List (String × Json)) : Bool :=
  match field node "required", field node "additionalProperties" with
  | some (.arr items), some (.bool false) => items.map asString = names.map some
  | _, _ => false

/-- The conversion does not change the dictionary, apart from its values. -/
def untouched (node : List (String × Json)) : Bool :=
  (field node "default").isNone && (propertyNames node).all fun names => closedBy names node

mutual

/-- Every dictionary below that is no schema is `untouched`. What the conversion drops or replaces
does not count. -/
def spared (role : SchemaRole) : Json → Bool
  | .obj node => (role = .schema || untouched node) && sparedValues role (rewritten node) node
  | .arr items => sparedItems role items
  | _ => true

def sparedValues (role : SchemaRole) (skip : String → Bool) : List (String × Json) → Bool
  | [] => true
  | (name, value) :: rest =>
      (role = .schema && skip name || spared (role.entry name) value) && sparedValues role skip rest

def sparedItems (role : SchemaRole) : List Json → Bool
  | [] => true
  | item :: items => spared role item && sparedItems role items

end

theorem sparedValues_iff {role : SchemaRole} {skip : String → Bool} {node : List (String × Json)} :
    sparedValues role skip node = true ↔
      ∀ e ∈ node, (role = .schema ∧ skip e.1 = true) ∨ spared (role.entry e.1) e.2 = true := by
  induction node with
  | nil => simp [sparedValues]
  | cons e node ih =>
      rw [List.forall_mem_cons, sparedValues, Bool.and_eq_true, ih]
      simp only [Bool.or_eq_true, Bool.and_eq_true, decide_eq_true_eq]

theorem sparedItems_iff {role : SchemaRole} {items : List Json} :
    sparedItems role items = true ↔ ∀ item ∈ items, spared role item = true := by
  induction items with
  | nil => simp [sparedItems]
  | cons item items ih => simp only [sparedItems, Bool.and_eq_true, ih, List.forall_mem_cons]

theorem spared_obj {role : SchemaRole} {node : List (String × Json)} :
    spared role (.obj node) = true ↔ (role = .schema ∨ untouched node = true) ∧
      ∀ e ∈ node, (role = .schema ∧ rewritten node e.1 = true) ∨ spared (role.entry e.1) e.2 = true := by
  rw [spared, Bool.and_eq_true, Bool.or_eq_true, decide_eq_true_eq, sparedValues_iff]

theorem spared_arr {role : SchemaRole} {items : List Json} :
    spared role (.arr items) = true ↔ ∀ item ∈ items, spared role item = true := by
  rw [spared, sparedItems_iff]

/-! ## One dictionary -/

section node

variable {node : List (String × Json)}

theorem map_asString {items : List Json} {names : List String} :
    items.map asString = names.map some ↔ items = names.map .str := by
  constructor
  · intro h
    induction items generalizing names with
    | nil =>
        cases names with
        | nil => rfl
        | cons name names => cases h
    | cons item items ih =>
        cases names with
        | nil => cases h
        | cons name names =>
            rw [List.map_cons, List.map_cons, List.cons.injEq] at h
            obtain ⟨hitem, hitems⟩ := h
            rw [ih hitems, List.map_cons]
            cases item with
            | str s => rw [Option.some.inj hitem]
            | _ => cases hitem
  · rintro rfl
    rw [List.map_map]
    rfl

theorem closedBy_iff {names : List String} : closedBy names node = true ↔
    field node "required" = some (.arr (names.map .str)) ∧
      field node "additionalProperties" = some (.bool false) := by
  unfold closedBy
  constructor
  · intro h
    split at h
    · next items hrequired hclosed =>
        rw [decide_eq_true_eq, map_asString] at h
        subst h
        exact ⟨hrequired, hclosed⟩
    · cases h
  · rintro ⟨hrequired, hclosed⟩
    rw [hrequired, hclosed]
    simp only [decide_eq_true_eq, map_asString]

theorem untouched_iff : untouched node = true ↔ field node "default" = none ∧
    ∀ names, propertyNames node = some names →
      field node "required" = some (.arr (names.map .str)) ∧
        field node "additionalProperties" = some (.bool false) := by
  unfold untouched
  rw [Bool.and_eq_true, Option.isNone_iff_eq_none, Option.all_eq_true]
  simp only [closedBy_iff]

theorem strictNode_untouched (hnodup : (node.map Prod.fst).Nodup) {names : Option (List String)}
    (hdefault : field node "default" = none)
    (hnames : ∀ listed, names = some listed → field node "required" = some (.arr (listed.map .str)) ∧
      field node "additionalProperties" = some (.bool false)) : strictNode names node = node := by
  unfold strictNode
  cases names with
  | none => exact dropField_eq_self hdefault
  | some listed =>
      obtain ⟨hrequired, hclosed⟩ := hnames listed rfl
      simp only [setField_eq_self hnodup hrequired, setField_eq_self hnodup hclosed]
      exact dropField_eq_self hdefault

theorem field_strictNode_default (names : Option (List String)) :
    field (strictNode names node) "default" = none := by
  unfold strictNode
  rw [field_dropField, if_pos rfl]

theorem field_strictNode_required (names : List String) :
    field (strictNode (some names) node) "required" = some (.arr (names.map .str)) := by
  unfold strictNode
  rw [field_dropField, if_neg (by decide), field_setField_ne _ (by decide), field_setField_self]

theorem field_strictNode_closed (names : List String) :
    field (strictNode (some names) node) "additionalProperties" = some (.bool false) := by
  unfold strictNode
  rw [field_dropField, if_neg (by decide), field_setField_self]

theorem field_strictNode {name : String} (h : rewritten node name = false) :
    field (strictNode (propertyNames node) node) name = field node name := by
  unfold rewritten at h
  rw [Bool.or_eq_false_iff, decide_eq_false_iff_not] at h
  obtain ⟨hdefault, hshape⟩ := h
  unfold strictNode
  rw [field_dropField, if_neg hdefault]
  cases hnames : propertyNames node with
  | none => rfl
  | some names =>
      rw [hnames, Option.isSome_some, Bool.true_and, Bool.or_eq_false_iff, decide_eq_false_iff_not,
        decide_eq_false_iff_not] at hshape
      rw [field_setField_ne _ hshape.2, field_setField_ne _ hshape.1]

theorem rewritten_properties : rewritten node "properties" = false := by
  unfold rewritten
  simp

theorem nodup_strictNode (hnodup : (node.map Prod.fst).Nodup) (names : Option (List String)) :
    ((strictNode names node).map Prod.fst).Nodup := by
  unfold strictNode
  apply nodup_dropField
  cases names with
  | none => exact hnodup
  | some names => exact nodup_setField (nodup_setField hnodup _) _

/-- A value of the changed dictionary was there before, or it stays as it is when visited. -/
theorem mem_strictNode (hnodup : (node.map Prod.fst).Nodup) {e : String × Json}
    (h : e ∈ strictNode (propertyNames node) node) :
    (e ∈ node ∧ rewritten node e.1 = false) ∨ visit e.2 = e.2 := by
  have hfield := field_of_mem (nodup_strictNode hnodup (propertyNames node)) h
  cases hrewritten : rewritten node e.1 with
  | false =>
      rw [field_strictNode hrewritten] at hfield
      exact .inl ⟨mem_of_field hfield, rfl⟩
  | true =>
      right
      unfold rewritten at hrewritten
      rw [Bool.or_eq_true, Bool.and_eq_true, Bool.or_eq_true, decide_eq_true_eq, decide_eq_true_eq,
        decide_eq_true_eq] at hrewritten
      rcases hrewritten with hdefault | ⟨hsome, hshape⟩
      · rw [hdefault, field_strictNode_default] at hfield
        cases hfield
      · obtain ⟨names, hnames⟩ := Option.isSome_iff_exists.mp hsome
        rw [hnames] at hfield
        rcases hshape with hrequired | hclosed
        · rw [hrequired, field_strictNode_required] at hfield
          rw [← Option.some.inj hfield, visit_names]
        · rw [hclosed, field_strictNode_closed] at hfield
          rw [← Option.some.inj hfield, visit_bool]

/-- The names of the properties are visited as a dictionary, which must not lose any. -/
theorem propertyNames_mapValues
    (h : ∀ properties, field node "properties" = some (.obj properties) →
      strictNode (propertyNames properties) properties = properties) :
    propertyNames (mapValues visit (strictNode (propertyNames node) node)) = propertyNames node := by
  have hvalue : field (mapValues visit (strictNode (propertyNames node) node)) "properties" =
      (field node "properties").map visit := by
    rw [field_mapValues, field_strictNode rewritten_properties]
  unfold propertyNames at hvalue ⊢
  rw [hvalue]
  cases hproperties : field node "properties" with
  | none => rfl
  | some value =>
      cases value with
      | obj properties =>
          rw [Option.map_some, visit_obj, h properties hproperties]
          simp only [names_mapValues]
      | arr items => rw [Option.map_some, visit_arr]
      | _ => rfl

/-- A second visit changes nothing if the names of the properties are still there, and if it changes
no value. -/
theorem visit_visit_obj (hnodup : (node.map Prod.fst).Nodup)
    (hnames : propertyNames (mapValues visit (strictNode (propertyNames node) node)) =
      propertyNames node)
    (hvalues : ∀ e ∈ node, rewritten node e.1 = false → visit (visit e.2) = visit e.2) :
    visit (visit (.obj node)) = visit (.obj node) := by
  rw [visit_obj, visit_obj, hnames]
  have hkeys : ((mapValues visit (strictNode (propertyNames node) node)).map Prod.fst).Nodup := by
    rw [names_mapValues]
    exact nodup_strictNode hnodup _
  have hsame : strictNode (propertyNames node)
      (mapValues visit (strictNode (propertyNames node) node)) =
      mapValues visit (strictNode (propertyNames node) node) := by
    apply strictNode_untouched hkeys
    · rw [field_mapValues, field_strictNode_default]
      rfl
    · intro names hlisted
      rw [hlisted, field_mapValues, field_mapValues, field_strictNode_required,
        field_strictNode_closed]
      exact ⟨congrArg some (visit_names names), rfl⟩
  rw [hsame]
  congr 1
  unfold mapValues
  rw [List.map_map]
  refine List.map_congr_left fun e he => ?_
  simp only [Function.comp_apply]
  rcases mem_strictNode hnodup he with ⟨hmem, hkept⟩ | hfixed
  · rw [hvalues e hmem hkept]
  · rw [hfixed, hfixed]

end node

/-! ## The whole walk -/

/-- The result is in strict form, and a second walk leaves it so. -/
structure Converts (role : SchemaRole) (value : Json) : Prop where
  strictForm : StrictForm role value (visit value)
  twice : visit (visit value) = visit value

theorem Converts.of_fixed {value : Json} (h : visit value = value) : Converts .data value where
  strictForm := by
    rw [h]
    exact .data value
  twice := by rw [h, h]

theorem StrictForm.eq_of_data {v v' : Json} (h : StrictForm .data v v') : v' = v := by
  cases h
  rfl

theorem converts_schema {node : List (String × Json)} (hnodup : (node.map Prod.fst).Nodup)
    (hproperties : ∀ properties, field node "properties" = some (.obj properties) →
      strictNode (propertyNames properties) properties = properties)
    (h : ∀ e ∈ node, rewritten node e.1 = false → Converts (keywordRole e.1) e.2) :
    Converts .schema (.obj node) where
  strictForm := by
    rw [visit_obj]
    refine .schema ?_ ?_ ?_ ?_ ?_
    · rw [field_mapValues, field_strictNode_default]
      rfl
    · intro names hnames
      rw [hnames, field_mapValues, field_strictNode_required]
      exact congrArg some (visit_names names)
    · intro hsome
      obtain ⟨names, hnames⟩ := Option.isSome_iff_exists.mp hsome
      rw [hnames, field_mapValues, field_strictNode_closed]
      rfl
    · intro name hname
      rw [field_mapValues, field_strictNode hname, Option.isSome_map]
    · intro name v v' hname hv hv'
      rw [field_mapValues, field_strictNode hname, hv, Option.map_some, Option.some.injEq] at hv'
      subst hv'
      exact (h (name, v) (mem_of_field hv) hname).strictForm
  twice := visit_visit_obj hnodup (propertyNames_mapValues hproperties)
    fun e he hname => (h e he hname).twice

theorem converts_schemas {items : List Json} (h : ∀ item ∈ items, Converts .schema item) :
    Converts .schema (.arr items) where
  strictForm := by
    rw [visit_arr]
    refine .schemas (List.length_map visit) ?_
    intro i v v' hv hv'
    rw [List.getElem?_map, hv, Option.map_some, Option.some.injEq] at hv'
    subst hv'
    exact (h v (List.mem_of_getElem? hv)).strictForm
  twice := by
    rw [visit_arr, visit_arr, List.map_map]
    congr 1
    exact List.map_congr_left fun item hitem => (h item hitem).twice

theorem converts_names {entries : List (String × Json)} (hnodup : (entries.map Prod.fst).Nodup)
    (hdefault : field entries "default" = none) (hproperties : propertyNames entries = none)
    (h : ∀ e ∈ entries, Converts .schema e.2) : Converts .names (.obj entries) := by
  have hsame : strictNode (propertyNames entries) entries = entries := by
    rw [hproperties]
    exact dropField_eq_self hdefault
  constructor
  · rw [visit_obj, hsame]
    refine .names (names_mapValues visit) ?_
    intro name v v' hv hv'
    rw [field_mapValues, hv, Option.map_some, Option.some.injEq] at hv'
    subst hv'
    exact (h (name, v) (mem_of_field hv)).strictForm
  · refine visit_visit_obj hnodup (propertyNames_mapValues ?_) fun e he _ => (h e he).twice
    intro properties hfield
    unfold propertyNames at hproperties
    rw [hfield] at hproperties
    cases hproperties

theorem visit_leaf {value : Json} (hitems : ∀ items, value ≠ .arr items)
    (hnode : ∀ node, value ≠ .obj node) : visit value = value := by
  cases value with
  | arr items => exact absurd rfl (hitems items)
  | obj node => exact absurd rfl (hnode node)
  | _ => rfl

/-- Where a schema is named there is no list, so that `required` is no name of an `untouched`
dictionary with `properties`. -/
theorem untouched_names {entries : List (String × Json)} (hvalues : ∀ e ∈ entries, e.2.asList = none)
    (h : untouched entries = true) : field entries "default" = none ∧ propertyNames entries = none := by
  obtain ⟨hdefault, hclosed⟩ := untouched_iff.mp h
  refine ⟨hdefault, ?_⟩
  cases hnames : propertyNames entries with
  | none => rfl
  | some names =>
      have hrequired := mem_of_field (hclosed names hnames).1
      cases hvalues _ hrequired

/-- Data that is spared does not change. -/
theorem visit_of_spared (value : Json) : SchemaRole.data.allows value = true →
    spared .data value = true → visit value = value := by
  induction value using nested with
  | leaf value hitems hnode => exact fun _ _ => visit_leaf hitems hnode
  | arr items ih =>
      intro hallowed hspared
      obtain ⟨-, hallowed⟩ := SchemaRole.allows_arr hallowed
      rw [spared_arr] at hspared
      rw [visit_arr]
      congr 1
      conv_rhs => rw [← List.map_id items]
      exact List.map_congr_left fun item hitem => ih item hitem (hallowed item hitem) (hspared item hitem)
  | obj node ih =>
      intro hallowed hspared
      obtain ⟨hnodup, hallowed⟩ := SchemaRole.allows_obj hallowed
      obtain ⟨hself, hvalues⟩ := spared_obj.mp hspared
      obtain ⟨hdefault, hclosed⟩ := untouched_iff.mp (hself.resolve_left nofun)
      rw [visit_obj, strictNode_untouched hnodup hdefault hclosed]
      congr 1
      unfold mapValues
      conv_rhs => rw [← List.map_id node]
      refine List.map_congr_left fun e he => ?_
      have hvalue := (hvalues e he).resolve_left fun h => nomatch h.1
      rw [ih e he (hallowed e he).2 hvalue]
      rfl

theorem converts_of_spared (value : Json) : ∀ role : SchemaRole, role.allows value = true →
    spared role value = true → Converts role value := by
  induction value using nested with
  | leaf value hitems hnode =>
      intro role hallowed _
      have hfixed := visit_leaf hitems hnode
      cases role with
      | data => exact .of_fixed hfixed
      | names =>
          cases value with
          | obj node => exact absurd rfl (hnode node)
          | _ => cases hallowed
      | schema =>
          cases value with
          | bool b => exact ⟨.always b, rfl⟩
          | arr items => exact absurd rfl (hitems items)
          | obj node => exact absurd rfl (hnode node)
          | _ => cases hallowed
  | arr items ih =>
      intro role hallowed hspared
      cases role with
      | data => exact .of_fixed (visit_of_spared _ hallowed hspared)
      | names => cases hallowed
      | schema =>
          obtain ⟨-, hallowed⟩ := SchemaRole.allows_arr hallowed
          rw [spared_arr] at hspared
          exact converts_schemas fun item hitem =>
            ih item hitem .schema (hallowed item hitem) (hspared item hitem)
  | obj node ih =>
      intro role hallowed hspared
      cases role with
      | data => exact .of_fixed (visit_of_spared _ hallowed hspared)
      | names =>
          obtain ⟨hnodup, hallowed⟩ := SchemaRole.allows_obj hallowed
          obtain ⟨hself, hvalues⟩ := spared_obj.mp hspared
          obtain ⟨hdefault, hproperties⟩ := untouched_names (fun e he => (hallowed e he).1 rfl)
            (hself.resolve_left nofun)
          refine converts_names hnodup hdefault hproperties fun e he => ?_
          exact ih e he .schema (hallowed e he).2 ((hvalues e he).resolve_left fun h => nomatch h.1)
      | schema =>
          obtain ⟨hnodup, hallowed⟩ := SchemaRole.allows_obj hallowed
          obtain ⟨-, hvalues⟩ := spared_obj.mp hspared
          refine converts_schema hnodup ?_ fun e he hname => ?_
          · intro properties hfield
            have hmem := mem_of_field hfield
            have hentry := (hvalues _ hmem).resolve_left fun h => by
              rw [rewritten_properties] at h
              cases h.2
            obtain ⟨hself, -⟩ := spared_obj.mp hentry
            obtain ⟨hdefault, hclosed⟩ := untouched_iff.mp (hself.resolve_left nofun)
            obtain ⟨hkeys, -⟩ := SchemaRole.allows_obj (hallowed _ hmem).2
            exact strictNode_untouched hkeys hdefault hclosed
          · refine ih e he (keywordRole e.1) (hallowed e he).2 ?_
            refine (hvalues e he).resolve_left fun h => ?_
            rw [hname] at h
            cases h.2

/-- A dictionary that keeps its names has no default and, where names stand for schemas, no dictionary
of properties. -/
theorem untouched_of_names {entries : List (String × Json)}
    (hvalues : ∀ e ∈ entries, e.2.asList = none)
    (h : StrictForm .names (.obj entries) (visit (.obj entries))) : untouched entries = true := by
  rw [visit_obj] at h
  cases h with
  | names hnames hentry =>
    rw [names_mapValues] at hnames
    refine untouched_iff.mpr ⟨?_, ?_⟩
    · by_contra hdefault
      obtain ⟨value, hvalue⟩ := Option.ne_none_iff_exists'.mp hdefault
      have hmem := mem_names hvalue
      rw [← hnames] at hmem
      have hsome := field_isSome hmem
      rw [field_strictNode_default] at hsome
      cases hsome
    · intro names hlisted
      exfalso
      have hwritten : field (strictNode (some names) entries) "required" =
          some (.arr (names.map .str)) := field_strictNode_required names
      rw [← hlisted] at hwritten
      have hmem := mem_names hwritten
      rw [hnames] at hmem
      obtain ⟨value, hvalue⟩ := Option.isSome_iff_exists.mp (field_isSome hmem)
      have hform := hentry "required" value _ hvalue (by rw [field_mapValues, hwritten]; rfl)
      have hnone := hvalues _ (mem_of_field hvalue)
      rw [visit_names] at hform
      cases hform
      cases hnone

theorem spared_of_strictForm (value : Json) : ∀ role : SchemaRole, role.allows value = true →
    StrictForm role value (visit value) → spared role value = true := by
  induction value using nested with
  | leaf value hitems hnode =>
      intro role _ _
      cases value with
      | arr items => exact absurd rfl (hitems items)
      | obj node => exact absurd rfl (hnode node)
      | _ => rfl
  | arr items ih =>
      intro role hallowed hform
      obtain ⟨-, hallowed⟩ := SchemaRole.allows_arr hallowed
      rw [spared_arr]
      intro item hitem
      apply ih item hitem role (hallowed item hitem)
      obtain ⟨i, hi⟩ := List.getElem?_of_mem hitem
      rw [visit_arr] at hform
      cases role with
      | names => cases hform
      | schema =>
          cases hform with
          | schemas _ hitems => exact hitems i item _ hi (by rw [List.getElem?_map, hi]; rfl)
      | data =>
          have hsame := congrArg (·[i]?) (Json.arr.inj hform.eq_of_data)
          simp only [List.getElem?_map, hi, Option.map_some, Option.some.injEq] at hsame
          rw [hsame]
          exact .data item
  | obj node ih =>
      intro role hallowed hform
      obtain ⟨hnodup, hallowed⟩ := SchemaRole.allows_obj hallowed
      have hfield : ∀ e ∈ node, rewritten node e.1 = false →
          field (mapValues visit (strictNode (propertyNames node) node)) e.1 = some (visit e.2) := by
        intro e he hname
        rw [field_mapValues, field_strictNode hname, field_of_mem hnodup he]
        rfl
      cases role with
      | schema =>
          refine spared_obj.mpr ⟨.inl rfl, fun e he => ?_⟩
          cases hname : rewritten node e.1 with
          | true => exact .inl ⟨rfl, rfl⟩
          | false =>
              right
              apply ih e he (keywordRole e.1) (hallowed e he).2
              rw [visit_obj] at hform
              cases hform with
              | schema _ _ _ _ hunchanged =>
                exact hunchanged e.1 e.2 _ hname (field_of_mem hnodup he) (hfield e he hname)
      | names =>
          have huntouched := untouched_of_names (fun e he => (hallowed e he).1 rfl) hform
          refine spared_obj.mpr ⟨.inr huntouched, fun e he => .inr ?_⟩
          apply ih e he .schema (hallowed e he).2
          obtain ⟨hdefault, hclosed⟩ := untouched_iff.mp huntouched
          rw [visit_obj, strictNode_untouched hnodup hdefault hclosed] at hform
          cases hform with
          | names _ hentry =>
            refine hentry e.1 e.2 _ (field_of_mem hnodup he) ?_
            rw [field_mapValues, field_of_mem hnodup he]
            rfl
      | data =>
          have hsame := hform.eq_of_data
          rw [visit_obj, Json.obj.injEq] at hsame
          have huntouched : untouched node = true := by
            refine untouched_iff.mpr ⟨?_, fun names hnames => ⟨?_, ?_⟩⟩
            · rw [← hsame, field_mapValues, field_strictNode_default]
              rfl
            · rw [← hsame, field_mapValues, hnames, field_strictNode_required]
              exact congrArg some (visit_names names)
            · rw [← hsame, field_mapValues, hnames, field_strictNode_closed]
              rfl
          refine spared_obj.mpr ⟨.inr huntouched, fun e he => .inr ?_⟩
          apply ih e he .data (hallowed e he).2
          obtain ⟨hdefault, hclosed⟩ := untouched_iff.mp huntouched
          rw [strictNode_untouched hnodup hdefault hclosed] at hsame
          have hvalue : field (mapValues visit node) e.1 = (field node e.1).map visit :=
            field_mapValues visit
          rw [hsame, field_of_mem hnodup he, Option.map_some, Option.some.injEq] at hvalue
          rw [← hvalue]
          exact .data e.2

/-- **Strict schemas.** The conversion of a schema is faithful exactly when no dictionary of names, and
none in its data, is one that the conversion would change. -/
theorem strictConversion_iff (schema : List (String × Json))
    (h : SchemaRole.schema.allows (.obj schema) = true) :
    StrictConversion (.obj schema) ↔ spared .schema (.obj schema) = true := by
  constructor
  · intro hconversion
    exact spared_of_strictForm (.obj schema) .schema h hconversion.strictForm
  · intro hspared
    have hconverts := converts_of_spared (.obj schema) .schema h hspared
    exact ⟨hconverts.strictForm, rfl, hconverts.twice⟩

/-- Two properties of `QueryRewrite`. -/
def queryRewriteSchema : List (String × Json) :=
  [("additionalProperties", .bool false),
    ("properties", .obj
      [("manual_query", .obj [("title", .str "Manual Query"), ("type", .str "string")]),
        ("component", .obj
          [("anyOf", .arr [.obj [("type", .str "string")], .obj [("type", .str "null")]]),
            ("default", .null), ("title", .str "Component")])]),
    ("required", .arr [.str "manual_query"]), ("title", .str "QueryRewrite"), ("type", .str "object")]

theorem queryRewrite_converted : StrictConversion (.obj queryRewriteSchema) :=
  (strictConversion_iff queryRewriteSchema (by decide)).mpr (by decide)

/-- A model with one field, of the name `default`. -/
def settingSchema : List (String × Json) :=
  [("properties", .obj [("default", .obj [("title", .str "Default"), ("type", .str "string")])]),
    ("required", .arr [.str "default"]), ("title", .str "Setting"), ("type", .str "object")]

/-- The field is required, but there is no such property any more. -/
theorem setting_loses_property :
    (openaiStrictSchema (.obj settingSchema)).strict =
      .obj [("properties", .obj []), ("required", .arr [.str "default"]), ("title", .str "Setting"),
        ("type", .str "object"), ("additionalProperties", .bool false)] ∧
      ¬ StrictConversion (.obj settingSchema) := by
  constructor
  · rfl
  · intro h
    exact absurd (spared_of_strictForm _ .schema (by decide) h.strictForm) (by decide)

end EnergyAgent.Model
