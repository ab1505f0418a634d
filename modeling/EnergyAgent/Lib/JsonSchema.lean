import EnergyAgent.Lib.Json
import EnergyAgent.Lib.Table

/-!
# JSON schemas

The grammar of JSON schemas over plain dictionaries and lists. What a dictionary means depends on
where it stands: it is a schema, or it maps names to schemas, or it is data that the schema quotes.
The first section has the lookups in a dictionary that is written to, the second the induction over
nested values.
-/

namespace EnergyAgent.Lib

namespace Json

/-! ## Dictionaries -/

/-- `fields[name] = value` -/
def setField (fields : List (String × Json)) (name : String) (value : Json) : List (String × Json) :=
  Table.upsert Prod.fst fields (name, value)

/-- `fields.pop(name, None)` -/
def dropField (fields : List (String × Json)) (name : String) : List (String × Json) :=
  Table.delete Prod.fst fields name

/-- The dictionary with its values rewritten. -/
def mapValues (f : Json → Json) (fields : List (String × Json)) : List (String × Json) :=
  fields.map fun entry => (entry.1, f entry.2)

section dictionaries

variable {fields : List (String × Json)} {name : String}

theorem field_eq_get : field fields name = (Table.get Prod.fst fields name).map Prod.snd := rfl

theorem field_setField_self (value : Json) : field (setField fields name value) name = some value := by
  unfold setField
  rw [field_eq_get, Table.get_upsert_self fields (name, value)]
  rfl

theorem field_setField_ne (value : Json) {other : String} (h : other ≠ name) :
    field (setField fields name value) other = field fields other := by
  unfold setField
  rw [field_eq_get, Table.get_upsert_ne fields h]
  rfl

theorem field_dropField (other : String) : field (dropField fields name) other =
    if other = name then none else field fields other := by
  unfold dropField
  rw [field_eq_get, Table.get_delete]
  split <;> rfl

theorem get_mapValues (f : Json → Json) : Table.get Prod.fst (mapValues f fields) name =
    (Table.get Prod.fst fields name).map fun entry => (entry.1, f entry.2) :=
  Table.get_map (f := fun entry : String × Json => (entry.1, f entry.2)) (fun _ => rfl) name

theorem field_mapValues (f : Json → Json) : field (mapValues f fields) name =
    (field fields name).map f := by
  rw [field_eq_get, get_mapValues, field_eq_get, Option.map_map, Option.map_map]
  rfl

theorem mem_of_field {value : Json} (h : field fields name = some value) : (name, value) ∈ fields := by
  obtain ⟨entry, hget, rfl⟩ := Option.map_eq_some_iff.mp h
  obtain ⟨hmem, rfl⟩ := Table.get_eq_some hget
  exact hmem

theorem field_of_mem {value : Json} (hnodup : (fields.map Prod.fst).Nodup)
    (h : (name, value) ∈ fields) : field fields name = some value := by
  have hget : Table.get Prod.fst fields name = some (name, value) := Table.get_of_mem hnodup h
  rw [field_eq_get, hget]
  rfl

theorem dropField_eq_self (h : field fields name = none) : dropField fields name = fields := by
  unfold dropField Table.delete
  rw [List.filter_eq_self]
  intro entry hentry
  rw [field_eq_get, Option.map_eq_none_iff, Table.get_eq_none] at h
  simpa using h entry hentry

/-- A write of the value that is there changes nothing. -/
theorem setField_eq_self {value : Json} (hnodup : (fields.map Prod.fst).Nodup)
    (h : field fields name = some value) : setField fields name value = fields := by
  have hmem := mem_of_field h
  have hget : Table.get Prod.fst fields name = some (name, value) :=
    Table.get_of_mem hnodup hmem
  unfold setField Table.upsert Table.update
  rw [hget, Option.isSome_some, if_pos rfl]
  conv_rhs => rw [← List.map_id fields]
  refine List.map_congr_left fun entry hentry => ?_
  split
  · next hname => exact (List.inj_on_of_nodup_map hnodup hentry hmem hname).symm
  · rfl

theorem nodup_setField (hnodup : (fields.map Prod.fst).Nodup) (value : Json) :
    ((setField fields name value).map Prod.fst).Nodup := by
  unfold setField Table.upsert
  split
  · have hkeys : (Table.update Prod.fst fields name fun _ => (name, value)).map Prod.fst =
        fields.map Prod.fst := Table.map_key_update fun _ _ => rfl
    rw [hkeys]
    exact hnodup
  · next hnone =>
      apply Table.nodup_append hnodup
      simpa using hnone

theorem nodup_dropField (hnodup : (fields.map Prod.fst).Nodup) :
    ((dropField fields name).map Prod.fst).Nodup :=
  hnodup.sublist (List.filter_sublist.map Prod.fst)

theorem names_mapValues (f : Json → Json) : (mapValues f fields).map Prod.fst = fields.map Prod.fst := by
  unfold mapValues
  rw [List.map_map]
  rfl

theorem mem_names {value : Json} (h : field fields name = some value) : name ∈ fields.map Prod.fst :=
  List.mem_map.mpr ⟨_, mem_of_field h, rfl⟩

theorem field_isSome (h : name ∈ fields.map Prod.fst) : (field fields name).isSome = true := by
  rw [field_eq_get, Option.isSome_map, Option.isSome_iff_ne_none]
  exact Table.mem_keys_iff.mp h

theorem mapValues_setField {f : Json → Json} {value : Json} (h : f value = value) :
    mapValues f (setField fields name value) = setField (mapValues f fields) name value := by
  unfold setField Table.upsert
  rw [get_mapValues, Option.isSome_map]
  unfold mapValues
  split
  · unfold Table.update
    rw [List.map_map, List.map_map]
    refine List.map_congr_left fun entry _ => ?_
    simp only [Function.comp_apply]
    split
    · rw [h]
    · rfl
  · rw [List.map_append, List.map_singleton, h]

theorem mapValues_dropField (f : Json → Json) :
    mapValues f (dropField fields name) = dropField (mapValues f fields) name := by
  unfold mapValues dropField Table.delete
  rw [List.filter_map]
  rfl

end dictionaries

/-! ## Nested values -/

/-- Induction over a value: of a list and of a dictionary, the values come first. -/
theorem nested {P : Json → Prop}
    (leaf : ∀ v, (∀ items, v ≠ .arr items) → (∀ fields, v ≠ .obj fields) → P v)
    (arr : ∀ items, (∀ v ∈ items, P v) → P (.arr items))
    (obj : ∀ fields : List (String × Json), (∀ entry ∈ fields, P entry.2) → P (.obj fields)) (v : Json) :
    P v := by
  match v with
  | .null => exact leaf _ nofun nofun
  | .bool _ => exact leaf _ nofun nofun
  | .int _ => exact leaf _ nofun nofun
  | .float _ => exact leaf _ nofun nofun
  | .str _ => exact leaf _ nofun nofun
  | .arr items =>
      refine arr items fun item hitem => ?_
      have := List.sizeOf_lt_of_mem hitem
      exact nested leaf arr obj item
  | .obj fields =>
      refine obj fields fun entry hentry => ?_
      have := List.sizeOf_lt_of_mem hentry
      exact nested leaf arr obj entry.2
termination_by sizeOf v
decreasing_by
  · simp only [Json.arr.sizeOf_spec]
    omega
  · have hsize : sizeOf entry = 1 + sizeOf entry.1 + sizeOf entry.2 := rfl
    simp only [Json.obj.sizeOf_spec]
    omega

end Json

/-! ## The grammar -/

/-- What a value of a schema stands for. -/
inductive SchemaRole
  /-- a schema, or a list of them -/
  | schema
  /-- a dictionary from names to schemas -/
  | names
  /-- anything else -/
  | data
  deriving DecidableEq

/-- What stands under a keyword. -/
def keywordRole (keyword : String) : SchemaRole :=
  if keyword ∈ ["properties", "$defs", "definitions", "patternProperties", "dependentSchemas"] then .names
  else if keyword ∈ ["items", "prefixItems", "additionalItems", "additionalProperties", "contains",
    "propertyNames", "unevaluatedItems", "unevaluatedProperties", "contentSchema", "anyOf", "oneOf",
    "allOf", "not", "if", "then", "else"] then .schema
  else .data

namespace SchemaRole

/-- What stands under a key of a dictionary. -/
def entry (role : SchemaRole) (name : String) : SchemaRole :=
  match role with
  | .schema => keywordRole name
  | .names => .schema
  | .data => .data

mutual

/-- The value follows the grammar in this role; no dictionary has a key twice. -/
def allows (role : SchemaRole) : Json → Bool
  | .obj fields => (fields.map Prod.fst).Nodup && allowsEntries role fields
  | .arr items => role ≠ .names && allowsItems role items
  | .bool _ => role ≠ .names
  | _ => role = .data

/-- Under a name there is one schema. -/
def allowsEntries (role : SchemaRole) : List (String × Json) → Bool
  | [] => true
  | (name, value) :: rest =>
      (role ≠ .names || value.asList.isNone) && allows (role.entry name) value && allowsEntries role rest

def allowsItems (role : SchemaRole) : List Json → Bool
  | [] => true
  | item :: items => allows role item && allowsItems role items

end

variable {role : SchemaRole}

theorem allowsEntries_iff {fields : List (String × Json)} : allowsEntries role fields = true ↔
    ∀ e ∈ fields, (role = .names → e.2.asList = none) ∧ allows (role.entry e.1) e.2 = true := by
  induction fields with
  | nil => simp [allowsEntries]
  | cons e fields ih =>
      obtain ⟨name, value⟩ := e
      rw [List.forall_mem_cons, allowsEntries, Bool.and_eq_true, ih]
      simp only [Bool.and_eq_true, Bool.or_eq_true, decide_eq_true_eq, Option.isNone_iff_eq_none,
        imp_iff_not_or, ne_eq]

theorem allowsItems_iff {items : List Json} :
    allowsItems role items = true ↔ ∀ item ∈ items, allows role item = true := by
  induction items with
  | nil => simp [allowsItems]
  | cons item items ih => simp only [allowsItems, Bool.and_eq_true, ih, List.forall_mem_cons]

theorem allows_obj {fields : List (String × Json)} (h : allows role (.obj fields) = true) :
    (fields.map Prod.fst).Nodup ∧
      ∀ e ∈ fields, (role = .names → e.2.asList = none) ∧ allows (role.entry e.1) e.2 = true := by
  rw [allows, Bool.and_eq_true, decide_eq_true_eq, allowsEntries_iff] at h
  exact h

theorem allows_arr {items : List Json} (h : allows role (.arr items) = true) :
    role ≠ .names ∧ ∀ item ∈ items, allows role item = true := by
  rw [allows, Bool.and_eq_true, decide_eq_true_eq, allowsItems_iff] at h
  exact h

end SchemaRole
end EnergyAgent.Lib
