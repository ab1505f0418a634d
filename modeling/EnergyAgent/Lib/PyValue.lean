import EnergyAgent.Lib.Table

/-!
# Python values and their `repr`

Values as nested lists, tuples and dictionaries, and what `repr` writes. The last sections are about two
values that agree except under some keys: the values of these keys can stand for anything, and as soon
as there is such a key inside, what `repr` writes around its value leaves room for every string.
-/

namespace EnergyAgent.Lib

/-- A key of a dictionary, as `str` and as `repr` write it. -/
structure PyKey where
  str : List Char
  repr : List Char
  deriving DecidableEq, Repr

/-- What is known of any object: the name of its class, its `repr`, and its length if it has one. -/
structure PyObject where
  typeName : String
  repr : List Char
  length : Option Nat
  deriving DecidableEq, Repr

inductive PyValue
  | none
  | bool (b : Bool)
  | int (n : Int)
  | str (s : List Char)
  | list (items : List PyValue)
  | tuple (items : List PyValue)
  | dict (entries : List (PyKey × PyValue))
  /-- a date or a time -/
  | moment (object : PyObject) (isoformat : List Char)
  | strEnum (object : PyObject) (value : List Char)
  /-- a pydantic model, with its fields -/
  | model (object : PyObject) (dump : PyValue)
  | other (object : PyObject)

/-! ## Strings -/

def apostrophe : Char := Char.ofNat 39

/-- `width` hexadecimal digits. -/
def hexDigits : Nat → Nat → List Char
  | 0, _ => []
  | width + 1, n => hexDigits width (n / 16) ++ [Nat.digitChar (n % 16)]

section strings

variable (printable : Char → Bool)

/-- One character between quotes; `printable` is `str.isprintable`, asked beyond ASCII. -/
def reprChar (quote c : Char) : List Char :=
  if c = quote ∨ c = '\\' then ['\\', c]
  else if c = '\t' then ['\\', 't']
  else if c = '\n' then ['\\', 'n']
  else if c = '\r' then ['\\', 'r']
  else if 32 ≤ c.toNat ∧ c.toNat < 127 then [c]
  else if 128 ≤ c.toNat ∧ printable c = true then [c]
  else if c.toNat < 256 then ['\\', 'x'] ++ hexDigits 2 c.toNat
  else if c.toNat < 65536 then ['\\', 'u'] ++ hexDigits 4 c.toNat
  else ['\\', 'U'] ++ hexDigits 8 c.toNat

/-- `repr(s)`: between apostrophes, unless the string has one and no double quote. -/
def reprStr (s : List Char) : List Char :=
  let quote := if s.contains apostrophe && !s.contains '"' then '"' else apostrophe
  quote :: s.flatMap (reprChar printable quote) ++ [quote]

/-- The key that a string is. -/
def PyKey.ofStr (s : List Char) : PyKey where
  str := s
  repr := reprStr printable s

end strings

/-- `", ".join(parts)` -/
def commaSeparated : List (List Char) → List Char
  | [] => []
  | part :: parts => part ++ parts.flatMap (", ".toList ++ ·)

/-- What stands around one part does not depend on it. -/
theorem commaSeparated_around (before after : List (List Char)) :
    ∃ front back, ∀ part, commaSeparated (before ++ part :: after) = front ++ part ++ back := by
  cases before with
  | nil => exact ⟨[], after.flatMap (", ".toList ++ ·), fun part => rfl⟩
  | cons first before =>
      refine ⟨first ++ before.flatMap (", ".toList ++ ·) ++ ", ".toList,
        after.flatMap (", ".toList ++ ·), fun part => ?_⟩
      simp only [List.cons_append, commaSeparated, List.flatMap_append, List.flatMap_cons,
        List.append_assoc]

namespace PyValue

/-! ## `repr`, `len` and `type` -/

section repr

variable (printable : Char → Bool)

mutual

def repr : PyValue → List Char
  | .none => "None".toList
  | .bool b => if b then "True".toList else "False".toList
  | .int n => (toString n).toList
  | .str s => reprStr printable s
  | .list items => "[".toList ++ commaSeparated (reprItems items) ++ "]".toList
  | .tuple items =>
      "(".toList ++ commaSeparated (reprItems items) ++
        (if items.length = 1 then ",)".toList else ")".toList)
  | .dict entries => "\x7b".toList ++ commaSeparated (reprEntries entries) ++ "\x7d".toList
  | .moment object _ => object.repr
  | .strEnum object _ => object.repr
  | .model object _ => object.repr
  | .other object => object.repr

def reprItems : List PyValue → List (List Char)
  | [] => []
  | item :: items => repr item :: reprItems items

def reprEntries : List (PyKey × PyValue) → List (List Char)
  | [] => []
  | (key, value) :: entries => (key.repr ++ ": ".toList ++ repr value) :: reprEntries entries

end

theorem reprItems_eq (items : List PyValue) : reprItems printable items = items.map (repr printable) := by
  induction items with
  | nil => rfl
  | cons item items ih =>
      unfold reprItems
      rw [ih, List.map_cons]

theorem reprEntries_eq (entries : List (PyKey × PyValue)) : reprEntries printable entries =
    entries.map fun e => e.1.repr ++ ": ".toList ++ repr printable e.2 := by
  induction entries with
  | nil => rfl
  | cons e entries ih =>
      unfold reprEntries
      rw [ih, List.map_cons]

end repr

/-- `len(value)`, if the value has a length. -/
def length : PyValue → Option Nat
  | .none | .bool _ | .int _ => Option.none
  | .str s => some s.length
  | .list items | .tuple items => some items.length
  | .dict entries => some entries.length
  | .moment object _ | .strEnum object _ | .model object _ | .other object => object.length

/-- `type(value).__name__` -/
def typeName : PyValue → String
  | .none => "NoneType"
  | .bool _ => "bool"
  | .int _ => "int"
  | .str _ => "str"
  | .list _ => "list"
  | .tuple _ => "tuple"
  | .dict _ => "dict"
  | .moment object _ | .strEnum object _ | .model object _ | .other object => object.typeName

/-- The dictionary after the entries have been assigned one after the other. -/
def assignAll (entries : List (PyKey × PyValue)) : List (PyKey × PyValue) :=
  entries.foldl (Table.upsert Prod.fst) []

/-! ## Nested values -/

/-- Induction over a value: items and entries come before what holds them. -/
theorem nested {P : PyValue → Prop}
    (leaf : ∀ v, (∀ items, v ≠ .list items) → (∀ items, v ≠ .tuple items) →
      (∀ entries, v ≠ .dict entries) → P v)
    (list : ∀ items, (∀ v ∈ items, P v) → P (.list items))
    (tuple : ∀ items, (∀ v ∈ items, P v) → P (.tuple items))
    (dict : ∀ entries : List (PyKey × PyValue), (∀ e ∈ entries, P e.2) → P (.dict entries))
    (v : PyValue) : P v := by
  match v with
  | .list items =>
      refine list items fun item hitem => ?_
      have := List.sizeOf_lt_of_mem hitem
      exact nested leaf list tuple dict item
  | .tuple items =>
      refine tuple items fun item hitem => ?_
      have := List.sizeOf_lt_of_mem hitem
      exact nested leaf list tuple dict item
  | .dict entries =>
      refine dict entries fun e he => ?_
      have := List.sizeOf_lt_of_mem he
      exact nested leaf list tuple dict e.2
  | .none | .bool _ | .int _ | .str _ | .moment _ _ | .strEnum _ _ | .model _ _ | .other _ =>
      exact leaf _ nofun nofun nofun
termination_by sizeOf v
decreasing_by
  · simp only [PyValue.list.sizeOf_spec]
    omega
  · simp only [PyValue.tuple.sizeOf_spec]
    omega
  · have hsize : sizeOf e = 1 + sizeOf e.1 + sizeOf e.2 := rfl
    simp only [PyValue.dict.sizeOf_spec]
    omega

/-! ## Values under some keys -/

/-- The values are the same, except under the keys that `secret` tells: there anything may stand. -/
inductive SameBut (secret : PyKey → Bool) : PyValue → PyValue → Prop
  | same (v : PyValue) : SameBut secret v v
  | list {items items' : List PyValue} (h : List.Forall₂ (SameBut secret) items items') :
      SameBut secret (.list items) (.list items')
  | tuple {items items' : List PyValue} (h : List.Forall₂ (SameBut secret) items items') :
      SameBut secret (.tuple items) (.tuple items')
  | dict {entries entries' : List (PyKey × PyValue)}
      (keys : entries'.map Prod.fst = entries.map Prod.fst)
      (values : List.Forall₂ (fun e e' => secret e.1 = false → SameBut secret e.2 e'.2)
        entries entries') :
      SameBut secret (.dict entries) (.dict entries')

section secrets

variable (secret : PyKey → Bool)

mutual

/-- Is there such a key, at any depth? -/
def hasKey : PyValue → Bool
  | .list items => hasKeyItems items
  | .tuple items => hasKeyItems items
  | .dict entries => hasKeyEntries entries
  | _ => false

def hasKeyItems : List PyValue → Bool
  | [] => false
  | item :: items => hasKey item || hasKeyItems items

def hasKeyEntries : List (PyKey × PyValue) → Bool
  | [] => false
  | (key, value) :: entries => secret key || hasKey value || hasKeyEntries entries

end

variable {secret}

theorem hasKeyItems_iff {items : List PyValue} :
    hasKeyItems secret items = true ↔ ∃ item ∈ items, hasKey secret item = true := by
  induction items with
  | nil => simp [hasKeyItems]
  | cons item items ih => simp only [hasKeyItems, Bool.or_eq_true, ih, List.exists_mem_cons_iff]

theorem hasKeyEntries_iff {entries : List (PyKey × PyValue)} : hasKeyEntries secret entries = true ↔
    ∃ e ∈ entries, secret e.1 = true ∨ hasKey secret e.2 = true := by
  induction entries with
  | nil => simp [hasKeyEntries]
  | cons e entries ih => simp only [hasKeyEntries, Bool.or_eq_true, ih, List.exists_mem_cons_iff]

/-- Related lists that agree wherever their items do. -/
theorem eq_of_forall₂ {α : Type} {R : α → α → Prop} {l l' : List α} (h : List.Forall₂ R l l')
    (heq : ∀ a ∈ l, ∀ a', R a a' → a' = a) : l' = l := by
  induction h with
  | nil => rfl
  | cons hhead _ ih =>
      rw [heq _ (List.mem_cons_self ..) _ hhead,
        ih fun a ha => heq a (List.mem_cons_of_mem _ ha)]

theorem forall₂_of_map_fst {entries entries' : List (PyKey × PyValue)}
    {R : PyKey × PyValue → PyKey × PyValue → Prop}
    (hkeys : entries'.map Prod.fst = entries.map Prod.fst) (h : List.Forall₂ R entries entries') :
    List.Forall₂ (fun e e' => e'.1 = e.1 ∧ R e e') entries entries' := by
  induction h with
  | nil => exact .nil
  | cons hhead _ ih =>
      rw [List.map_cons, List.map_cons, List.cons.injEq] at hkeys
      exact .cons ⟨hkeys.1, hhead⟩ (ih hkeys.2)

theorem items_eq_of_hasKey {items items' : List PyValue}
    (ih : ∀ item ∈ items, hasKey secret item = false → ∀ v', SameBut secret item v' → v' = item)
    (hno : hasKeyItems secret items = false) (h : List.Forall₂ (SameBut secret) items items') :
    items' = items := by
  refine eq_of_forall₂ h fun item hitem item' hsame => ih item hitem ?_ item' hsame
  by_contra hkey
  rw [hasKeyItems_iff.mpr ⟨item, hitem, by simpa using hkey⟩] at hno
  cases hno

/-- Without such a key the values are the same. -/
theorem SameBut.eq_of_hasKey (v : PyValue) : hasKey secret v = false →
    ∀ v', SameBut secret v v' → v' = v := by
  induction v using nested with
  | leaf v hlist htuple hdict =>
      intro _ v' h
      cases h with
      | same => rfl
      | list => exact absurd rfl (hlist _)
      | tuple => exact absurd rfl (htuple _)
      | dict => exact absurd rfl (hdict _)
  | list items ih =>
      intro hno v' h
      unfold hasKey at hno
      cases h with
      | same => rfl
      | list h => rw [items_eq_of_hasKey ih hno h]
  | tuple items ih =>
      intro hno v' h
      unfold hasKey at hno
      cases h with
      | same => rfl
      | tuple h => rw [items_eq_of_hasKey ih hno h]
  | dict entries ih =>
      intro hno v' h
      unfold hasKey at hno
      have hnone : ∀ e ∈ entries, secret e.1 = false ∧ hasKey secret e.2 = false := by
        intro e he
        by_contra hkey
        rw [hasKeyEntries_iff.mpr ⟨e, he, by grind⟩] at hno
        cases hno
      cases h with
      | same => rfl
      | dict hkeys hvalues =>
          congr 1
          refine eq_of_forall₂ (forall₂_of_map_fst hkeys hvalues) fun e he e' ⟨hkey, hsame⟩ => ?_
          obtain ⟨hsecret, hinside⟩ := hnone e he
          exact Prod.ext hkey (ih e he hinside e'.2 (hsame hsecret))

theorem SameBut.refl_items (items : List PyValue) : List.Forall₂ (SameBut secret) items items :=
  List.forall₂_same.mpr fun item _ => .same item

/-- One item replaced. -/
theorem SameBut.around {item item' : PyValue} (before after : List PyValue)
    (h : SameBut secret item item') :
    List.Forall₂ (SameBut secret) (before ++ item :: after) (before ++ item' :: after) :=
  List.rel_append (SameBut.refl_items before) (.cons h (SameBut.refl_items after))

/-- One entry replaced. -/
theorem SameBut.dict_around {key : PyKey} {value value' : PyValue}
    (before after : List (PyKey × PyValue)) (h : secret key = false → SameBut secret value value') :
    SameBut secret (.dict (before ++ (key, value) :: after))
      (.dict (before ++ (key, value') :: after)) := by
  have hrefl : ∀ entries : List (PyKey × PyValue),
      List.Forall₂ (fun e e' => secret e.1 = false → SameBut secret e.2 e'.2) entries entries :=
    fun entries => List.forall₂_same.mpr fun e _ _ => .same e.2
  refine .dict ?_ (List.rel_append (hrefl before) (.cons h (hrefl after)))
  simp only [List.map_append, List.map_cons]

theorem SameBut.typeName_eq {v v' : PyValue} (h : SameBut secret v v') : v'.typeName = v.typeName := by
  cases h <;> rfl

theorem SameBut.length_eq {v v' : PyValue} (h : SameBut secret v v') : v'.length = v.length := by
  cases h with
  | same => rfl
  | list h => exact congrArg some h.length_eq.symm
  | tuple h => exact congrArg some h.length_eq.symm
  | dict _ h => exact congrArg some h.length_eq.symm

/-- What the induction below needs of the items of a list or tuple. -/
theorem reprItems_around {printable : Char → Bool} {items : List PyValue}
    (ih : ∀ item ∈ items, hasKey secret item = true → ∃ front back, ∀ s, ∃ item',
      SameBut secret item item' ∧ repr printable item' = front ++ reprStr printable s ++ back)
    (h : hasKeyItems secret items = true) :
    ∃ front back, ∀ s, ∃ items', List.Forall₂ (SameBut secret) items items' ∧
      commaSeparated (reprItems printable items') = front ++ reprStr printable s ++ back := by
  obtain ⟨item, hitem, hkey⟩ := hasKeyItems_iff.mp h
  obtain ⟨before, after, rfl⟩ := List.append_of_mem hitem
  obtain ⟨front, back, hinside⟩ := ih item hitem hkey
  obtain ⟨left, right, haround⟩ := commaSeparated_around (before.map (repr printable))
    (after.map (repr printable))
  refine ⟨left ++ front, back ++ right, fun s => ?_⟩
  obtain ⟨item', hsame, hrepr⟩ := hinside s
  refine ⟨before ++ item' :: after, SameBut.around before after hsame, ?_⟩
  rw [reprItems_eq, List.map_append, List.map_cons, haround, hrepr]
  simp only [List.append_assoc]

/-- **A place for any string.** With such a key inside, the value under it can be any string while what
`repr` writes before and behind it stays. -/
theorem repr_around (printable : Char → Bool) (v : PyValue) : hasKey secret v = true →
    ∃ front back, ∀ s, ∃ v', SameBut secret v v' ∧
      repr printable v' = front ++ reprStr printable s ++ back := by
  induction v using nested with
  | leaf v hlist htuple hdict =>
      intro h
      cases v with
      | list items => exact absurd rfl (hlist items)
      | tuple items => exact absurd rfl (htuple items)
      | dict entries => exact absurd rfl (hdict entries)
      | _ => cases h
  | list items ih =>
      intro h
      obtain ⟨front, back, hinside⟩ := reprItems_around ih h
      refine ⟨"[".toList ++ front, back ++ "]".toList, fun s => ?_⟩
      obtain ⟨items', hsame, hrepr⟩ := hinside s
      refine ⟨.list items', .list hsame, ?_⟩
      rw [repr, hrepr]
      simp only [List.append_assoc]
  | tuple items ih =>
      intro h
      obtain ⟨front, back, hinside⟩ := reprItems_around ih h
      refine ⟨"(".toList ++ front,
        back ++ (if items.length = 1 then ",)".toList else ")".toList), fun s => ?_⟩
      obtain ⟨items', hsame, hrepr⟩ := hinside s
      refine ⟨.tuple items', .tuple hsame, ?_⟩
      rw [repr, hrepr, ← hsame.length_eq]
      simp only [List.append_assoc]
  | dict entries ih =>
      intro h
      obtain ⟨⟨key, value⟩, he, hkey⟩ := hasKeyEntries_iff.mp h
      obtain ⟨before, after, rfl⟩ := List.append_of_mem he
      -- the value itself is the place, or the place is inside it
      have hplace : ∃ front back, ∀ s, ∃ value', (secret key = false → SameBut secret value value') ∧
          repr printable value' = front ++ reprStr printable s ++ back := by
        cases hsecret : secret key with
        | true => exact ⟨[], [], fun s => ⟨.str s, nofun, by rw [repr, List.append_nil]; rfl⟩⟩
        | false =>
            obtain ⟨front, back, hinside⟩ := ih _ he (hkey.resolve_left (by simp [hsecret]))
            refine ⟨front, back, fun s => ?_⟩
            obtain ⟨value', hsame, hrepr⟩ := hinside s
            exact ⟨value', fun _ => hsame, hrepr⟩
      obtain ⟨front, back, hplace⟩ := hplace
      obtain ⟨left, right, haround⟩ := commaSeparated_around
        (before.map fun e => e.1.repr ++ ": ".toList ++ repr printable e.2)
        (after.map fun e => e.1.repr ++ ": ".toList ++ repr printable e.2)
      refine ⟨"\x7b".toList ++ left ++ key.repr ++ ": ".toList ++ front, back ++ right ++ "\x7d".toList,
        fun s => ?_⟩
      obtain ⟨value', hsame, hrepr⟩ := hplace s
      refine ⟨.dict (before ++ (key, value') :: after), SameBut.dict_around before after hsame, ?_⟩
      rw [repr, reprEntries_eq, List.map_append, List.map_cons, haround, hrepr]
      simp only [List.append_assoc]

end secrets

end PyValue
end EnergyAgent.Lib
