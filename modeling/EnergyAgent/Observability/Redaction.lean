import EnergyAgent.Lib.Lines
import EnergyAgent.Lib.PyValue

/-!
# Redaction

`observability/redaction.py`: what of a value goes into logs, traces and audit records. Values under
sensitive keys are replaced, and those under content keys are dropped, summarised or shortened. Two
runs that differ in secrets only should show the same; a summary made of the raw value does not.
-/

namespace EnergyAgent.Observability

open EnergyAgent.Lib EnergyAgent.Lib.Text

inductive ContentMode
  | none
  | metadataOnly
  | truncated
  deriving DecidableEq

/-- What the redaction takes from Python: `str.lower`, `str.isprintable` of a character, and the
hexadecimal SHA-256 digest of a text's UTF-8 bytes. -/
structure Runtime where
  lower : List Char → List Char
  printable : Char → Bool
  sha256 : List Char → List Char

structure Limits where
  maxStringLength : Int := 512
  maxListItems : Int := 20
  maxDepth : Int := 5

def sensitiveKeys : List String :=
  ["authorization", "api_key", "access_token", "refresh_token", "password", "secret", "cookie",
    "set-cookie", "mysql_dsn", "redis_url", "langfuse_secret_key", "openai_api_key",
    "dashscope_api_key", "siliconflow_api_key"]

def contentKeys : List String :=
  ["work_order", "work_order_body", "user_input", "user_message", "document_chunk", "raw_timeseries",
    "timeseries"]

/-- `text.replace("-", "_")` -/
def underscored (text : List Char) : List Char := text.map fun c => if c = '-' then '_' else c

section redact

variable (runtime : Runtime) (mode : ContentMode) (limits : Limits)

def sensitive (key : PyKey) : Bool :=
  (sensitiveKeys.map fun item => underscored item.toList).contains (underscored (runtime.lower key.str))

def content (key : PyKey) : Bool :=
  (contentKeys.map String.toList).contains (underscored (runtime.lower key.str))

def strKey (name : String) : PyKey := .ofStr runtime.printable name.toList

/-- The first digits of the digest of `repr(value)`. -/
def fingerprint (value : PyValue) : List Char := (runtime.sha256 (value.repr runtime.printable)).take 16

/-- `_metadata` -/
def metadata (value : PyValue) : PyValue :=
  .dict [(strKey runtime "redacted", .bool true),
    (strKey runtime "type", .str value.typeName.toList),
    (strKey runtime "count", (value.length.map fun n => .int n).getD .none),
    (strKey runtime "sha256", .str (fingerprint runtime value))]

def depthReached : PyValue :=
  .dict [(strKey runtime "truncated", .bool true), (strKey runtime "reason", .str "max_depth".toList)]

/-- What follows the items of a list of this length. -/
def omitted (length : Nat) : List PyValue :=
  if limits.maxListItems < length then
    [.dict [(strKey runtime "truncated", .bool true),
      (strKey runtime "omitted_items", .int (length - limits.maxListItems))]]
  else []

def shortened (s : List Char) : List Char :=
  if limits.maxStringLength < s.length then
    upTo limits.maxStringLength s ++ "…[truncated:".toList ++
      (toString (s.length - limits.maxStringLength)).toList ++ "]".toList
  else s

mutual

/-- `redact` at a depth. Of a list all items are redacted here and then the first ones are taken. -/
def redact (depth : Nat) (value : PyValue) : PyValue :=
  if limits.maxDepth ≤ depth then depthReached runtime
  else
    match value with
    | .model _ dump => redact depth dump
    | .moment _ isoformat => .str isoformat
    | .strEnum _ value => .str value
    | .dict entries => .dict (PyValue.assignAll (redactEntries (depth + 1) entries))
    | .list items | .tuple items =>
        .list (upTo limits.maxListItems (redactItems (depth + 1) items) ++
          omitted runtime limits items.length)
    | .str s => .str (shortened limits s)
    | value => value

def redactItems (depth : Nat) : List PyValue → List PyValue
  | [] => []
  | item :: items => redact depth item :: redactItems depth items

/-- The assignments `output[key] = ...`, in their order. -/
def redactEntries (depth : Nat) : List (PyKey × PyValue) → List (PyKey × PyValue)
  | [] => []
  | (key, item) :: entries =>
      (.ofStr runtime.printable key.str,
        if sensitive runtime key then .str "[REDACTED]".toList
        else if content runtime key then
          match mode with
          | .none => .none
          | .metadataOnly => metadata runtime item
          | .truncated => redact depth item
        else redact depth item) :: redactEntries depth entries

end

/-- The result of `safe_snapshot`; `sizes` are `original_bytes` and `limit_bytes`. -/
structure Snapshot where
  data : PyValue
  truncated : Bool
  sizes : Option (Nat × Int)

/-- `len(text.encode("utf-8"))` -/
def utf8Length (text : List Char) : Nat := (text.map Char.utf8Size).sum

def safeSnapshot (value : PyValue) (maxBytes : Int) : Snapshot :=
  let originalBytes := utf8Length (value.repr runtime.printable)
  let cleaned := redact runtime .metadataOnly {} 0 value
  let encoded := utf8Length (cleaned.repr runtime.printable)
  if (originalBytes : Int) ≤ maxBytes ∧ (encoded : Int) ≤ maxBytes then
    { data := cleaned, truncated := false, sizes := none }
  else
    { data := metadata runtime cleaned, truncated := true, sizes := some (originalBytes, maxBytes) }

end redact

/-! ## Secrets -/

section secrets

variable (runtime : Runtime)

/-- The values differ in values under sensitive keys only. -/
def SameButSecrets : PyValue → PyValue → Prop := PyValue.SameBut (sensitive runtime)

/-- What the redaction shows of the value does not depend on its secrets. -/
def Hides (mode : ContentMode) (limits : Limits) (value : PyValue) : Prop :=
  ∀ value', SameButSecrets runtime value value' →
    redact runtime mode limits 0 value' = redact runtime mode limits 0 value

/-- The same for snapshots, as long as they are not truncated. -/
def SnapshotHides (value : PyValue) : Prop :=
  ∀ value' maxBytes, SameButSecrets runtime value value' →
    (safeSnapshot runtime value maxBytes).truncated = false →
    (safeSnapshot runtime value' maxBytes).truncated = false →
    safeSnapshot runtime value' maxBytes = safeSnapshot runtime value maxBytes

variable (limits : Limits)

mutual

/-- No value that the redaction summarises has a sensitive key inside. Items behind the limits and
entries that a later one replaces are not shown, and do not count. -/
def summariesClean (depth : Nat) (value : PyValue) : Bool :=
  limits.maxDepth ≤ depth ||
    match value with
    | .dict entries => cleanEntries (depth + 1) entries
    | .list items | .tuple items => (upTo limits.maxListItems (cleanItems (depth + 1) items)).all id
    | _ => true

def cleanItems (depth : Nat) : List PyValue → List Bool
  | [] => []
  | item :: items => summariesClean depth item :: cleanItems depth items

def cleanEntries (depth : Nat) : List (PyKey × PyValue) → Bool
  | [] => true
  | (key, item) :: entries =>
      ((entries.map (·.1.str)).contains key.str || sensitive runtime key ||
        if content runtime key then !item.hasKey (sensitive runtime)
        else summariesClean depth item) && cleanEntries depth entries

end

end secrets

/-! ## One level -/

section level

variable (runtime : Runtime) (mode : ContentMode) (limits : Limits)

/-- What the loop assigns to the key of an entry. -/
def entryValue (depth : Nat) (entry : PyKey × PyValue) : PyValue :=
  if sensitive runtime entry.1 then .str "[REDACTED]".toList
  else if content runtime entry.1 then
    match mode with
    | .none => .none
    | .metadataOnly => metadata runtime entry.2
    | .truncated => redact runtime mode limits depth entry.2
  else redact runtime mode limits depth entry.2

def entryClean (depth : Nat) (entry : PyKey × PyValue) : Bool :=
  sensitive runtime entry.1 ||
    if content runtime entry.1 then !entry.2.hasKey (sensitive runtime)
    else summariesClean runtime limits depth entry.2

theorem redactItems_eq (depth : Nat) (items : List PyValue) :
    redactItems runtime mode limits depth items = items.map (redact runtime mode limits depth) := by
  induction items with
  | nil => rfl
  | cons item items ih =>
      unfold redactItems
      rw [ih, List.map_cons]

theorem cleanItems_eq (depth : Nat) (items : List PyValue) :
    cleanItems runtime limits depth items = items.map (summariesClean runtime limits depth) := by
  induction items with
  | nil => rfl
  | cons item items ih =>
      unfold cleanItems
      rw [ih, List.map_cons]

theorem redactEntries_cons (depth : Nat) (entry : PyKey × PyValue) (entries : List (PyKey × PyValue)) :
    redactEntries runtime mode limits depth (entry :: entries) =
      (.ofStr runtime.printable entry.1.str, entryValue runtime mode limits depth entry) ::
        redactEntries runtime mode limits depth entries := rfl

theorem redactEntries_append (depth : Nat) (before after : List (PyKey × PyValue)) :
    redactEntries runtime mode limits depth (before ++ after) =
      redactEntries runtime mode limits depth before ++
        redactEntries runtime mode limits depth after := by
  induction before with
  | nil => rfl
  | cons entry before ih =>
      rw [List.cons_append, redactEntries_cons, ih]
      rfl

theorem redactEntries_keys (depth : Nat) (entries : List (PyKey × PyValue)) :
    (redactEntries runtime mode limits depth entries).map Prod.fst =
      entries.map fun e => .ofStr runtime.printable e.1.str := by
  induction entries with
  | nil => rfl
  | cons entry entries ih => rw [redactEntries_cons, List.map_cons, List.map_cons, ih]

/-- Two output keys are the same when `str` of the keys is. -/
theorem mem_redactEntries_keys {depth : Nat} {key : PyKey} {entries : List (PyKey × PyValue)} :
    PyKey.ofStr runtime.printable key.str ∈
      (redactEntries runtime mode limits depth entries).map Prod.fst ↔
      key.str ∈ entries.map (·.1.str) := by
  rw [redactEntries_keys]
  simp only [List.mem_map]
  constructor
  · rintro ⟨e, he, hkey⟩
    have hstr := congrArg PyKey.str hkey
    exact ⟨e, he, hstr⟩
  · rintro ⟨e, he, hkey⟩
    exact ⟨e, he, congrArg (PyKey.ofStr runtime.printable) hkey⟩

theorem cleanEntries_cons {depth : Nat} {entry : PyKey × PyValue} {entries : List (PyKey × PyValue)} :
    cleanEntries runtime limits depth (entry :: entries) = true ↔
      (entry.1.str ∈ entries.map (·.1.str) ∨ entryClean runtime limits depth entry = true) ∧
        cleanEntries runtime limits depth entries = true := by
  rw [cleanEntries, entryClean, Bool.and_eq_true, Bool.or_assoc, Bool.or_eq_true,
    List.contains_iff_mem]

end level

/-! ## Two runs -/

section runs

variable {runtime : Runtime} {mode : ContentMode} {limits : Limits} {depth : Nat}

theorem redact_deep {value : PyValue} (h : limits.maxDepth ≤ depth) :
    redact runtime mode limits depth value = depthReached runtime := by
  unfold redact
  exact if_pos h

theorem redact_dict {entries : List (PyKey × PyValue)} (h : ¬ limits.maxDepth ≤ depth) :
    redact runtime mode limits depth (.dict entries) =
      .dict (PyValue.assignAll (redactEntries runtime mode limits (depth + 1) entries)) := by
  rw [redact, if_neg h]

theorem redact_list {items : List PyValue} (h : ¬ limits.maxDepth ≤ depth) :
    redact runtime mode limits depth (.list items) = .list (upTo limits.maxListItems
      (items.map (redact runtime mode limits (depth + 1))) ++ omitted runtime limits items.length) := by
  rw [redact, if_neg h, redactItems_eq]

theorem redact_tuple {items : List PyValue} (h : ¬ limits.maxDepth ≤ depth) :
    redact runtime mode limits depth (.tuple items) = .list (upTo limits.maxListItems
      (items.map (redact runtime mode limits (depth + 1))) ++ omitted runtime limits items.length) := by
  rw [redact, if_neg h, redactItems_eq]

theorem not_deep {value : PyValue} (h : summariesClean runtime limits depth value = false) :
    ¬ limits.maxDepth ≤ depth := by
  unfold summariesClean at h
  exact of_decide_eq_false (Bool.or_eq_false_iff.mp h).1

theorem summariesClean_dict {entries : List (PyKey × PyValue)} (h : ¬ limits.maxDepth ≤ depth) :
    summariesClean runtime limits depth (.dict entries) =
      cleanEntries runtime limits (depth + 1) entries := by
  rw [summariesClean, decide_eq_false h, Bool.false_or]

theorem summariesClean_list {items : List PyValue} (h : ¬ limits.maxDepth ≤ depth) :
    summariesClean runtime limits depth (.list items) = (upTo limits.maxListItems
      (items.map (summariesClean runtime limits (depth + 1)))).all id := by
  rw [summariesClean, decide_eq_false h, Bool.false_or, cleanItems_eq]

theorem summariesClean_tuple {items : List PyValue} (h : ¬ limits.maxDepth ≤ depth) :
    summariesClean runtime limits depth (.tuple items) = (upTo limits.maxListItems
      (items.map (summariesClean runtime limits (depth + 1)))).all id := by
  rw [summariesClean, decide_eq_false h, Bool.false_or, cleanItems_eq]

theorem entryValue_eq {key : PyKey} {item item' : PyValue}
    (hsame : sensitive runtime key = false → SameButSecrets runtime item item')
    (hclean : mode = .metadataOnly → entryClean runtime limits depth (key, item) = true)
    (ih : SameButSecrets runtime item item' →
      (mode = .metadataOnly → summariesClean runtime limits depth item = true) →
      redact runtime mode limits depth item' = redact runtime mode limits depth item) :
    entryValue runtime mode limits depth (key, item') =
      entryValue runtime mode limits depth (key, item) := by
  unfold entryValue
  unfold entryClean at hclean
  cases hsecret : sensitive runtime key with
  | true => rfl
  | false =>
      have hsame := hsame hsecret
      simp only [hsecret, Bool.false_or, Bool.false_eq_true, if_false] at hclean ⊢
      by_cases hcontent : content runtime key = true
      · simp only [hcontent, if_true] at hclean ⊢
        cases mode with
        | none => rfl
        | metadataOnly =>
            have hkey := hclean rfl
            rw [Bool.not_eq_true'] at hkey
            rw [PyValue.SameBut.eq_of_hasKey item hkey item' hsame]
        | truncated => exact ih hsame nofun
      · simp only [hcontent] at hclean ⊢
        exact ih hsame hclean

theorem visible_redactEntries {entries entries' : List (PyKey × PyValue)}
    (h : List.Forall₂ (fun e e' => e'.1 = e.1 ∧
      (sensitive runtime e.1 = false → SameButSecrets runtime e.2 e'.2)) entries entries')
    (hclean : mode = .metadataOnly → cleanEntries runtime limits depth entries = true)
    (ih : ∀ e ∈ entries, ∀ item', SameButSecrets runtime e.2 item' →
      (mode = .metadataOnly → summariesClean runtime limits depth e.2 = true) →
      redact runtime mode limits depth item' = redact runtime mode limits depth e.2) :
    Table.visible Prod.fst (redactEntries runtime mode limits depth entries') =
      Table.visible Prod.fst (redactEntries runtime mode limits depth entries) := by
  induction h with
  | nil => rfl
  | @cons e e' rest rest' hhead htail hrest =>
      obtain ⟨key, item⟩ := e
      obtain ⟨key', item'⟩ := e'
      obtain ⟨rfl, hsame⟩ := hhead
      have htails := hrest (fun hmode => ((cleanEntries_cons runtime limits).mp (hclean hmode)).2)
        fun e he => ih e (List.mem_cons_of_mem _ he)
      have hkeys : rest'.map (·.1.str) = rest.map (·.1.str) := by
        have hfst : rest'.map Prod.fst = rest.map Prod.fst := by
          rw [← List.forall₂_eq_eq_eq, List.forall₂_map_left_iff, List.forall₂_map_right_iff]
          exact (htail.imp fun _ _ hrow => hrow.1).flip
        have hstr := congrArg (List.map PyKey.str) hfst
        rw [List.map_map, List.map_map] at hstr
        exact hstr
      rw [redactEntries_cons, redactEntries_cons, Table.visible, Table.visible]
      simp only [mem_redactEntries_keys, hkeys, htails]
      -- only a visible entry has to be the same in both runs
      by_cases hlater : key'.str ∈ rest.map (·.1.str)
      · rw [if_pos hlater, if_pos hlater]
      · rw [if_neg hlater, if_neg hlater]
        congr 2
        apply entryValue_eq hsame
        · intro hmode
          exact ((cleanEntries_cons runtime limits).mp (hclean hmode)).1.resolve_left hlater
        · exact ih (key', item) (List.mem_cons_self ..) item'

theorem upTo_redact_eq {items items' : List PyValue}
    (h : List.Forall₂ (SameButSecrets runtime) items items')
    (hclean : mode = .metadataOnly → (upTo limits.maxListItems
      (items.map (summariesClean runtime limits depth))).all id = true)
    (ih : ∀ item ∈ items, ∀ item', SameButSecrets runtime item item' →
      (mode = .metadataOnly → summariesClean runtime limits depth item = true) →
      redact runtime mode limits depth item' = redact runtime mode limits depth item) :
    upTo limits.maxListItems (items'.map (redact runtime mode limits depth)) =
      upTo limits.maxListItems (items.map (redact runtime mode limits depth)) := by
  simp only [upTo_eq_take, List.length_map, ← h.length_eq, ← List.map_take] at hclean ⊢
  have hshown := (List.forall₂_and_left _ _).mpr ⟨fun item hitem => hitem,
    List.forall₂_take (upToCount limits.maxListItems items.length) h⟩
  rw [← List.forall₂_eq_eq_eq, List.forall₂_map_left_iff, List.forall₂_map_right_iff]
  refine (hshown.imp fun item item' ⟨hitem, hsame⟩ => ?_).flip
  apply ih item (List.mem_of_mem_take hitem) item' hsame
  intro hmode
  exact List.all_eq_true.mp (hclean hmode) _ (List.mem_map_of_mem hitem)

/-- **Redaction of equal but for secrets.** Where no summary is made of a value with secrets inside, two
runs show the same. -/
theorem redact_eq (value : PyValue) : ∀ (depth : Nat) (value' : PyValue),
    SameButSecrets runtime value value' →
    (mode = .metadataOnly → summariesClean runtime limits depth value = true) →
    redact runtime mode limits depth value' = redact runtime mode limits depth value := by
  induction value using PyValue.nested with
  | leaf value hlist htuple hdict =>
      intro depth value' h _
      cases h with
      | same => rfl
      | list => exact absurd rfl (hlist _)
      | tuple => exact absurd rfl (htuple _)
      | dict => exact absurd rfl (hdict _)
  | list items ih =>
      intro depth value' h hclean
      by_cases hdepth : limits.maxDepth ≤ depth
      · rw [redact_deep hdepth, redact_deep hdepth]
      · cases h with
        | same => rfl
        | list hitems =>
            rw [redact_list hdepth, redact_list hdepth, ← hitems.length_eq]
            rw [summariesClean_list hdepth] at hclean
            rw [upTo_redact_eq hitems hclean fun item hitem => ih item hitem (depth + 1)]
  | tuple items ih =>
      intro depth value' h hclean
      by_cases hdepth : limits.maxDepth ≤ depth
      · rw [redact_deep hdepth, redact_deep hdepth]
      · cases h with
        | same => rfl
        | tuple hitems =>
            rw [redact_tuple hdepth, redact_tuple hdepth, ← hitems.length_eq]
            rw [summariesClean_tuple hdepth] at hclean
            rw [upTo_redact_eq hitems hclean fun item hitem => ih item hitem (depth + 1)]
  | dict entries ih =>
      intro depth value' h hclean
      by_cases hdepth : limits.maxDepth ≤ depth
      · rw [redact_deep hdepth, redact_deep hdepth]
      · cases h with
        | same => rfl
        | @dict _ entries' hkeys hvalues =>
            rw [redact_dict hdepth, redact_dict hdepth, PyValue.dict.injEq]
            rw [summariesClean_dict hdepth] at hclean
            apply Table.foldl_upsert_congr
            · rw [redactEntries_keys, redactEntries_keys]
              have hofStr := congrArg (List.map fun key => PyKey.ofStr runtime.printable key.str) hkeys
              rw [List.map_map, List.map_map] at hofStr
              exact hofStr
            · exact visible_redactEntries (PyValue.forall₂_of_map_fst hkeys hvalues) hclean
                fun e he item' hsame => ih e he (depth + 1) item' hsame
            · exact .nil

end runs

/-! ## What a summary tells -/

/-- Around any place for a string there are two strings with different fingerprints. -/
def Runtime.TellsApart (runtime : Runtime) : Prop :=
  ∀ front back : List Char, ∃ s s' : List Char,
    (runtime.sha256 (front ++ reprStr runtime.printable s ++ back)).take 16 ≠
      (runtime.sha256 (front ++ reprStr runtime.printable s' ++ back)).take 16

section summaries

variable {runtime : Runtime} {limits : Limits} {depth : Nat} (hsha : runtime.TellsApart)
include hsha

omit hsha in
theorem fingerprint_eq {item item' : PyValue} (h : metadata runtime item' = metadata runtime item) :
    fingerprint runtime item' = fingerprint runtime item := by
  simp only [metadata, PyValue.dict.injEq, List.cons.injEq, Prod.mk.injEq, PyValue.str.injEq] at h
  exact h.2.2.2.1.2

/-- The summary of a value with a secret inside depends on the secret. -/
theorem metadata_tells {item : PyValue} (h : item.hasKey (sensitive runtime) = true) :
    ∃ item', SameButSecrets runtime item item' ∧ metadata runtime item' ≠ metadata runtime item := by
  obtain ⟨front, back, hplace⟩ := PyValue.repr_around runtime.printable item h
  obtain ⟨s, s', hne⟩ := hsha front back
  obtain ⟨first, hfirst, hrepr⟩ := hplace s
  obtain ⟨second, hsecond, hrepr'⟩ := hplace s'
  -- of two strings with different fingerprints one differs from what stands there
  by_cases hsame : metadata runtime first = metadata runtime item
  · refine ⟨second, hsecond, fun hsame' => hne ?_⟩
    have heq := (fingerprint_eq hsame).trans (fingerprint_eq hsame').symm
    unfold fingerprint at heq
    rw [hrepr, hrepr'] at heq
    exact heq
  · exact ⟨first, hfirst, hsame⟩

omit hsha in
theorem exists_entry_of_unclean {entries : List (PyKey × PyValue)}
    (h : cleanEntries runtime limits depth entries = false) :
    ∃ before entry after, entries = before ++ entry :: after ∧
      entry.1.str ∉ after.map (·.1.str) ∧ entryClean runtime limits depth entry = false := by
  induction entries with
  | nil => cases h
  | cons entry entries ih =>
      by_cases hrest : cleanEntries runtime limits depth entries = true
      · refine ⟨[], entry, entries, rfl, ?_, ?_⟩
        · intro hlater
          rw [(cleanEntries_cons runtime limits).mpr ⟨.inl hlater, hrest⟩] at h
          cases h
        · by_contra hentry
          rw [Bool.not_eq_false] at hentry
          rw [(cleanEntries_cons runtime limits).mpr ⟨.inr hentry, hrest⟩] at h
          cases h
      · obtain ⟨before, found, after, rfl, hlast, hunclean⟩ := ih (by simpa using hrest)
        exact ⟨entry :: before, found, after, rfl, hlast, hunclean⟩

/-- The value that an unclean entry is given depends on a secret in it. -/
theorem entryValue_tells {entry : PyKey × PyValue}
    (ih : summariesClean runtime limits depth entry.2 = false → ∃ item',
      SameButSecrets runtime entry.2 item' ∧
        redact runtime .metadataOnly limits depth item' ≠
          redact runtime .metadataOnly limits depth entry.2)
    (h : entryClean runtime limits depth entry = false) : ∃ item',
      SameButSecrets runtime entry.2 item' ∧
        entryValue runtime .metadataOnly limits depth (entry.1, item') ≠
          entryValue runtime .metadataOnly limits depth entry := by
  unfold entryClean at h
  rw [Bool.or_eq_false_iff] at h
  obtain ⟨hsecret, hunclean⟩ := h
  by_cases hcontent : content runtime entry.1 = true
  · rw [if_pos hcontent, Bool.not_eq_false'] at hunclean
    obtain ⟨item', hsame, hne⟩ := metadata_tells hsha hunclean
    refine ⟨item', hsame, ?_⟩
    simpa only [entryValue, hsecret, hcontent, Bool.false_eq_true, if_false, if_true] using hne
  · rw [if_neg hcontent] at hunclean
    obtain ⟨item', hsame, hne⟩ := ih hunclean
    refine ⟨item', hsame, ?_⟩
    simpa only [entryValue, hsecret, hcontent, Bool.false_eq_true, if_false] using hne

theorem dict_tells {entries : List (PyKey × PyValue)}
    (ih : ∀ e ∈ entries, summariesClean runtime limits depth e.2 = false → ∃ item',
      SameButSecrets runtime e.2 item' ∧
        redact runtime .metadataOnly limits depth item' ≠ redact runtime .metadataOnly limits depth e.2)
    (h : cleanEntries runtime limits depth entries = false) : ∃ entries',
      SameButSecrets runtime (.dict entries) (.dict entries') ∧
        PyValue.assignAll (redactEntries runtime .metadataOnly limits depth entries') ≠
          PyValue.assignAll (redactEntries runtime .metadataOnly limits depth entries) := by
  obtain ⟨before, entry, after, rfl, hlast, hunclean⟩ := exists_entry_of_unclean h
  obtain ⟨item', hsame, hne⟩ := entryValue_tells hsha
    (ih entry (List.mem_append_right _ (List.mem_cons_self ..))) hunclean
  refine ⟨before ++ (entry.1, item') :: after, PyValue.SameBut.dict_around before after fun _ => hsame, ?_⟩
  intro heq
  -- the entry is the last one with its key, so that it can be looked up
  have hvisible : ∀ item, Table.get Prod.fst (PyValue.assignAll
      (redactEntries runtime .metadataOnly limits depth (before ++ (entry.1, item) :: after)))
      (.ofStr runtime.printable entry.1.str) = some (.ofStr runtime.printable entry.1.str,
        entryValue runtime .metadataOnly limits depth (entry.1, item)) := by
    intro item
    rw [redactEntries_append, redactEntries_cons]
    have hlater : PyKey.ofStr runtime.printable entry.1.str ∉
        (redactEntries runtime .metadataOnly limits depth after).map Prod.fst :=
      fun hmem => hlast ((mem_redactEntries_keys runtime .metadataOnly limits).mp hmem)
    unfold PyValue.assignAll
    exact Table.get_foldl_upsert_of_visible hlater
  have hget := hvisible item'
  rw [heq, hvisible entry.2, Option.some.injEq, Prod.mk.injEq] at hget
  exact hne hget.2.symm

omit hsha in
/-- The items that are shown of a list tell of a secret that a summary in one of them depends on. -/
theorem items_tell {items : List PyValue}
    (ih : ∀ item ∈ items, summariesClean runtime limits depth item = false → ∃ item',
      SameButSecrets runtime item item' ∧
        redact runtime .metadataOnly limits depth item' ≠
          redact runtime .metadataOnly limits depth item)
    (h : (upTo limits.maxListItems (items.map (summariesClean runtime limits depth))).all id = false) :
    ∃ items', List.Forall₂ (SameButSecrets runtime) items items' ∧
      ∀ rest rest', upTo limits.maxListItems
        (items'.map (redact runtime .metadataOnly limits depth)) ++ rest' ≠
          upTo limits.maxListItems (items.map (redact runtime .metadataOnly limits depth)) ++ rest := by
  rw [upTo_eq_take, List.length_map, ← List.map_take, List.all_eq_false] at h
  obtain ⟨clean, hclean, hfalse⟩ := h
  obtain ⟨item, hitem, rfl⟩ := List.mem_map.mp hclean
  obtain ⟨before, after, hshown⟩ := List.append_of_mem hitem
  obtain ⟨item', hsame, hne⟩ := ih item (List.mem_of_mem_take hitem) (by simpa using hfalse)
  have hitems : items = before ++ item :: (after ++
      items.drop (upToCount limits.maxListItems items.length)) := by
    conv_lhs => rw [← List.take_append_drop (upToCount limits.maxListItems items.length) items, hshown]
    rw [List.append_assoc, List.cons_append]
  have hcount : before.length < upToCount limits.maxListItems items.length := by
    have hlength := congrArg List.length hshown
    rw [List.length_append, List.length_cons, List.length_take] at hlength
    omega
  generalize after ++ items.drop (upToCount limits.maxListItems items.length) = tail at hitems
  subst hitems
  refine ⟨before ++ item' :: tail, PyValue.SameBut.around before tail hsame, fun rest rest' heq => ?_⟩
  -- the two lists differ at the place of the item
  have hplace : ∀ (found : PyValue) (rest : List PyValue), (upTo limits.maxListItems
      ((before ++ found :: tail).map (redact runtime .metadataOnly limits depth)) ++
        rest)[before.length]? = some (redact runtime .metadataOnly limits depth found) := by
    intro found rest
    have hlength : (before ++ found :: tail).length = (before ++ item :: tail).length := by
      rw [List.length_append, List.length_append, List.length_cons, List.length_cons]
    rw [upTo_eq_take, List.length_map, hlength, List.getElem?_append_left,
      List.getElem?_take_of_lt hcount, List.getElem?_map, List.getElem?_append_right (Nat.le_refl _),
      Nat.sub_self]
    · rfl
    · have hbehind : before.length < (before ++ item :: tail).length := by
        rw [List.length_append, List.length_cons]
        omega
      rw [List.length_take, List.length_map, hlength]
      exact lt_min hcount hbehind
  have hfound := hplace item' rest'
  rw [heq, hplace item rest, Option.some.injEq] at hfound
  exact hne hfound.symm

/-- A summary of a value with a secret inside shows in what the redaction returns. -/
theorem redact_tells (value : PyValue) : ∀ depth : Nat,
    summariesClean runtime limits depth value = false → ∃ value',
      SameButSecrets runtime value value' ∧
        redact runtime .metadataOnly limits depth value' ≠
          redact runtime .metadataOnly limits depth value := by
  induction value using PyValue.nested with
  | leaf value hlist htuple hdict =>
      intro depth h
      unfold summariesClean at h
      cases value with
      | list items => exact absurd rfl (hlist items)
      | tuple items => exact absurd rfl (htuple items)
      | dict entries => exact absurd rfl (hdict entries)
      | _ => simp at h
  | list items ih =>
      intro depth h
      have hdepth := not_deep h
      rw [summariesClean_list hdepth] at h
      obtain ⟨items', hsame, hne⟩ := items_tell (fun item hitem => ih item hitem (depth + 1)) h
      refine ⟨.list items', .list hsame, ?_⟩
      rw [redact_list hdepth, redact_list hdepth]
      exact fun heq => hne _ _ (PyValue.list.inj heq)
  | tuple items ih =>
      intro depth h
      have hdepth := not_deep h
      rw [summariesClean_tuple hdepth] at h
      obtain ⟨items', hsame, hne⟩ := items_tell (fun item hitem => ih item hitem (depth + 1)) h
      refine ⟨.tuple items', .tuple hsame, ?_⟩
      rw [redact_tuple hdepth, redact_tuple hdepth]
      exact fun heq => hne _ _ (PyValue.list.inj heq)
  | dict entries ih =>
      intro depth h
      have hdepth := not_deep h
      rw [summariesClean_dict hdepth] at h
      obtain ⟨entries', hsame, hne⟩ := dict_tells hsha (fun e he => ih e he (depth + 1)) h
      refine ⟨.dict entries', hsame, ?_⟩
      rw [redact_dict hdepth, redact_dict hdepth]
      exact fun heq => hne (PyValue.dict.inj heq)

end summaries

/-! ## Snapshots -/

section snapshots

variable {runtime : Runtime}

theorem safeSnapshot_fits {value : PyValue} {maxBytes : Int} :
    (safeSnapshot runtime value maxBytes).truncated = false ↔
      (utf8Length (value.repr runtime.printable) : Int) ≤ maxBytes ∧
        (utf8Length ((redact runtime .metadataOnly {} 0 value).repr runtime.printable) : Int) ≤
          maxBytes := by
  unfold safeSnapshot
  dsimp only
  split
  · next h => simp only [h, and_self]
  · next h => simp only [h, Bool.true_eq_false]

theorem safeSnapshot_data {value : PyValue} {maxBytes : Int}
    (h : (safeSnapshot runtime value maxBytes).truncated = false) :
    safeSnapshot runtime value maxBytes =
      { data := redact runtime .metadataOnly {} 0 value, truncated := false, sizes := none } := by
  unfold safeSnapshot
  exact if_pos (safeSnapshot_fits.mp h)

/-- Untruncated snapshots hide what the redaction hides. -/
theorem snapshotHides_iff (value : PyValue) :
    SnapshotHides runtime value ↔ Hides runtime .metadataOnly {} value := by
  constructor
  · intro h value' hsame
    -- a limit that both values keep to
    have hlimit : ∃ maxBytes, (safeSnapshot runtime value maxBytes).truncated = false ∧
        (safeSnapshot runtime value' maxBytes).truncated = false := by
      refine ⟨(utf8Length (value.repr runtime.printable) : Int) +
        utf8Length ((redact runtime .metadataOnly {} 0 value).repr runtime.printable) +
        utf8Length (value'.repr runtime.printable) +
        utf8Length ((redact runtime .metadataOnly {} 0 value').repr runtime.printable), ?_, ?_⟩ <;>
      · rw [safeSnapshot_fits]
        constructor <;> omega
    obtain ⟨maxBytes, hfits, hfits'⟩ := hlimit
    have hsnapshots := h value' maxBytes hsame hfits hfits'
    rw [safeSnapshot_data hfits, safeSnapshot_data hfits'] at hsnapshots
    exact congrArg Snapshot.data hsnapshots
  · intro h value' maxBytes hsame hfits hfits'
    rw [safeSnapshot_data hfits, safeSnapshot_data hfits', h value' hsame]

/-- **Secrets in summaries.** The redaction hides the secrets of a value exactly when, in the mode of
summaries, it summarises no value with a sensitive key inside. So do snapshots, which are made in this
mode and within the default limits. -/
theorem redaction_hides_iff (hsha : runtime.TellsApart) (value : PyValue) :
    (∀ mode limits, Hides runtime mode limits value ↔
      (mode = .metadataOnly → summariesClean runtime limits 0 value = true)) ∧
    (SnapshotHides runtime value ↔ summariesClean runtime {} 0 value = true) := by
  have hredact : ∀ mode limits, Hides runtime mode limits value ↔
      (mode = .metadataOnly → summariesClean runtime limits 0 value = true) := by
    intro mode limits
    constructor
    · rintro hhides rfl
      by_contra hunclean
      obtain ⟨value', hsame, hne⟩ := redact_tells hsha value 0 (by simpa using hunclean)
      exact hne (hhides value' hsame)
    · intro hclean value' hsame
      exact redact_eq value 0 value' hsame hclean
  refine ⟨hredact, ?_⟩
  rw [snapshotHides_iff, hredact]
  simp only [forall_const]

end snapshots

/-! ## A work order with a password -/

/-- SHA-256 of the texts below; of other texts only whether their length is even. -/
def sampleDigest (text : List Char) : List Char :=
  if text = "\x7b'password': 'a'\x7d".toList then
    "a27dee052d6d7488582c6c0ef42280f984b0830057417f8a391aa0ab7d35beb6".toList
  else if text = "\x7b'password': 'b'\x7d".toList then
    "ce3b0f357b18a510edb489c5c6b0d96671398d45959839e8e5d75e215baf09df".toList
  else if text = "'Fan stopped'".toList then
    "d10372e7acb33db1ef1757ce9263f6fc7bc67c369f3212f3f3c461b7627fffc2".toList
  else if text.length % 2 = 0 then List.replicate 64 '0'
  else List.replicate 64 '1'

def sampleRuntime : Runtime where
  lower text := text.map Char.toLower
  printable _ := true
  sha256 := sampleDigest

theorem sampleDigest_parity (text : List Char) :
    (sampleDigest text).take 16 = List.replicate 16 '0' ↔ text.length % 2 = 0 := by
  unfold sampleDigest
  split_ifs with ha hb hfan heven
  · subst ha
    decide
  · subst hb
    decide
  · subst hfan
    decide
  · simp [heven]
  · simp only [heven, iff_false]
    decide

theorem sampleRuntime_tellsApart : sampleRuntime.TellsApart := by
  intro front back
  refine ⟨[], ['a'], fun heq => ?_⟩
  have hempty := sampleDigest_parity (front ++ reprStr sampleRuntime.printable [] ++ back)
  have hletter := sampleDigest_parity (front ++ reprStr sampleRuntime.printable ['a'] ++ back)
  have hlengths : (reprStr sampleRuntime.printable []).length = 2 ∧
      (reprStr sampleRuntime.printable ['a']).length = 3 := by decide
  have heq : (sampleDigest (front ++ reprStr sampleRuntime.printable [] ++ back)).take 16 =
      (sampleDigest (front ++ reprStr sampleRuntime.printable ['a'] ++ back)).take 16 := heq
  rw [heq, hletter] at hempty
  simp only [List.length_append, hlengths.1, hlengths.2] at hempty
  omega

def operatorMessage : PyValue :=
  .dict [(strKey sampleRuntime "user_message", .str "Fan stopped".toList),
    (strKey sampleRuntime "Password", .str "pw".toList)]

theorem operatorMessage_hidden : Hides sampleRuntime .metadataOnly {} operatorMessage ∧
    SnapshotHides sampleRuntime operatorMessage := by
  obtain ⟨hmodes, hsnapshot⟩ := redaction_hides_iff sampleRuntime_tellsApart operatorMessage
  exact ⟨(hmodes .metadataOnly {}).mpr fun _ => by decide, hsnapshot.mpr (by decide)⟩

def workOrder (password : String) : PyValue :=
  .dict [(strKey sampleRuntime "work_order",
    .dict [(strKey sampleRuntime "password", .str password.toList)])]

/-- Two work orders that differ in a password are told apart, in logs and in snapshots. -/
theorem workOrder_tells : SameButSecrets sampleRuntime (workOrder "a") (workOrder "b") ∧
    ¬ Hides sampleRuntime .metadataOnly {} (workOrder "a") ∧
    ¬ SnapshotHides sampleRuntime (workOrder "a") := by
  have hsame : SameButSecrets sampleRuntime (workOrder "a") (workOrder "b") := by
    refine PyValue.SameBut.dict_around [] [] fun _ => ?_
    exact PyValue.SameBut.dict_around [] [] fun hsecret => absurd hsecret (by decide)
  have hredact : ∀ password, redact sampleRuntime .metadataOnly {} 0 (workOrder password) =
      .dict [(strKey sampleRuntime "work_order", metadata sampleRuntime
        (.dict [(strKey sampleRuntime "password", .str password.toList)]))] := fun _ => rfl
  have htells : ¬ Hides sampleRuntime .metadataOnly {} (workOrder "a") := by
    intro hhides
    have hshown := hhides (workOrder "b") hsame
    rw [hredact, hredact, PyValue.dict.injEq, List.cons.injEq, Prod.mk.injEq] at hshown
    exact absurd (fingerprint_eq hshown.1.2) (by decide)
  exact ⟨hsame, htells, fun hsnapshot => htells ((snapshotHides_iff _).mp hsnapshot)⟩

end EnergyAgent.Observability
