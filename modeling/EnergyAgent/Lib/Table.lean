import Mathlib.Data.List.Forall2
import Mathlib.Data.List.Nodup

/-!
# Keyed tables

A database table as the list of its rows, addressed through a key column. `get` is the primary-key
read, `update` the keyed `UPDATE`, `insert?` the `INSERT` that a duplicate key refuses. All reads of
the development go through `get`, so a table behaves like the finite map `k ↦ get t k`; the lemmas
below say how each write moves that map.
-/

namespace EnergyAgent.Lib.Table

variable {κ ρ : Type} [DecidableEq κ] (key : ρ → κ)

/-- The row with key `k`. -/
def get (t : List ρ) (k : κ) : Option ρ := t.find? (fun r => key r = k)

/-- Rewrite the row with key `k`; no row with that key, no change. -/
def update (t : List ρ) (k : κ) (f : ρ → ρ) : List ρ :=
  t.map (fun r => if key r = k then f r else r)

/-- Insert a row; `none` when its key is taken. -/
def insert? (t : List ρ) (r : ρ) : Option (List ρ) :=
  if (get key t (key r)).isSome then none else some (t ++ [r])

/-- Replace the row with the same key, or append. -/
def upsert (t : List ρ) (r : ρ) : List ρ :=
  if (get key t (key r)).isSome then update key t (key r) (fun _ => r) else t ++ [r]

/-- Drop the row with key `k`. -/
def delete (t : List ρ) (k : κ) : List ρ := t.filter (fun r => key r ≠ k)

variable {key}

theorem get_eq_some {t : List ρ} {k : κ} {r : ρ} (h : get key t k = some r) :
    r ∈ t ∧ key r = k := by
  refine ⟨List.mem_of_find?_eq_some h, ?_⟩
  simpa using List.find?_some h

theorem get_eq_none {t : List ρ} {k : κ} : get key t k = none ↔ ∀ r ∈ t, key r ≠ k := by
  simp [get]

/-- With distinct keys the read finds every row of the table. -/
theorem get_of_mem {t : List ρ} (hnd : (t.map key).Nodup) {r : ρ} (hr : r ∈ t) :
    get key t (key r) = some r := by
  cases hg : get key t (key r) with
  | none => exact absurd rfl (get_eq_none.mp hg r hr)
  | some r' =>
      obtain ⟨hmem, hkey⟩ := get_eq_some hg
      rw [List.inj_on_of_nodup_map hnd hmem hr hkey]

/-- A rewriting of all rows that keeps the keys commutes with reading. -/
theorem get_map {t : List ρ} {f : ρ → ρ} (hf : ∀ r, key (f r) = key r) (k : κ) :
    get key (t.map f) k = (get key t k).map f := by
  unfold get
  rw [List.find?_map]
  congr 2
  funext r
  simp only [Function.comp_apply, hf]

section update

variable {f : ρ → ρ} {t : List ρ} {k : κ}

theorem get_update_self (hf : ∀ r, key r = k → key (f r) = k) :
    get key (update key t k f) k = (get key t k).map f := by
  induction t with
  | nil => rfl
  | cons r t ih =>
      by_cases hr : key r = k
      · simp [get, update, hr, hf r hr]
      · simpa [get, update, hr] using ih

theorem get_update_ne (hf : ∀ r, key r = k → key (f r) = k) {k' : κ} (hk : k' ≠ k) :
    get key (update key t k f) k' = get key t k' := by
  induction t with
  | nil => rfl
  | cons r t ih =>
      by_cases hr : key r = k
      · have hr' : ¬ k = k' := fun h => hk h.symm
        simpa [get, update, hr, hf r hr, hr'] using ih
      · by_cases hr' : key r = k'
        · simp [get, update, hr', hk]
        · simpa [get, update, hr, hr'] using ih

/-- A row read back after an update is a row from before it, rewritten if its key was the one
updated. -/
theorem get_update_eq_some (hf : ∀ r, key r = k → key (f r) = k) {k' : κ} {r' : ρ}
    (h : get key (update key t k f) k' = some r') :
    ∃ r, get key t k' = some r ∧ ((k' = k ∧ r' = f r) ∨ (k' ≠ k ∧ r' = r)) := by
  by_cases hk : k' = k
  · subst hk
    rw [get_update_self hf] at h
    obtain ⟨r, hr, hfr⟩ := Option.map_eq_some_iff.mp h
    exact ⟨r, hr, Or.inl ⟨rfl, hfr.symm⟩⟩
  · rw [get_update_ne hf hk] at h
    exact ⟨r', h, Or.inr ⟨hk, rfl⟩⟩

theorem map_key_update (hf : ∀ r, key r = k → key (f r) = k) :
    (update key t k f).map key = t.map key := by
  unfold update
  rw [List.map_map]
  apply List.map_congr_left
  intro r _
  by_cases hr : key r = k
  · simp [hr, hf r hr]
  · simp [hr]

end update

section insert

variable {t t' : List ρ} {r : ρ}

theorem insert?_eq_some (h : insert? key t r = some t') :
    get key t (key r) = none ∧ t' = t ++ [r] := by
  unfold insert? at h
  split at h
  · cases h
  · next hnone =>
      cases h
      exact ⟨by simpa using hnone, rfl⟩

/-- Rows that are inserted one by one end up behind the old ones. -/
theorem foldlM_insert?_eq_some {rows : List ρ} (h : rows.foldlM (insert? key) t = some t') :
    t' = t ++ rows := by
  induction rows generalizing t with
  | nil =>
      cases h
      exact (List.append_nil _).symm
  | cons r rows ih =>
      rw [List.foldlM_cons] at h
      obtain ⟨t₁, hfirst, hrest⟩ := Option.bind_eq_some_iff.mp h
      obtain ⟨-, rfl⟩ := insert?_eq_some hfirst
      rw [ih hrest, List.append_assoc, List.singleton_append]

/-- Reading after an append: the old rows first. -/
theorem get_append (k : κ) :
    get key (t ++ [r]) k = (get key t k).or (if key r = k then some r else none) := by
  unfold get
  rw [List.find?_append]
  by_cases hr : key r = k <;> simp [hr]

theorem get_append_of_some {k : κ} {r' : ρ} (h : get key t k = some r') :
    get key (t ++ [r]) k = some r' := by
  rw [get_append, h]
  rfl

theorem get_append_ne {k : κ} (h : key r ≠ k) : get key (t ++ [r]) k = get key t k := by
  rw [get_append, if_neg h, Option.or_none]

theorem get_append_self (h : get key t (key r) = none) :
    get key (t ++ [r]) (key r) = some r := by
  rw [get_append, h, if_pos rfl]
  rfl

/-- A row read back after an append is an old row or the new one. -/
theorem get_append_eq_some {k : κ} {r' : ρ} (h : get key (t ++ [r]) k = some r') :
    get key t k = some r' ∨ (get key t k = none ∧ key r = k ∧ r' = r) := by
  rw [get_append] at h
  cases hg : get key t k with
  | some r₀ =>
      rw [hg] at h
      exact Or.inl h
  | none =>
      rw [hg] at h
      by_cases hr : key r = k
      · rw [if_pos hr] at h
        simp only [Option.none_or, Option.some.injEq] at h
        exact Or.inr ⟨rfl, hr, h.symm⟩
      · simp [hr] at h

theorem nodup_append (hnd : (t.map key).Nodup) (h : get key t (key r) = none) :
    ((t ++ [r]).map key).Nodup := by
  rw [List.map_append, List.map_singleton]
  refine List.Nodup.append hnd (List.nodup_singleton _) ?_
  intro k hk hk'
  obtain ⟨r₀, hr₀, rfl⟩ := List.mem_map.mp hk
  exact get_eq_none.mp h r₀ hr₀ (List.mem_singleton.mp hk')

end insert

/-- Dropping a key removes exactly that key. -/
theorem get_delete (t : List ρ) (k k' : κ) :
    get key (delete key t k) k' = if k' = k then none else get key t k' := by
  induction t with
  | nil => simp [get, delete]
  | cons r t ih =>
      unfold get delete at ih ⊢
      by_cases hr : key r = k <;> by_cases hr' : key r = k' <;> by_cases hkk : k' = k <;>
        simp_all

/-- A row and those with other keys. -/
theorem perm_delete {t : List ρ} (hnd : (t.map key).Nodup) {r : ρ} (hr : r ∈ t) :
    t.Perm (r :: delete key t (key r)) := by
  induction t with
  | nil => cases hr
  | cons r' t ih =>
      obtain ⟨hnew, hnd⟩ := List.nodup_cons.mp hnd
      rcases List.mem_cons.mp hr with rfl | hr
      · have hothers : delete key (r :: t) (key r) = t := by
          unfold delete
          rw [List.filter_cons_of_neg (by simp), List.filter_eq_self]
          intro r' hr'
          have hne : key r' ≠ key r := fun heq => hnew (heq ▸ List.mem_map_of_mem hr')
          simpa using hne
        rw [hothers]
      · have hne : key r' ≠ key r := fun heq => hnew (heq ▸ List.mem_map_of_mem hr)
        have hothers : delete key (r' :: t) (key r) = r' :: delete key t (key r) :=
          List.filter_cons_of_pos (by simpa using hne)
        rw [hothers]
        exact ((ih hnd hr).cons r').trans (.swap r r' _)

/-- A row that is there is not written again. -/
theorem upsert_of_mem {t : List ρ} (hnd : (t.map key).Nodup) {r : ρ} (hr : r ∈ t) :
    upsert key t r = t := by
  unfold upsert
  rw [get_of_mem hnd hr, Option.isSome_some, if_pos rfl]
  conv_rhs => rw [← List.map_id t]
  refine List.map_congr_left fun r' hr' => ?_
  split
  · next hkey => exact (List.inj_on_of_nodup_map hnd hr' hr hkey).symm
  · rfl

theorem upsert_of_none {t : List ρ} {r : ρ} (h : get key t (key r) = none) :
    upsert key t r = t ++ [r] := by
  unfold upsert
  rw [h]
  rfl

/-- No key, or one row. -/
theorem length_filter_le_one {t : List ρ} (hnd : (t.map key).Nodup) (k : κ) :
    (t.filter fun r => key r = k).length ≤ if (get key t k).isSome then 1 else 0 := by
  cases hget : get key t k with
  | none =>
      have hnone : t.filter (fun r => key r = k) = [] := by
        simpa [List.filter_eq_nil_iff] using get_eq_none.mp hget
      rw [hnone]
      exact Nat.zero_le _
  | some r =>
      obtain ⟨hmem, rfl⟩ := get_eq_some hget
      have hothers : (delete key t (key r)).filter (fun r' => key r' = key r) = [] := by
        simp [delete]
      have hone := (perm_delete hnd hmem).filter (fun r' => key r' = key r)
      rw [List.filter_cons_of_pos (by simp), hothers] at hone
      rw [hone.length_eq]
      exact Nat.le_refl 1

theorem get_upsert_self (t : List ρ) (r : ρ) : get key (upsert key t r) (key r) = some r := by
  unfold upsert
  split
  · next h =>
      obtain ⟨r₀, hr₀⟩ := Option.isSome_iff_exists.mp h
      rw [get_update_self (fun _ _ => rfl), hr₀]
      rfl
  · next h => exact get_append_self (by simpa using h)

theorem get_upsert_ne (t : List ρ) {r : ρ} {k : κ} (hk : k ≠ key r) :
    get key (upsert key t r) k = get key t k := by
  unfold upsert
  split
  · exact get_update_ne (fun _ _ => rfl) hk
  · exact get_append_ne (fun h => hk h.symm)

theorem mem_keys_iff {t : List ρ} {k : κ} : k ∈ t.map key ↔ get key t k ≠ none := by
  rw [Ne, get_eq_none]
  simp only [List.mem_map, not_forall, not_not, exists_prop]

theorem mem_keys_upsert {t : List ρ} {r : ρ} {k : κ} :
    k ∈ (upsert key t r).map key ↔ k ∈ t.map key ∨ k = key r := by
  by_cases hk : k = key r
  · subst hk
    rw [mem_keys_iff, get_upsert_self]
    simp
  · rw [mem_keys_iff, get_upsert_ne t hk, mem_keys_iff]
    simp [hk]

theorem mem_keys_foldl_upsert {rows t : List ρ} {k : κ} :
    k ∈ (rows.foldl (upsert key) t).map key ↔ k ∈ t.map key ∨ k ∈ rows.map key := by
  induction rows generalizing t with
  | nil => simp
  | cons r rows ih => rw [List.foldl_cons, ih, mem_keys_upsert, List.map_cons, List.mem_cons, or_assoc]

theorem mem_upsert {t : List ρ} {r r' : ρ} (h : r' ∈ upsert key t r) : r' ∈ t ∨ r' = r := by
  unfold upsert at h
  split at h
  · obtain ⟨old, hold, rfl⟩ := List.mem_map.mp h
    split
    · exact Or.inr rfl
    · exact Or.inl hold
  · rcases List.mem_append.mp h with hold | hnew
    · exact Or.inl hold
    · exact Or.inr (List.mem_singleton.mp hnew)

theorem mem_foldl_upsert {rows t : List ρ} {r : ρ} (h : r ∈ rows.foldl (upsert key) t) :
    r ∈ t ∨ r ∈ rows := by
  induction rows generalizing t with
  | nil => exact Or.inl h
  | cons first rows ih =>
      rcases ih h with hstep | hrest
      · rcases mem_upsert hstep with hold | rfl
        · exact Or.inl hold
        · exact Or.inr (List.mem_cons_self ..)
      · exact Or.inr (List.mem_cons_of_mem _ hrest)

/-- The keys keep their places: a write under an old key replaces a row where it stands. -/
theorem keys_isPrefix_upsert (t : List ρ) (r : ρ) : t.map key <+: (upsert key t r).map key := by
  unfold upsert
  split
  · exact ⟨[], by rw [List.append_nil, map_key_update (fun _ _ => rfl)]⟩
  · rw [List.map_append]
    exact List.prefix_append ..

theorem keys_isPrefix_foldl_upsert (rows t : List ρ) :
    t.map key <+: (rows.foldl (upsert key) t).map key := by
  induction rows generalizing t with
  | nil => exact List.prefix_rfl
  | cons r rows ih => exact (keys_isPrefix_upsert t r).trans (ih (upsert key t r))

/-- Rows of new and different keys are appended. -/
theorem foldl_upsert_of_nodup {rows t : List ρ} (h : ((t ++ rows).map key).Nodup) :
    rows.foldl (upsert key) t = t ++ rows := by
  induction rows generalizing t with
  | nil => exact (List.append_nil t).symm
  | cons r rows ih =>
      have hnew : get key t (key r) = none := by
        by_contra hsome
        rw [List.map_append, List.map_cons] at h
        exact (List.disjoint_of_nodup_append h) (mem_keys_iff.mpr hsome) (List.mem_cons_self ..)
      have hstep : upsert key t r = t ++ [r] := by
        unfold upsert
        rw [hnew]
        rfl
      have hsplit : t ++ r :: rows = t ++ [r] ++ rows := by rw [List.append_assoc]; rfl
      rw [List.foldl_cons, hstep, hsplit]
      rw [hsplit] at h
      exact ih h

/-! ## The last row of each key -/

/-- The rows that no later row replaces. -/
def visible (key : ρ → κ) : List ρ → List ρ
  | [] => []
  | r :: rows => if key r ∈ rows.map key then visible key rows else r :: visible key rows

/-- Two tables that agree on the rows whose keys are not written any more. -/
def AgreeBut (key : ρ → κ) (keys : List κ) (t t' : List ρ) : Prop :=
  List.Forall₂ (fun r r' => key r = key r' ∧ (key r ∈ keys ∨ r = r')) t t'

section visible

variable {t t' rows rows' : List ρ} {keys : List κ}

theorem get_foldl_upsert_of_notMem {k : κ} (h : k ∉ rows.map key) :
    get key (rows.foldl (upsert key) t) k = get key t k := by
  induction rows generalizing t with
  | nil => rfl
  | cons r rows ih =>
      rw [List.map_cons, List.mem_cons, not_or] at h
      rw [List.foldl_cons, ih h.2, get_upsert_ne t h.1]

/-- A visible row is there when all are written. -/
theorem get_foldl_upsert_of_visible {before : List ρ} {r : ρ} (h : key r ∉ rows.map key) :
    get key ((before ++ r :: rows).foldl (upsert key) t) (key r) = some r := by
  rw [List.foldl_append, List.foldl_cons, get_foldl_upsert_of_notMem h, get_upsert_self]

theorem AgreeBut.isSome_get (h : AgreeBut key keys t t') (k : κ) :
    (get key t k).isSome = (get key t' k).isSome := by
  unfold get
  rw [Bool.eq_iff_iff, List.find?_isSome, List.find?_isSome]
  have hmap : t.map key = t'.map key := by
    rw [← List.forall₂_eq_eq_eq, List.forall₂_map_left_iff, List.forall₂_map_right_iff]
    exact h.imp fun _ _ hrow => hrow.1
  have hmem : ∀ u : List ρ, (∃ r ∈ u, decide (key r = k) = true) ↔ k ∈ u.map key := by
    intro u
    simp only [List.mem_map, decide_eq_true_eq]
  rw [hmem, hmem, hmap]

/-- To write a row makes the tables agree on its key, unless the key is written again. -/
theorem AgreeBut.upsert {r r' : ρ} (h : AgreeBut key (key r :: keys) t t') (hkey : key r = key r')
    (hrow : key r ∈ keys ∨ r = r') :
    AgreeBut key keys (Table.upsert key t r) (Table.upsert key t' r') := by
  have hsome := h.isSome_get (key r)
  unfold Table.upsert
  rw [← hkey, ← hsome]
  split
  · -- both tables have the key: the new rows stand where the old ones stood
    unfold AgreeBut update
    rw [List.forall₂_map_left_iff, List.forall₂_map_right_iff]
    refine h.imp fun a a' ⟨hkeys, hsame⟩ => ?_
    by_cases ha : key a = key r
    · rw [if_pos ha, if_pos (hkeys ▸ ha)]
      exact ⟨hkey, hrow⟩
    · rw [if_neg ha, if_neg (hkeys ▸ ha)]
      refine ⟨hkeys, hsame.imp_left fun hmem => ?_⟩
      exact (List.mem_cons.mp hmem).resolve_left ha
  · next hnone =>
    have hnew : ∀ a ∈ t, key a ≠ key r := by
      apply get_eq_none.mp
      simpa using hnone
    refine List.rel_append ?_ (.cons ⟨hkey, hrow⟩ .nil)
    have hboth := (List.forall₂_and_left _ _).mpr ⟨hnew, h⟩
    refine hboth.imp fun a a' ⟨ha, hkeys, hsame⟩ => ⟨hkeys, hsame.imp_left fun hmem => ?_⟩
    exact (List.mem_cons.mp hmem).resolve_left ha

/-- **Overwritten rows.** Rows that are written one after the other leave the same table when they
have the same keys and the same visible rows. -/
theorem foldl_upsert_congr (hkeys : rows.map key = rows'.map key)
    (hvisible : visible key rows = visible key rows') (h : AgreeBut key (rows.map key) t t') :
    rows.foldl (upsert key) t = rows'.foldl (upsert key) t' := by
  induction rows generalizing rows' t t' with
  | nil =>
      rw [List.map_nil] at hkeys
      rw [List.map_eq_nil_iff.mp hkeys.symm]
      have heq : List.Forall₂ (· = ·) t t' :=
        h.imp fun r r' hrow => hrow.2.resolve_left List.not_mem_nil
      exact List.forall₂_eq_eq_eq ▸ heq
  | cons r rows ih =>
      cases rows' with
      | nil => cases hkeys
      | cons r' rows' =>
          rw [List.map_cons, List.map_cons, List.cons.injEq] at hkeys
          obtain ⟨hkey, hkeys⟩ := hkeys
          unfold visible at hvisible
          rw [← hkey, ← hkeys] at hvisible
          rw [List.foldl_cons, List.foldl_cons]
          by_cases hlater : key r ∈ rows.map key
          · rw [if_pos hlater, if_pos hlater] at hvisible
            exact ih hkeys hvisible (h.upsert hkey (.inl hlater))
          · rw [if_neg hlater, if_neg hlater, List.cons.injEq] at hvisible
            exact ih hkeys hvisible.2 (h.upsert hkey (.inr hvisible.1))

end visible

/-! ## Numbered groups -/

section numbered

variable {γ : Type} [DecidableEq γ] (group : ρ → γ) (number : ρ → Nat)

/-- The numbers of the rows of a group, in the order of the table. -/
def numbers (t : List ρ) (g : γ) : List Nat := (t.filter fun r => group r = g).map number

/-- `COALESCE(MAX(number), 0)` of a group. -/
def maxNumber (t : List ρ) (g : γ) : Nat := (numbers group number t g).foldl max 0

/-- The rows of every group are numbered from 1, in the order of the table. -/
def Gapless (t : List ρ) : Prop :=
  ∀ g, numbers group number t g = List.range' 1 (numbers group number t g).length

variable {group number}

theorem gapless_nil : Gapless group number [] := fun _ => rfl

theorem numbers_concat (t : List ρ) (r : ρ) (g : γ) : numbers group number (t ++ [r]) g =
    numbers group number t g ++ if group r = g then [number r] else [] := by
  unfold numbers
  rw [List.filter_append, List.map_append]
  by_cases h : group r = g <;> simp [h]

/-- Rows of other groups change no number of a group. -/
theorem numbers_append_of_ne {t new : List ρ} {g : γ} (h : ∀ r ∈ new, group r ≠ g) :
    numbers group number (t ++ new) g = numbers group number t g := by
  have hnone : new.filter (fun r => group r = g) = [] := by simpa using h
  unfold numbers
  rw [List.filter_append, hnone, List.append_nil]

theorem foldl_max_range' (n k : Nat) : (List.range' 1 n).foldl max k = max k n := by
  induction n with
  | zero => simp
  | succ n ih =>
      rw [List.range'_1_concat, List.foldl_append, ih]
      simp only [List.foldl_cons, List.foldl_nil]
      omega

/-- The highest number of a group is the number of its rows. -/
theorem Gapless.maxNumber_eq {t : List ρ} (h : Gapless group number t) (g : γ) :
    maxNumber group number t g = (numbers group number t g).length := by
  unfold maxNumber
  rw [h g, foldl_max_range', List.length_range']
  omega

/-- A row with the next number of its group. -/
theorem Gapless.concat {t : List ρ} (h : Gapless group number t) {r : ρ}
    (hr : number r = maxNumber group number t (group r) + 1) : Gapless group number (t ++ [r]) := by
  intro g
  rw [numbers_concat]
  by_cases hg : group r = g
  · rw [if_pos hg, hr, hg, h.maxNumber_eq g, List.length_append, List.length_singleton,
      List.range'_1_concat, ← h g, Nat.add_comm 1]
  · rw [if_neg hg, List.append_nil]
    exact h g

/-- The next number of a group is not taken. -/
theorem Gapless.next_free {t : List ρ} (h : Gapless group number t) {r : ρ} (hr : r ∈ t) :
    number r ≠ maxNumber group number t (group r) + 1 := by
  have hmem : number r ∈ numbers group number t (group r) :=
    List.mem_map.mpr ⟨r, List.mem_filter.mpr ⟨hr, by simp⟩, rfl⟩
  rw [h (group r), List.mem_range'_1] at hmem
  rw [h.maxNumber_eq]
  omega

/-- The rows of a group stand in the order of their numbers. -/
theorem Gapless.increasing {t : List ρ} (h : Gapless group number t) :
    t.Pairwise fun r r' => group r = group r' → number r < number r' := by
  apply List.pairwise_of_forall_sublist
  intro r r' hsub hgroup
  have hnumbers : [number r, number r'].Sublist (numbers group number t (group r')) := by
    have hfilter := hsub.filter fun r => group r = group r'
    rw [List.filter_eq_self.mpr (by simp [hgroup])] at hfilter
    exact hfilter.map number
  rw [h (group r')] at hnumbers
  have hlt := @List.pairwise_lt_range' 1 (numbers group number t (group r')).length 1 Nat.one_pos
  exact hlt.forall_sublist hnumbers

end numbered

end EnergyAgent.Lib.Table
