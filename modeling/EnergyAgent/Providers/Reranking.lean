import EnergyAgent.Providers.Clients
import Mathlib.Data.List.Perm.Basic

/-!
# Which answers of the reranker are taken

`rerank` checks a count, each entry on its own, and at the end that every candidate has a score. An
answer is well-formed if its indices are the positions of the candidates in some order and its scores
are numbers.
-/

namespace EnergyAgent.Providers

open EnergyAgent.Lib

/-! ## Entries -/

section entries

/-- The index of an entry; what is no object has none. -/
def entryIndex : Json → Json
  | .obj fields => (Json.field fields "index").getD .null
  | _ => .null

/-- The score of an entry, under either of its names. -/
def entryScore : Json → Json
  | .obj fields =>
      (Json.field fields "relevance_score").getD ((Json.field fields "score").getD .null)
  | _ => .null

/-- The value of a JSON number; `NaN` is none. -/
def numeric : Json → Option PyFloat
  | .int n => some (.finite n)
  | .float .nan => none
  | .float x => some x
  | _ => none

/-- An answer for `n` candidates as it should be. -/
structure WellFormed (n : Nat) (results : List Json) : Prop where
  permutation : (results.map entryIndex).Perm ((List.range n).map fun i : Nat => Json.int i)
  scores : ∀ entry ∈ results, (numeric (entryScore entry)).isSome

/-- The map gives each candidate the score of its entry, clamped, and nothing to others. -/
def Scored (ids : List String) (results : List Json) (output : List (String × Rat)) : Prop :=
  (output.map Prod.fst).Perm ids ∧
    ∀ (i : Nat) (id : String) (entry : Json) (x : PyFloat), ids[i]? = some id → entry ∈ results →
      entryIndex entry = .int i → numeric (entryScore entry) = some x → (id, x.clamp) ∈ output

/-- Well-formed answers give the map of their scores, and all others a `RerankerResponseError`. -/
def TakesWellFormed (ids : List String) (results : List Json)
    (result : Except ProviderError (List (String × Rat))) : Prop :=
  (WellFormed ids.length results → ∃ output, result = .ok output ∧ Scored ids results output) ∧
    (¬ WellFormed ids.length results → result = .error .rerankerResponse)

variable (n : Nat)

/-- The entry has no integer below `n` as index, or no number as score; a Boolean counts as both. -/
def rejected : Json → Bool
  | .obj fields =>
      match (entryIndex (.obj fields)).asInt with
      | none => true
      | some i => n ≤ i || !(entryScore (.obj fields)).isNumber
  | _ => false

/-- The integer is too large for a `float`. -/
def tooLarge : Json → Bool
  | .int m => Json.floatLimit ≤ m.natAbs
  | _ => false

/-- The entry is no object, has an index below `-n`, or a score that is too large. -/
def raising (entry : Json) : Bool :=
  match entry with
  | .obj _ =>
      (match (entryIndex entry).asInt with
        | none => false
        | some i => decide (i < -(n : Int))) || tooLarge (entryScore entry)
  | _ => true

/-- The position that an index stands for, from the end for a negative one. -/
def position (entry : Json) : Nat :=
  match (entryIndex entry).asInt with
  | none => n
  | some i => (if 0 ≤ i then i else i + n).toNat

/-- The index is an integer from 0 on, and the score a number; a Boolean is neither. -/
def Proper (entry : Json) : Prop :=
  (∃ i : Nat, entryIndex entry = .int i) ∧ (numeric (entryScore entry)).isSome

/-- What an answer must be like for the checks to tell well-formed ones from others: no entry up to
the first that is rejected raises, and if none is rejected and the positions are all there, then the
entries are proper. -/
def Told (results : List Json) : Prop :=
  results.length = n →
    (∀ entry ∈ results.takeWhile (fun entry => !rejected n entry), raising n entry = false) ∧
      ((∀ entry ∈ results, rejected n entry = false) →
        (∀ k < n, ∃ entry ∈ results, position n entry = k) → ∀ entry ∈ results, Proper entry)

end entries

/-! ## One turn of the loop -/

section turn

variable (parser : NumberParser) (ids : List String)

/-- What `float` makes of a number. -/
def floatOf : Json → PyFloat
  | .int m => .finite m
  | .bool b => .finite b.toInt
  | .float x => x
  | _ => .nan

/-- What an entry adds to the map. -/
def entryPair (entry : Json) : String × Rat :=
  (ids.getD (position ids.length entry) "", (floatOf (entryScore entry)).clamp)

theorem toFloat_of_isNumber {score : Json} (h : score.isNumber = true) :
    score.toFloat parser = if tooLarge score then .error .overflow else .ok (floatOf score) := by
  cases score with
  | int m =>
      show (if m.natAbs < Json.floatLimit then _ else _) = _
      by_cases hsmall : m.natAbs < Json.floatLimit
      · have hnot : tooLarge (.int m) = false := decide_eq_false (Nat.not_le.mpr hsmall)
        rw [if_pos hsmall, hnot]
        rfl
      · have hlarge : tooLarge (.int m) = true := decide_eq_true (Nat.not_lt.mp hsmall)
        rw [if_neg hsmall, hlarge]
        rfl
  | bool b => rfl
  | float x => rfl
  | null => cases h
  | str s => cases h
  | arr items => cases h
  | obj fields => cases h

/-- The turn on an object, by its index and its score. -/
theorem scoreEntry_obj (output : List (String × Rat)) (fields : List (String × Json)) :
    scoreEntry parser ids output (.obj fields) =
      match (entryIndex (.obj fields)).asInt with
      | none => .error .rerankerResponse
      | some i =>
          if ids.length ≤ i ∨ (entryScore (.obj fields)).isNumber = false then .error .rerankerResponse
          else do
            let value ← reading ((entryScore (.obj fields)).toFloat parser)
            let id ← reading (pyIndex ids i)
            return Table.upsert Prod.fst output (id, value.clamp) := by
  have hindex : (Json.obj fields).get "index" = .ok (entryIndex (.obj fields)) := rfl
  have hscore : (Json.obj fields).get "relevance_score" ((Json.field fields "score").getD .null) =
      .ok (entryScore (.obj fields)) := rfl
  have hother : (Json.obj fields).get "score" = .ok ((Json.field fields "score").getD .null) := rfl
  unfold scoreEntry
  simp only [hindex, hother, hscore, reading, Except.mapError, bind, Except.bind]
  cases (entryIndex (.obj fields)).asInt with
  | none => rfl
  | some i =>
      dsimp only
      split
      · rfl
      · rfl

theorem scoreEntry_rejected {entry : Json} (h : rejected ids.length entry = true)
    (output : List (String × Rat)) :
    scoreEntry parser ids output entry = .error .rerankerResponse := by
  cases entry with
  | obj fields =>
      rw [scoreEntry_obj]
      unfold rejected at h
      cases hindex : (entryIndex (.obj fields)).asInt with
      | none => rfl
      | some i =>
          simp only [hindex, Bool.or_eq_true, decide_eq_true_eq, Bool.not_eq_true'] at h
          exact if_pos h
  | _ => cases h

/-- An object that is not rejected has an index below the count and a number as score. -/
theorem not_rejected {n : Nat} {fields : List (String × Json)}
    (h : rejected n (.obj fields) = false) :
    ∃ i, (entryIndex (.obj fields)).asInt = some i ∧ i < n ∧
      (entryScore (.obj fields)).isNumber = true := by
  unfold rejected at h
  dsimp only at h
  cases hindex : (entryIndex (.obj fields)).asInt with
  | none =>
      rw [hindex] at h
      cases h
  | some i =>
      simp only [hindex, Bool.or_eq_false_iff, decide_eq_false_iff_not, Bool.not_eq_false'] at h
      exact ⟨i, rfl, by omega, h.2⟩

theorem pyIndex_of_lt {i : Int} (hlow : -(ids.length : Int) ≤ i) (hhigh : i < ids.length) :
    pyIndex ids i = .ok (ids.getD (if 0 ≤ i then i else i + ids.length).toNat "") := by
  obtain ⟨k, hk⟩ : ∃ k, (if 0 ≤ i then i else i + ids.length) = k := ⟨_, rfl⟩
  have hbounds : 0 ≤ k ∧ k < ids.length := by
    rw [← hk]
    split <;> omega
  have hlt : k.toNat < ids.length := by omega
  unfold pyIndex
  dsimp only
  rw [hk, if_neg (by omega), List.getD_eq_getElem?_getD, List.getElem?_eq_getElem hlt]
  rfl

theorem scoreEntry_raising {entry : Json} (hnot : rejected ids.length entry = false)
    (h : raising ids.length entry = true) (output : List (String × Rat)) :
    ∃ e, scoreEntry parser ids output entry = .error (.python e) := by
  cases entry with
  | obj fields =>
      obtain ⟨i, hindex, hlt, hnumber⟩ := not_rejected hnot
      rw [scoreEntry_obj]
      simp only [hindex]
      have hpass : ¬ (ids.length ≤ i ∨ (entryScore (.obj fields)).isNumber = false) := by
        rw [hnumber]
        simpa using hlt
      rw [if_neg hpass, toFloat_of_isNumber parser hnumber]
      by_cases hlarge : tooLarge (entryScore (.obj fields)) = true
      · rw [if_pos hlarge]
        exact ⟨_, rfl⟩
      · have hlow : i < -(ids.length : Int) := by
          unfold raising at h
          simp only [hindex, Bool.or_eq_true, decide_eq_true_eq] at h
          exact h.resolve_right hlarge
        have hraise : pyIndex ids i = .error .index := by
          have hneg : ¬ 0 ≤ i := by omega
          unfold pyIndex
          dsimp only
          rw [if_neg hneg]
          exact if_pos (by omega)
        rw [if_neg hlarge, hraise]
        exact ⟨_, rfl⟩
  | _ => exact ⟨.attribute, rfl⟩

theorem scoreEntry_accepted {entry : Json} (hnot : rejected ids.length entry = false)
    (h : raising ids.length entry = false) (output : List (String × Rat)) :
    scoreEntry parser ids output entry = .ok (Table.upsert Prod.fst output (entryPair ids entry)) ∧
      position ids.length entry < ids.length := by
  cases entry with
  | obj fields =>
      obtain ⟨i, hindex, hlt, hnumber⟩ := not_rejected hnot
      unfold raising at h
      simp only [hindex, Bool.or_eq_false_iff, decide_eq_false_iff_not] at h
      obtain ⟨hlow, hlarge⟩ := h
      have hposition : position ids.length (.obj fields) =
          (if 0 ≤ i then i else i + ids.length).toNat := by
        unfold position
        rw [hindex]
      have hpass : ¬ (ids.length ≤ i ∨ (entryScore (.obj fields)).isNumber = false) := by
        rw [hnumber]
        simpa using hlt
      constructor
      · rw [scoreEntry_obj]
        simp only [hindex]
        rw [if_neg hpass, toFloat_of_isNumber parser hnumber, hlarge,
          pyIndex_of_lt ids (by omega) hlt, ← hposition]
        rfl
      · rw [hposition]
        split <;> omega
  | _ => cases h

end turn

/-! ## The loop -/

section loop

variable (parser : NumberParser) (ids : List String)

/-- The map that the loop ends with when it takes every entry. -/
def scores (results : List Json) (output : List (String × Rat)) : List (String × Rat) :=
  (results.map (entryPair ids)).foldl (Table.upsert Prod.fst) output

/-- **The loop**: it takes every entry, or the first that it does not take ends it. -/
theorem loop_cases (results : List Json) (output : List (String × Rat)) :
    ((∃ entry ∈ results.takeWhile (fun entry => !rejected ids.length entry),
        raising ids.length entry = true) ∧
      ∃ e, results.foldlM (scoreEntry parser ids) output = .error (.python e)) ∨
    ((∀ entry ∈ results.takeWhile (fun entry => !rejected ids.length entry),
        raising ids.length entry = false) ∧ (∃ entry ∈ results, rejected ids.length entry = true) ∧
      results.foldlM (scoreEntry parser ids) output = .error .rerankerResponse) ∨
    ((∀ entry ∈ results, rejected ids.length entry = false ∧ raising ids.length entry = false) ∧
      results.foldlM (scoreEntry parser ids) output = .ok (scores ids results output)) := by
  induction results generalizing output with
  | nil => exact Or.inr (Or.inr ⟨(fun _ h => nomatch h), rfl⟩)
  | cons entry results ih =>
      by_cases hrejected : rejected ids.length entry = true
      · -- the prefix is empty
        right
        left
        rw [List.takeWhile_cons_of_neg (by simp [hrejected]), List.foldlM_cons,
          scoreEntry_rejected parser ids hrejected]
        exact ⟨(fun _ h => nomatch h), ⟨entry, List.mem_cons_self .., hrejected⟩, rfl⟩
      · rw [Bool.not_eq_true] at hrejected
        rw [List.takeWhile_cons_of_pos (by simp [hrejected]), List.foldlM_cons]
        by_cases hraising : raising ids.length entry = true
        · left
          obtain ⟨e, he⟩ := scoreEntry_raising parser ids hrejected hraising output
          rw [he]
          exact ⟨⟨entry, List.mem_cons_self .., hraising⟩, e, rfl⟩
        · rw [Bool.not_eq_true] at hraising
          obtain ⟨hstep, -⟩ := scoreEntry_accepted parser ids hrejected hraising output
          rw [hstep]
          rcases ih (Table.upsert Prod.fst output (entryPair ids entry)) with
            ⟨⟨other, hmem, hother⟩, he⟩ | ⟨hnone, ⟨other, hmem, hother⟩, he⟩ | ⟨hall, he⟩
          · left
            exact ⟨⟨other, List.mem_cons_of_mem _ hmem, hother⟩, he⟩
          · right
            left
            refine ⟨?_, ⟨other, List.mem_cons_of_mem _ hmem, hother⟩, he⟩
            intro first hfirst
            rcases List.mem_cons.mp hfirst with rfl | hfirst
            · exact hraising
            · exact hnone first hfirst
          · right
            right
            refine ⟨?_, he⟩
            intro first hfirst
            rcases List.mem_cons.mp hfirst with rfl | hfirst
            · exact ⟨hrejected, hraising⟩
            · exact hall first hfirst

end loop

/-! ## Well-formed answers -/

section wellFormed

variable {n : Nat} {results : List Json}

/-- Every position is that of an entry. -/
def Covers (n : Nat) (results : List Json) : Prop :=
  ∀ k < n, ∃ entry ∈ results, position n entry = k

theorem position_of_index {entry : Json} {i : Nat} (h : entryIndex entry = .int i) :
    position n entry = i := by
  unfold position
  rw [h]
  show (if (0 : Int) ≤ (i : Int) then (i : Int) else i + n).toNat = i
  rw [if_pos (Int.natCast_nonneg i)]
  exact Int.toNat_natCast i

theorem isNumber_of_numeric {score : Json} (h : (numeric score).isSome) : score.isNumber = true := by
  cases score with
  | int m => rfl
  | float x => rfl
  | _ => cases h

theorem floatOf_of_numeric {score : Json} {x : PyFloat} (h : numeric score = some x) :
    floatOf score = x := by
  cases score with
  | int m =>
      cases h
      rfl
  | float y =>
      cases y with
      | nan => cases h
      | _ =>
          cases h
          rfl
  | _ => cases h

theorem WellFormed.length (h : WellFormed n results) : results.length = n := by
  have hlength := h.permutation.length_eq
  rwa [List.length_map, List.length_map, List.length_range] at hlength

theorem WellFormed.index (h : WellFormed n results) {entry : Json} (hentry : entry ∈ results) :
    ∃ i < n, entryIndex entry = .int i := by
  have hmem := h.permutation.mem_iff.mp (List.mem_map_of_mem hentry)
  obtain ⟨i, hi, hindex⟩ := List.mem_map.mp hmem
  exact ⟨i, List.mem_range.mp hi, hindex.symm⟩

theorem WellFormed.proper (h : WellFormed n results) : ∀ entry ∈ results, Proper entry := by
  intro entry hentry
  obtain ⟨i, -, hindex⟩ := h.index hentry
  exact ⟨⟨i, hindex⟩, h.scores entry hentry⟩

theorem WellFormed.not_rejected (h : WellFormed n results) :
    ∀ entry ∈ results, rejected n entry = false := by
  intro entry hentry
  obtain ⟨i, hlt, hindex⟩ := h.index hentry
  have hnumber := isNumber_of_numeric (h.scores entry hentry)
  cases entry with
  | obj fields =>
      unfold rejected
      dsimp only
      rw [hindex, hnumber]
      show (decide ((n : Int) ≤ (i : Int)) || false) = false
      rw [Bool.or_false]
      exact decide_eq_false (by omega)
  | _ => rfl

theorem WellFormed.covers (h : WellFormed n results) : Covers n results := by
  intro k hk
  have hmem : Json.int k ∈ (List.range n).map fun i : Nat => Json.int i :=
    List.mem_map.mpr ⟨k, List.mem_range.mpr hk, rfl⟩
  obtain ⟨entry, hentry, hindex⟩ := List.mem_map.mp (h.permutation.mem_iff.mpr hmem)
  exact ⟨entry, hentry, position_of_index hindex⟩

/-- As many positions as there are, and none missing: each occurs once. -/
theorem positions_perm (hlength : results.length = n) (hcovers : Covers n results) :
    (results.map (position n)).Perm (List.range n) := by
  have hsub : List.range n ⊆ results.map (position n) := by
    intro k hk
    obtain ⟨entry, hentry, hposition⟩ := hcovers k (List.mem_range.mp hk)
    exact List.mem_map.mpr ⟨entry, hentry, hposition⟩
  have hsubperm := List.subperm_of_subset List.nodup_range hsub
  refine (hsubperm.perm_of_length_le ?_).symm
  rw [List.length_map, hlength, List.length_range]

theorem wellFormed_of_covers (hlength : results.length = n) (hcovers : Covers n results)
    (hproper : ∀ entry ∈ results, Proper entry) : WellFormed n results where
  permutation := by
    have hindices : results.map entryIndex =
        (results.map (position n)).map fun i : Nat => Json.int i := by
      rw [List.map_map]
      apply List.map_congr_left
      intro entry hentry
      obtain ⟨⟨i, hindex⟩, -⟩ := hproper entry hentry
      show _ = Json.int (position n entry : Nat)
      rw [position_of_index hindex, hindex]
    rw [hindices]
    exact (positions_perm hlength hcovers).map _
  scores := fun entry hentry => (hproper entry hentry).2

end wellFormed

section outcome

variable {ids : List String} {results : List Json}

theorem getD_eq (ids : List String) {k : Nat} (hk : k < ids.length) :
    ids.getD k "" = ids[k] := by
  rw [List.getD_eq_getElem?_getD, List.getElem?_eq_getElem hk]
  rfl

theorem map_getD_range (ids : List String) :
    (List.range ids.length).map (fun k => ids.getD k "") = ids := by
  apply List.ext_getElem
  · rw [List.length_map, List.length_range]
  · intro k hk hk'
    rw [List.getElem_map, List.getElem_range]
    exact getD_eq ids hk'

theorem keys_entryPair (ids : List String) (results : List Json) :
    (results.map (entryPair ids)).map Prod.fst =
      (results.map (position ids.length)).map fun k => ids.getD k "" := by
  rw [List.map_map, List.map_map]
  rfl

/-- Every candidate has a score where every position is that of an entry. -/
theorem missing_iff (hnodup : ids.Nodup)
    (hpositions : ∀ entry ∈ results, position ids.length entry < ids.length) :
    (∃ id ∈ ids, id ∉ (scores ids results []).map Prod.fst) ↔ ¬ Covers ids.length results := by
  have hkey : ∀ (k : Nat) (hk : k < ids.length), ids[k] ∈ (scores ids results []).map Prod.fst ↔
      ∃ entry ∈ results, position ids.length entry = k := by
    intro k hk
    unfold scores
    rw [Table.mem_keys_foldl_upsert, List.map_nil, keys_entryPair, List.map_map, List.mem_map]
    constructor
    · rintro (hnil | ⟨entry, hentry, hid⟩)
      · cases hnil
      · refine ⟨entry, hentry, ?_⟩
        have hlt := hpositions entry hentry
        rw [Function.comp_apply, getD_eq ids hlt] at hid
        exact (hnodup.getElem_inj_iff).mp hid
    · rintro ⟨entry, hentry, rfl⟩
      exact Or.inr ⟨entry, hentry, getD_eq ids hk⟩
  unfold Covers
  push Not
  constructor
  · rintro ⟨id, hid, hmissing⟩
    obtain ⟨k, hk, rfl⟩ := List.mem_iff_getElem.mp hid
    refine ⟨k, hk, fun entry hentry hposition => hmissing ?_⟩
    exact (hkey k hk).mpr ⟨entry, hentry, hposition⟩
  · rintro ⟨k, hk, hnone⟩
    refine ⟨ids[k], List.getElem_mem hk, fun hmem => ?_⟩
    obtain ⟨entry, hentry, hposition⟩ := (hkey k hk).mp hmem
    exact hnone entry hentry hposition

/-- The map of a well-formed answer. -/
theorem scored_scores (hnodup : ids.Nodup) (h : WellFormed ids.length results) :
    Scored ids results (scores ids results []) := by
  have hkeys : ((results.map (entryPair ids)).map Prod.fst).Perm ids := by
    have hperm := (positions_perm h.length h.covers).map fun k => ids.getD k ""
    rwa [map_getD_range, ← keys_entryPair] at hperm
  have hscores : scores ids results [] = results.map (entryPair ids) := by
    unfold scores
    exact Table.foldl_upsert_of_nodup (hkeys.nodup_iff.mpr hnodup)
  rw [hscores]
  refine ⟨hkeys, fun i id entry x hid hentry hindex hscore => ?_⟩
  have hpair : entryPair ids entry = (id, x.clamp) := by
    unfold entryPair
    rw [position_of_index hindex, floatOf_of_numeric hscore, List.getD_eq_getElem?_getD, hid]
    rfl
  rw [← hpair]
  exact List.mem_map_of_mem hentry

end outcome

/-! ## The answers that are taken -/

section taken

variable (parser : NumberParser) {ids : List String} {results : List Json} {body : Json}

theorem readScores_eq (hbody : body.get "results" = .ok (.arr results)) :
    readScores parser ids body =
      if results.length ≠ ids.length then .error .rerankerResponse
      else results.foldlM (scoreEntry parser ids) [] >>= fun output =>
        if ∃ id ∈ ids, id ∉ output.map Prod.fst then .error .rerankerResponse else .ok output := by
  unfold readScores
  rw [hbody]
  by_cases hlength : results.length ≠ ids.length
  · simp only [reading, Except.mapError, bind, Except.bind, Json.asList, if_pos hlength]
    rfl
  · simp only [reading, Except.mapError, bind, Except.bind, Json.asList, if_neg hlength]
    rfl

theorem readScores_takes_iff (hnodup : ids.Nodup) (hbody : body.get "results" = .ok (.arr results)) :
    TakesWellFormed ids results (readScores parser ids body) ↔ Told ids.length results := by
  rw [readScores_eq parser hbody]
  by_cases hlength : results.length = ids.length
  · rw [if_neg (not_not_intro hlength)]
    rcases loop_cases parser ids results [] with
      ⟨⟨entry, hentry, hraising⟩, e, hloop⟩ | ⟨hpre, ⟨entry, hentry, hrejected⟩, hloop⟩ |
        ⟨hall, hloop⟩
    · -- an entry raises something else, whatever the answer is
      rw [hloop]
      refine iff_of_false ?_ ?_
      · rintro ⟨htaken, hother⟩
        by_cases hwell : WellFormed ids.length results
        · obtain ⟨output, hresult, -⟩ := htaken hwell
          cases hresult
        · cases hother hwell
      · intro htold
        rw [(htold hlength).1 entry hentry] at hraising
        cases hraising
    · rw [hloop]
      refine iff_of_true ⟨fun hwell => ?_, fun _ => rfl⟩ fun _ => ⟨hpre, fun hnone => ?_⟩
      · rw [hwell.not_rejected entry hentry] at hrejected
        cases hrejected
      · rw [hnone entry hentry] at hrejected
        cases hrejected
    · rw [hloop]
      show TakesWellFormed ids results (if ∃ id ∈ ids, id ∉ (scores ids results []).map Prod.fst
        then .error .rerankerResponse else .ok (scores ids results [])) ↔ _
      have hpositions : ∀ entry ∈ results, position ids.length entry < ids.length := by
        intro entry hentry
        obtain ⟨hnot, hraising⟩ := hall entry hentry
        exact (scoreEntry_accepted parser ids hnot hraising []).2
      have hmissing := missing_iff hnodup hpositions
      have hpre : ∀ entry ∈ results.takeWhile (fun entry => !rejected ids.length entry),
          raising ids.length entry = false :=
        fun entry hentry => (hall entry (List.takeWhile_subset _ hentry)).2
      by_cases hcovers : Covers ids.length results
      · rw [if_neg (fun h => hmissing.mp h hcovers)]
        constructor
        · intro htaken _
          refine ⟨hpre, fun _ _ => ?_⟩
          by_contra hproper
          have hnot : ¬ WellFormed ids.length results := fun hwell => hproper hwell.proper
          cases htaken.2 hnot
        · intro htold
          have hproper := (htold hlength).2 (fun entry hentry => (hall entry hentry).1) hcovers
          have hwell := wellFormed_of_covers hlength hcovers hproper
          exact ⟨fun _ => ⟨_, rfl, scored_scores hnodup hwell⟩, fun hnot => absurd hwell hnot⟩
      · rw [if_pos (hmissing.mpr hcovers)]
        exact iff_of_true ⟨fun hwell => absurd hwell.covers hcovers, fun _ => rfl⟩
          fun _ => ⟨hpre, fun _ hcovers' => absurd hcovers' hcovers⟩
  · rw [if_pos hlength]
    exact iff_of_true ⟨fun hwell => absurd hwell.length hlength, fun _ => rfl⟩
      fun hlength' => absurd hlength' hlength

/-- No exception of the reading of a list is one after which the loop tries again. -/
theorem readScores_not_retried (hbody : body.get "results" = .ok (.arr results)) {e : ProviderError}
    (h : readScores parser ids body = .error e) : retried .rerankerUnavailable e = false := by
  rw [readScores_eq parser hbody] at h
  split at h
  · cases h
    rfl
  · rcases loop_cases parser ids results [] with ⟨-, e', hloop⟩ | ⟨-, -, hloop⟩ | ⟨-, hloop⟩
    · rw [hloop] at h
      cases h
      rfl
    · rw [hloop] at h
      cases h
      rfl
    · rw [hloop] at h
      change (if _ then _ else _) = _ at h
      split at h
      · cases h
        rfl
      · cases h

theorem rerank_result (hbody : body.get "results" = .ok (.arr results)) {maxRetries : Nat}
    {replies : Nat → Reply} (hreply : replies 0 = .response 200 (some body))
    (interrupted : Nat → Bool) :
    (rerank parser ids maxRetries replies interrupted).result = readScores parser ids body := by
  have hattempt : attempt .rerankerUnavailable (readScores parser ids) (replies 0) =
      readScores parser ids body := by
    rw [hreply]
    rfl
  unfold rerank retryLoop
  rw [hattempt]
  cases hread : readScores parser ids body with
  | ok output => rfl
  | error e =>
      dsimp only
      rw [readScores_not_retried parser hbody hread]
      by_cases hinvalid : e ∈ [ProviderError.rerankerResponse]
      · rw [if_pos hinvalid]
        rfl
      · rw [if_neg hinvalid]
        rfl

/-- **`rerank` takes well-formed answers and turns the others down** exactly where its checks can
tell them apart. -/
theorem rerank_takes_iff {maxRetries : Nat} {replies : Nat → Reply} (interrupted : Nat → Bool)
    (hnodup : ids.Nodup) (hreply : replies 0 = .response 200 (some body))
    (hbody : body.get "results" = .ok (.arr results)) :
    TakesWellFormed ids results (rerank parser ids maxRetries replies interrupted).result ↔
      Told ids.length results := by
  rw [rerank_result parser hbody hreply interrupted]
  exact readScores_takes_iff parser hnodup hbody

end taken

/-! ### Two answers for two candidates -/

/-- An entry with this index. -/
def indexed (index : Json) : Json :=
  .obj [("index", index), ("relevance_score", .float (.finite (1 / 2)))]

def answer (results : List Json) : Json := .obj [("results", .arr results)]

def sampleParser : NumberParser := ⟨fun _ => none, fun _ => none⟩

theorem swapped_answer_taken : TakesWellFormed ["a", "b"] [indexed (.int 1), indexed (.int 0)]
    (rerank sampleParser ["a", "b"] 2
      (fun _ => .response 200 (some (answer [indexed (.int 1), indexed (.int 0)])))
      (fun _ => false)).result := by
  apply (rerank_takes_iff sampleParser (fun _ => false) (by decide) rfl rfl).mpr
  intro _
  refine ⟨by decide, fun _ _ entry hentry => ?_⟩
  rcases List.mem_cons.mp hentry with rfl | hentry
  · exact ⟨⟨1, rfl⟩, rfl⟩
  · rw [List.mem_singleton.mp hentry]
    exact ⟨⟨0, rfl⟩, rfl⟩

/-- `-1` stands for the last candidate. -/
theorem negative_index_taken : ¬ ∀ parser ids maxRetries replies interrupted body results,
    ids.Nodup → replies 0 = .response 200 (some body) → body.get "results" = .ok (.arr results) →
      TakesWellFormed ids results (rerank parser ids maxRetries replies interrupted).result := by
  intro hall
  have htaken := hall sampleParser ["a"] 2
    (fun _ => .response 200 (some (answer [indexed (.int (-1))]))) (fun _ => false) _ _
    (by decide) rfl rfl
  have hnot : ¬ WellFormed 1 [indexed (.int (-1))] := by
    intro hwell
    obtain ⟨i, -, hindex⟩ := hwell.index (List.mem_singleton_self _)
    have hneg : (Json.int (-1)) = .int i := hindex
    injection hneg with hneg
    omega
  have hraised := htaken.2 hnot
  rw [rerank_result sampleParser rfl rfl] at hraised
  cases hraised

end EnergyAgent.Providers
