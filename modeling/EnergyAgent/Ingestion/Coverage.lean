import EnergyAgent.Ingestion.Usable

/-!
# What a split text covers

`_split_text` cuts a text into pieces and puts them together again in chunks, each of which may begin
with the end of the one before. No piece is lost on the way, the chunks keep the order of the pieces,
and only an overlap with a long piece behind it makes a chunk longer than the target.
-/

namespace EnergyAgent.Ingestion

open EnergyAgent.Lib EnergyAgent.Lib.Text

section coverage

variable {target overlap : Nat}

/-- What the loop makes of the pieces that are left: the chunks from the current one on. -/
def chunksFrom (target overlap : Nat) : List Char → List (List Char) → List (List Char)
  | current, [] => if trim isSpace current = [] then [] else [trim isSpace current]
  | current, piece :: rest =>
      if current ≠ [] ∧ target < current.length + piece.length then
        trim isSpace current :: chunksFrom target overlap (lastOf overlap current ++ piece) rest
      else chunksFrom target overlap (current ++ piece) rest

theorem foldl_addPiece_eq (items : List (List Char)) (state : List (List Char) × List Char) :
    (items.foldl (addPiece target overlap) state).1 ++
        chunksFrom target overlap (items.foldl (addPiece target overlap) state).2 [] =
      state.1 ++ chunksFrom target overlap state.2 items := by
  induction items generalizing state with
  | nil => rfl
  | cons item items ih =>
      rw [List.foldl_cons, ih]
      unfold addPiece
      by_cases hfull : state.2 ≠ [] ∧ target < state.2.length + item.length
      · rw [if_pos hfull, chunksFrom, if_pos hfull, List.append_assoc]
        rfl
      · rw [if_neg hfull, chunksFrom, if_neg hfull]

theorem splitText_of_lt {text : List Char} (h : target < text.length) :
    splitText text target overlap = chunksFrom target overlap [] (pieces target text) := by
  have hloop : ((pieces target text).foldl (addPiece target overlap) ([], [])).1 ++
      chunksFrom target overlap ((pieces target text).foldl (addPiece target overlap) ([], [])).2 [] =
      [] ++ chunksFrom target overlap [] (pieces target text) :=
    foldl_addPiece_eq (pieces target text) ([], [])
  rw [List.nil_append] at hloop
  rw [← hloop, splitText, if_neg (Nat.not_le.mpr h), chunksFrom]
  dsimp only
  split
  · rw [List.append_nil]
  · rfl

theorem flatten_pieces (htarget : 0 < target) (text : List Char) :
    (pieces target text).flatten = text := by
  unfold pieces
  split
  · exact flatten_slices htarget text
  · exact flatten_sentences text

/-! ## Order -/

/-- The pieces that are looked for in the chunks. -/
def filledPieces (items : List (List Char)) : List (List Char) :=
  items.filter fun item => ¬ Blank item

/-- The piece, without the blanks around it, occurs in the chunk. -/
def OccursIn (piece chunk : List Char) : Prop := trim isSpace piece <:+: chunk

theorem filledPieces_cons (item : List Char) (items : List (List Char)) :
    filledPieces (item :: items) = filledPieces [item] ++ filledPieces items := by
  unfold filledPieces
  rw [← List.filter_append]
  rfl

/-- The pieces of `inside` are in the current chunk already; `items` are still to come. -/
theorem placed_chunksFrom {inside : List (List Char)} {current : List Char}
    (hinside : ∀ piece ∈ inside, ¬ Blank piece ∧ piece <:+: current) (items : List (List Char)) :
    PlacedInOrder OccursIn (inside ++ filledPieces items) (chunksFrom target overlap current items) := by
  induction items generalizing inside current with
  | nil =>
      unfold chunksFrom
      cases inside with
      | nil => exact .nil _
      | cons piece inside =>
          have hfilled : ¬ Blank current := by
            obtain ⟨hpiece, hin⟩ := hinside piece (List.mem_cons_self ..)
            exact fun hblank => hpiece fun c hc => hblank c (hin.subset hc)
          rw [if_neg (fun hnil => hfilled (trim_eq_nil_iff_blank.mp hnil))]
          show PlacedInOrder OccursIn (piece :: inside ++ []) _
          rw [List.append_nil]
          exact .all_in_first _ fun other hother => trim_infix_trim isSpace (hinside other hother).2
  | cons item items ih =>
      rw [filledPieces_cons]
      have hitem : ∀ before : List Char, ∀ piece ∈ filledPieces [item],
          ¬ Blank piece ∧ piece <:+: before ++ item := by
        intro before piece hpiece
        obtain ⟨hmem, hfilled⟩ := List.mem_filter.mp hpiece
        rw [List.mem_singleton.mp hmem] at hfilled ⊢
        exact ⟨of_decide_eq_true hfilled, (List.suffix_append before item).isInfix⟩
      unfold chunksFrom
      split
      · -- the current chunk is closed: what is inside stays in it, the next one holds the piece
        refine .put_all (fun piece hpiece => trim_infix_trim isSpace (hinside piece hpiece).2) ?_
        exact .pass (ih (hitem _))
      · rw [← List.append_assoc]
        apply ih
        intro piece hpiece
        rcases List.mem_append.mp hpiece with hold | hnew
        · obtain ⟨hfilled, hin⟩ := hinside piece hold
          exact ⟨hfilled, hin.trans (List.prefix_append current item).isInfix⟩
        · exact hitem current piece hnew

/-! ## Length -/

/-- The length of the longest piece. -/
def longest (items : List (List Char)) : Nat := (items.map List.length).foldr max 0

theorem length_le_longest {items : List (List Char)} {item : List Char} (h : item ∈ items) :
    item.length ≤ longest items := by
  induction items with
  | nil => exact absurd h List.not_mem_nil
  | cons first items ih =>
      show item.length ≤ max first.length (longest items)
      rcases List.mem_cons.mp h with rfl | h
      · exact Nat.le_max_left ..
      · exact Nat.le_trans (ih h) (Nat.le_max_right ..)

theorem length_lastOf_le (overlap : Nat) (text : List Char) : (lastOf overlap text).length ≤ overlap := by
  unfold lastOf
  rw [List.length_drop]
  omega

/-- A chunk is within the target, or it is an overlap and one piece. -/
theorem length_chunksFrom {most : Nat} {items : List (List Char)}
    (hitems : ∀ item ∈ items, item.length ≤ most) {current : List Char}
    (hcurrent : current.length ≤ max target (overlap + most)) :
    ∀ chunk ∈ chunksFrom target overlap current items, chunk.length ≤ max target (overlap + most) := by
  have htrim : (trim isSpace current).length ≤ max target (overlap + most) :=
    Nat.le_trans (length_trim_le isSpace current) hcurrent
  induction items generalizing current with
  | nil =>
      intro chunk hchunk
      unfold chunksFrom at hchunk
      split at hchunk
      · exact absurd hchunk List.not_mem_nil
      · rw [List.mem_singleton.mp hchunk]
        exact htrim
  | cons item items ih =>
      have hitem := hitems item (List.mem_cons_self ..)
      have hrest := fun other hother => hitems other (List.mem_cons_of_mem item hother)
      intro chunk hchunk
      unfold chunksFrom at hchunk
      split at hchunk
      · rcases List.mem_cons.mp hchunk with rfl | hchunk
        · exact htrim
        · have hnext : (lastOf overlap current ++ item).length ≤ max target (overlap + most) := by
            have hoverlap := length_lastOf_le overlap current
            rw [List.length_append]
            omega
          exact ih hrest hnext (Nat.le_trans (length_trim_le isSpace _) hnext) chunk hchunk
      · next hroom =>
          have hnext : (current ++ item).length ≤ max target (overlap + most) := by
            rw [List.length_append]
            by_cases hnil : current = []
            · rw [hnil, List.length_nil]
              omega
            · have hfits : ¬ target < current.length + item.length := fun hfull => hroom ⟨hnil, hfull⟩
              omega
          exact ih hrest hnext (Nat.le_trans (length_trim_le isSpace _) hnext) chunk hchunk

/-- **What a split text covers.** The pieces are the text, each that is not blank occurs in a chunk of
its own or shares one with its neighbours, in order, and no chunk is longer than the target or an
overlap with the longest piece. -/
theorem splitText_covers (text : List Char) {target : Nat} (htarget : 1 ≤ target) (overlap : Nat) :
    (pieces target text).flatten = text ∧
    (∃ place : Fin (filledPieces (pieces target text)).length →
        Fin (splitText text target overlap).length, Monotone place ∧
      ∀ i, OccursIn ((filledPieces (pieces target text)).get i)
        ((splitText text target overlap).get (place i))) ∧
    ∀ chunk ∈ splitText text target overlap,
      chunk.length ≤ max target (overlap + longest (pieces target text)) := by
  have hflat := flatten_pieces htarget text
  have hwithin : ∀ piece ∈ pieces target text, piece <:+: text := by
    intro piece hpiece
    rw [← hflat]
    exact List.infix_of_mem_flatten hpiece
  refine ⟨hflat, PlacedInOrder.exists_monotone ?_, ?_⟩
  · rcases Nat.lt_or_ge target text.length with hlong | hshort
    · rw [splitText_of_lt hlong]
      have hplaced : PlacedInOrder OccursIn ([] ++ filledPieces (pieces target text))
          (chunksFrom target overlap [] (pieces target text)) :=
        placed_chunksFrom (fun _ hpiece => absurd hpiece List.not_mem_nil) (pieces target text)
      rwa [List.nil_append] at hplaced
    · unfold splitText
      rw [if_pos hshort]
      split
      · next hblank =>
          -- a blank text has no piece that is not blank
          rw [trim_eq_nil_iff_blank] at hblank
          have hnone : filledPieces (pieces target text) = [] := by
            refine List.filter_eq_nil_iff.mpr fun piece hpiece hfilled => ?_
            exact of_decide_eq_true hfilled fun c hc => hblank c ((hwithin piece hpiece).subset hc)
          rw [hnone]
          exact .nil _
      · refine .all_in_first _ fun piece hpiece => ?_
        have hin := hwithin piece (List.mem_of_mem_filter hpiece)
        exact (trim_within isSpace piece).trans hin
  · rcases Nat.lt_or_ge target text.length with hlong | hshort
    · rw [splitText_of_lt hlong]
      exact length_chunksFrom (fun item hitem => length_le_longest hitem) (Nat.zero_le _)
    · intro chunk hchunk
      unfold splitText at hchunk
      rw [if_pos hshort] at hchunk
      split at hchunk
      · exact absurd hchunk List.not_mem_nil
      · rw [List.mem_singleton.mp hchunk]
        exact Nat.le_trans hshort (Nat.le_max_left ..)

end coverage

/-- Two sentences in chunks of four characters, with an overlap of one. -/
theorem two_sentences_covered :
    (pieces 4 "ab.  cd.".toList).flatten = "ab.  cd.".toList ∧
    (∃ place : Fin (filledPieces (pieces 4 "ab.  cd.".toList)).length →
        Fin (splitText "ab.  cd.".toList 4 1).length, Monotone place ∧
      ∀ i, OccursIn ((filledPieces (pieces 4 "ab.  cd.".toList)).get i)
        ((splitText "ab.  cd.".toList 4 1).get (place i))) ∧
    ∀ chunk ∈ splitText "ab.  cd.".toList 4 1,
      chunk.length ≤ max 4 (1 + longest (pieces 4 "ab.  cd.".toList)) :=
  splitText_covers "ab.  cd.".toList (by decide) 1

end EnergyAgent.Ingestion
