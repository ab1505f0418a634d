import EnergyAgent.Ingestion.Sections

/-!
# Chunks that can be used

A section that is not body text stays whole, and the orders count through. A chunk of body text is
blank only where a single sentence is cut into slices: the sentences of a text are never blank, but a
slice with the overlap before it can be.
-/

namespace EnergyAgent.Ingestion

open EnergyAgent.Lib EnergyAgent.Lib.Text

/-! ## Blank texts -/

/-- `not text.strip()` -/
def Blank (text : List Char) : Prop := ∀ c ∈ text, isSpace c = true

instance (text : List Char) : Decidable (Blank text) :=
  decidable_of_iff (text.all isSpace = true) List.all_eq_true

theorem blank_trim_iff {text : List Char} : Blank (trim isSpace text) ↔ Blank text :=
  forall_mem_trim_iff isSpace

theorem trim_eq_nil_iff_blank {text : List Char} : trim isSpace text = [] ↔ Blank text :=
  trim_eq_nil_iff isSpace

theorem not_blank_append_right (text : List Char) {text' : List Char} (h : ¬ Blank text') :
    ¬ Blank (text ++ text') :=
  fun hblank => h fun c hc => hblank c (List.mem_append_right _ hc)

/-! ## Sentences -/

/-- The text does not end with a blank. -/
def Ended (text : List Char) : Prop := ∀ c, text.getLast? = some c → isSpace c = false

theorem ended_of_cons {c : Char} {rest : List Char} (h : Ended (c :: rest)) : Ended rest := by
  intro d hd
  cases rest with
  | nil => cases hd
  | cons e rest => exact h d (by rw [List.getLast?_cons_cons]; exact hd)

theorem not_isSpace_of_endsSentence {c : Char} (h : endsSentence c = true) : isSpace c = false := by
  have hall : "。！？.!?；;".toList.all (fun d => !isSpace d) = true := by decide
  have hmark := List.all_eq_true.mp hall c (List.contains_iff_mem.mp h)
  simpa using hmark

theorem sentences_eq_nil {text : List Char} (h : sentences text = []) : text = [] := by
  cases text with
  | nil => rfl
  | cons c rest =>
      unfold sentences at h
      split at h
      · cases h
      · split at h <;> cases h

theorem flatten_sentences (text : List Char) : (sentences text).flatten = text := by
  induction text with
  | nil => rfl
  | cons c rest ih =>
      unfold sentences
      split
      · rw [List.flatten_cons, ih]
        rfl
      · split
        · next hnil =>
            rw [sentences_eq_nil hnil]
            rfl
        · next first others heq =>
            rw [heq, List.flatten_cons] at ih
            rw [List.flatten_cons, List.cons_append, ih]

/-- A sentence has its mark, or the end of the text. -/
theorem not_blank_of_mem_sentences {text : List Char} (hended : Ended text) {sentence : List Char}
    (h : sentence ∈ sentences text) : ¬ Blank sentence := by
  induction text generalizing sentence with
  | nil => exact absurd h List.not_mem_nil
  | cons c rest ih =>
      have hrest := ended_of_cons hended
      unfold sentences at h
      split at h
      · next hmark =>
          rcases List.mem_cons.mp h with rfl | h
          · intro hblank
            have hspace := hblank c (List.mem_singleton_self c)
            rw [not_isSpace_of_endsSentence hmark] at hspace
            cases hspace
          · exact ih hrest h
      · split at h
        · next hnil =>
            -- nothing follows, so the character is the last one
            have hlast := hended c (by rw [sentences_eq_nil hnil]; rfl)
            rw [List.mem_singleton.mp h]
            intro hblank
            rw [hblank c (List.mem_singleton_self c)] at hlast
            cases hlast
        · next first others heq =>
            rcases List.mem_cons.mp h with rfl | h
            · exact not_blank_append_right [c] (ih hrest (heq ▸ List.mem_cons_self ..))
            · exact ih hrest (heq ▸ List.mem_cons_of_mem _ h)

/-! ## The loop over the pieces -/

section loop

variable {target overlap : Nat}

/-- Chunks of pieces that are not blank are not blank. -/
theorem foldl_addPiece_not_blank {items : List (List Char)} (hitems : ∀ item ∈ items, ¬ Blank item)
    {state : List (List Char) × List Char} (hchunks : ∀ chunk ∈ state.1, ¬ Blank chunk)
    (hcurrent : state.2 = [] ∨ ¬ Blank state.2) :
    (∀ chunk ∈ (items.foldl (addPiece target overlap) state).1, ¬ Blank chunk) ∧
      ((items.foldl (addPiece target overlap) state).2 = [] ∨
        ¬ Blank (items.foldl (addPiece target overlap) state).2) := by
  induction items generalizing state with
  | nil => exact ⟨hchunks, hcurrent⟩
  | cons item items ih =>
      have hitem : ¬ Blank item := hitems item (List.mem_cons_self ..)
      refine ih (fun other hother => hitems other (List.mem_cons_of_mem _ hother)) ?_ ?_
      · unfold addPiece
        split
        · next hfull =>
            intro chunk hchunk
            rcases List.mem_append.mp hchunk with hchunk | hchunk
            · exact hchunks chunk hchunk
            · rw [List.mem_singleton.mp hchunk, blank_trim_iff]
              exact hcurrent.resolve_left hfull.1
        · exact hchunks
      · right
        unfold addPiece
        split <;> exact not_blank_append_right _ hitem

/-- After the slices up to number `i`, the windows before it are chunks and its window is the current
one: the window and the next slice are together longer than the target. -/
theorem foldl_addPiece_slices {text : List Char} (htarget : 0 < target) {i : Nat}
    (hi : i * target < text.length) :
    ((List.range (i + 1)).map fun k => (text.drop (k * target)).take target).foldl
        (addPiece target overlap) ([], []) =
      ((List.range i).map fun k => trim isSpace (window target overlap text k),
        window target overlap text i) := by
  induction i with
  | zero =>
      rw [window_zero]
      simp [addPiece]
  | succ i ih =>
      have hfull : (i + 1) * target ≤ text.length := Nat.le_of_lt hi
      have hprevious : i * target < text.length := by
        rw [Nat.succ_mul] at hi
        omega
      have hwindow : target ≤ (window target overlap text i).length := le_length_window hfull
      have hslice : 0 < ((text.drop ((i + 1) * target)).take target).length := by
        rw [List.length_take, List.length_drop]
        omega
      have hne : window target overlap text i ≠ [] := by
        intro hnil
        rw [hnil, List.length_nil] at hwindow
        omega
      rw [List.range_succ, List.map_append, List.foldl_append, ih hprevious]
      simp only [List.map_cons, List.map_nil, List.foldl_cons, List.foldl_nil]
      unfold addPiece
      rw [if_pos ⟨hne, by dsimp only; omega⟩, window_succ hfull, List.range_succ, List.map_append]
      rfl

/-- Every window but the last becomes a chunk, blank or not. -/
theorem mem_splitText_slices {text : List Char} (htarget : 0 < target) (hlong : target < text.length)
    (hsingle : (sentences text).length = 1) (content : List Char) :
    content ∈ splitText text target overlap ↔
      (∃ i, (i + 1) * target < text.length ∧ content = trim isSpace (window target overlap text i)) ∨
      ∃ i, i * target < text.length ∧ text.length ≤ (i + 1) * target ∧
        ¬ Blank (window target overlap text i) ∧
        content = trim isSpace (window target overlap text i) := by
  obtain ⟨m, hm⟩ : ∃ m, (text.length + target - 1) / target = m + 1 := by
    refine Nat.exists_eq_succ_of_ne_zero (Nat.pos_iff_ne_zero.mp ?_)
    exact (lt_slices_iff htarget text.length 0).mpr (by omega)
  have hslice : ∀ i, i * target < text.length ↔ i < m + 1 := by
    intro i
    rw [← lt_slices_iff htarget, hm]
  have hsplit : splitText text target overlap =
      if trim isSpace (window target overlap text m) = [] then
        (List.range m).map fun k => trim isSpace (window target overlap text k)
      else ((List.range m).map fun k => trim isSpace (window target overlap text k)) ++
        [trim isSpace (window target overlap text m)] := by
    unfold splitText pieces slices
    rw [if_neg (Nat.not_le.mpr hlong), if_pos hsingle, hm,
      foldl_addPiece_slices htarget ((hslice m).mpr (Nat.lt_succ_self m))]
  have hfront : content ∈ (List.range m).map (fun k => trim isSpace (window target overlap text k)) ↔
      ∃ i, (i + 1) * target < text.length ∧ content = trim isSpace (window target overlap text i) := by
    simp only [List.mem_map, List.mem_range, hslice, Nat.add_lt_add_iff_right, eq_comm]
  have hlast : ∀ i, i * target < text.length ∧ text.length ≤ (i + 1) * target ↔ i = m := by
    intro i
    rw [hslice, ← Nat.not_lt, hslice]
    omega
  rw [hsplit, ← hfront]
  split
  · next hblank =>
      rw [trim_eq_nil_iff_blank] at hblank
      refine ⟨Or.inl, ?_⟩
      rintro (hmem | ⟨i, hi, hend, hnot, -⟩)
      · exact hmem
      · rw [(hlast i).mp ⟨hi, hend⟩] at hnot
        exact absurd hblank hnot
  · next hblank =>
      rw [trim_eq_nil_iff_blank] at hblank
      rw [List.mem_append, List.mem_singleton]
      refine or_congr_right ⟨?_, ?_⟩
      · rintro rfl
        obtain ⟨hi, hend⟩ := (hlast m).mpr rfl
        exact ⟨m, hi, hend, hblank, rfl⟩
      · rintro ⟨i, hi, hend, -, rfl⟩
        rw [(hlast i).mp ⟨hi, hend⟩]

/-- **When a split text has no blank chunk.** -/
theorem splitText_not_blank_iff {text : List Char} (htarget : 0 < target) (hended : Ended text) :
    (∀ content ∈ splitText text target overlap, ¬ Blank content) ↔
      (target < text.length → (sentences text).length = 1 →
        ∀ i, (i + 1) * target < text.length → ¬ Blank (window target overlap text i)) := by
  by_cases hlong : target < text.length
  · by_cases hsingle : (sentences text).length = 1
    · simp only [mem_splitText_slices htarget hlong hsingle, hlong, hsingle, forall_const]
      constructor
      · intro h i hi hblank
        exact h _ (Or.inl ⟨i, hi, rfl⟩) (blank_trim_iff.mpr hblank)
      · rintro h content (⟨i, hi, rfl⟩ | ⟨i, -, -, hnot, rfl⟩)
        · rw [blank_trim_iff]
          exact h i hi
        · rw [blank_trim_iff]
          exact hnot
    · refine iff_of_true ?_ (fun _ hsingle' => absurd hsingle' hsingle)
      have hloop : ∀ chunk ∈ ((sentences text).foldl (addPiece target overlap) ([], [])).1,
          ¬ Blank chunk :=
        (foldl_addPiece_not_blank (fun _ hsentence => not_blank_of_mem_sentences hended hsentence)
          (fun _ hchunk => absurd hchunk List.not_mem_nil) (Or.inl rfl)).1
      unfold splitText pieces
      rw [if_neg (Nat.not_le.mpr hlong), if_neg hsingle]
      intro content hcontent
      dsimp only at hcontent
      split at hcontent
      · exact hloop content hcontent
      · next hblank =>
          rcases List.mem_append.mp hcontent with hcontent | hcontent
          · exact hloop content hcontent
          · rw [List.mem_singleton.mp hcontent, blank_trim_iff]
            rwa [trim_eq_nil_iff_blank] at hblank
  · refine iff_of_true ?_ (fun hlong' => absurd hlong' hlong)
    unfold splitText
    rw [if_pos (Nat.not_lt.mp hlong)]
    intro content hcontent
    split at hcontent
    · exact absurd hcontent List.not_mem_nil
    · next hblank =>
        rw [List.mem_singleton.mp hcontent]
        rwa [trim_eq_nil_iff_blank] at hblank

end loop

/-! ## All chunks -/

theorem ended_intercalate {lines : List (List Char)}
    (hlines : ∀ line ∈ lines, line ≠ [] ∧ Ended line) : Ended (List.intercalate ['\n'] lines) := by
  induction lines with
  | nil =>
      intro c hc
      cases hc
  | cons line lines ih =>
      cases lines with
      | nil =>
          rw [List.intercalate_singleton]
          exact (hlines line (List.mem_singleton_self _)).2
      | cons next lines =>
          have hrest := ih fun other hother => hlines other (List.mem_cons_of_mem _ hother)
          have hne : List.intercalate ['\n'] (next :: lines) ≠ [] := by
            intro hnil
            have hnext : next <:+: List.intercalate ['\n'] (next :: lines) :=
              infix_intercalate (List.mem_cons_self ..)
            rw [hnil, List.infix_nil] at hnext
            exact (hlines next (List.mem_cons_of_mem _ (List.mem_cons_self ..))).1 hnext
          intro c hc
          rw [List.intercalate_cons_cons, List.getLast?_append_of_ne_nil _ hne] at hc
          exact hrest c hc

/-- A section of body text does not end with a blank. -/
theorem Gathers.ended_text {decimal : Char → Bool} {title text : List Char} {parts : List TextSection}
    (h : Gathers (underTitles decimal title (textLines text)) parts) :
    ∀ part ∈ parts, Ended part.text := by
  intro part hpart
  obtain ⟨lines, -, htext, hmem⟩ := h.exists_lines part hpart
  rw [htext]
  refine ended_intercalate fun line hline => ?_
  have hsnd : line ∈ (underTitles decimal title (textLines text)).map Prod.snd :=
    List.mem_map_of_mem (hmem line hline)
  rw [map_snd_underTitles] at hsnd
  obtain ⟨hne, whole, -, rfl⟩ := mem_textLines (List.mem_of_mem_filter hsnd)
  exact ⟨hne, fun c hc => getLast?_trim isSpace hc⟩

/-- No window of a section of one long sentence is blank, unless the text ends with it. -/
def Filled (target overlap : Nat) (part : TextSection) : Prop :=
  part.sectionType = "正文" → target < part.text.length → (sentences part.text).length = 1 →
    ∀ i, (i + 1) * target < part.text.length → ¬ Blank (window target overlap part.text i)

/-- Chunks that can be used: none is blank, their orders count through, and one that is not body
text is a whole section. -/
structure Usable (decimal : Char → Bool) (blocks : List ParsedBlock) (chunks : List DocumentChunk) :
    Prop where
  filled : ∀ chunk ∈ chunks, ¬ Blank chunk.content
  numbered : chunks.map DocumentChunk.chunkOrder = List.range chunks.length
  whole : ∀ chunk ∈ chunks, chunk.sectionType ≠ "正文" → ∃ block ∈ blocks,
    ∃ part ∈ sections decimal block, part.sectionType = chunk.sectionType ∧
      part.title = chunk.chapterTitle ∧ part.text = chunk.content

section all

variable {rt : ChunkRuntime} {docId version : List Char} {target overlap : Nat}
  {blocks : List ParsedBlock}

/-- A content that is not body text is its section. -/
theorem contents_special {part : TextSection} (htype : part.sectionType ≠ "正文") {content : List Char}
    (h : content ∈ contents target overlap part) : content = part.text ∧ ¬ Blank content := by
  unfold contents splitText at h
  dsimp only at h
  rw [if_neg htype, if_pos (Nat.le_max_right ..)] at h
  split at h
  · exact absurd h List.not_mem_nil
  · next hblank =>
      rw [trim_eq_nil_iff_blank] at hblank
      rw [List.mem_singleton.mp h]
      exact ⟨rfl, hblank⟩

theorem contents_not_blank_iff (htarget : 0 < target) {block : ParsedBlock} {part : TextSection}
    (hpart : part ∈ sections rt.decimal block) :
    (∀ content ∈ contents target overlap part, ¬ Blank content) ↔ Filled target overlap part := by
  by_cases htype : part.sectionType = "正文"
  · have htable : block.sectionType ≠ "表格" := by
      intro htable
      rw [sections_table rt.decimal htable] at hpart
      rw [List.mem_singleton.mp hpart] at htype
      exact absurd htype (show ¬ "表格" = "正文" by decide)
    have hended : Ended part.text := (sections_gathers rt.decimal htable).ended_text part hpart
    unfold contents Filled
    rw [if_pos htype]
    simp only [htype, forall_const]
    exact splitText_not_blank_iff htarget hended
  · exact iff_of_true (fun _ hcontent => (contents_special htype hcontent).2)
      (fun htype' => absurd htype' htype)

theorem mem_origins {item : Origin} : item ∈ blocks.flatMap (origins rt target overlap) ↔
    ∃ block ∈ blocks, ∃ part ∈ sections rt.decimal block,
      ∃ content ∈ contents target overlap part, (block.pageNo, part, content) = item := by
  simp only [List.mem_flatMap, origins, List.mem_map]

/-- **When every chunk can be used.** The orders count through and the marked sections stay whole in
any case; a chunk is blank exactly where a section of body text is one sentence longer than the
target and has a blank window before its end. -/
theorem chunkBlocks_usable_iff (rt : ChunkRuntime) (docId version : List Char) {target : Nat}
    (htarget : 1 ≤ target) (overlap : Nat) (blocks : List ParsedBlock) :
    Usable rt.decimal blocks (chunkBlocks rt docId version target overlap blocks) ↔
      ∀ block ∈ blocks, ∀ part ∈ sections rt.decimal block, Filled target overlap part := by
  have hchunks := forall₂_numberFrom rt docId version 0 (blocks.flatMap (origins rt target overlap))
  rw [← chunkBlocks_eq] at hchunks
  constructor
  · intro husable block hblock part hpart
    refine (contents_not_blank_iff htarget hpart).mp fun content hcontent => ?_
    obtain ⟨chunk, hchunk, heq, -⟩ := exists_of_mem_forall₂ hchunks _
      (mem_origins.mpr ⟨block, hblock, part, hpart, content, hcontent, rfl⟩)
    have hfilled := husable.filled chunk hchunk
    rwa [heq] at hfilled
  · intro hfilled
    have horigin : ∀ chunk ∈ chunkBlocks rt docId version target overlap blocks,
        ∃ block ∈ blocks, ∃ part ∈ sections rt.decimal block,
          chunk.content ∈ contents target overlap part ∧ chunk.chapterTitle = part.title ∧
            chunk.sectionType = part.sectionType := by
      intro chunk hchunk
      obtain ⟨item, hitem, heq, htitle, htype⟩ := exists_of_mem_forall₂_right hchunks chunk hchunk
      obtain ⟨block, hblock, part, hpart, content, hcontent, rfl⟩ := mem_origins.mp hitem
      exact ⟨block, hblock, part, hpart, heq ▸ hcontent, htitle, htype⟩
    refine ⟨fun chunk hchunk => ?_, chunkOrders_eq blocks, fun chunk hchunk htype => ?_⟩
    · obtain ⟨block, hblock, part, hpart, hcontent, -⟩ := horigin chunk hchunk
      exact (contents_not_blank_iff htarget hpart).mpr (hfilled block hblock part hpart) _ hcontent
    · obtain ⟨block, hblock, part, hpart, hcontent, htitle, hsame⟩ := horigin chunk hchunk
      rw [hsame] at htype
      exact ⟨block, hblock, part, hpart, hsame.symm, htitle.symm,
        (contents_special htype hcontent).1.symm⟩

end all

/-- A line without gaps. -/
def denseBlock : ParsedBlock where
  text := "abcdef".toList

theorem dense_line_usable :
    Usable Char.isDigit [denseBlock] (chunkBlocks sampleRuntime [] [] 2 0 [denseBlock]) := by
  refine (chunkBlocks_usable_iff sampleRuntime [] [] (show 1 ≤ 2 by decide) 0 [denseBlock]).mpr ?_
  intro block hblock part hpart
  have hsections : sections Char.isDigit denseBlock =
      [⟨"正文".toList, "abcdef".toList, "正文"⟩] := by decide
  rw [List.mem_singleton.mp hblock] at hpart
  have hmem : part ∈ sections Char.isDigit denseBlock := hpart
  rw [hsections] at hmem
  rw [List.mem_singleton.mp hmem]
  intro _ _ _ i hi
  have hbound : (i + 1) * 2 < 6 := hi
  have hcases : i = 0 ∨ i = 1 := by omega
  rcases hcases with rfl | rfl <;> decide

/-- A line with a gap. -/
def gapBlock : ParsedBlock where
  text := "ab    cd".toList

/-- In chunks of two characters the gap is a chunk. -/
theorem gap_chunk_blank :
    ∃ chunk ∈ chunkBlocks sampleRuntime [] [] 2 0 [gapBlock], Blank chunk.content := by
  decide +kernel

end EnergyAgent.Ingestion
