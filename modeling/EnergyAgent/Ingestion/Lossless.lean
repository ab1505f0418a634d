import EnergyAgent.Ingestion.Sections

/-!
# Chunks without loss

Where no section has to be cut, the chunks of a block hold its lines, except for the titles under
which nothing stands: `_sections` keeps a title only with the text that follows it, and a title right
behind it takes its place.
-/

namespace EnergyAgent.Ingestion

open EnergyAgent.Lib EnergyAgent.Lib.Text

/-! ## What a chunk should hold -/

/-- The text of a line: without the marks when it is a heading. -/
def lineText (decimal : Char → Bool) (line : List Char) : List Char :=
  if isHeading decimal line then headingText line else line

/-- The text occurs in the title or in the content of the chunk. -/
def DocumentChunk.Shows (text : List Char) (chunk : DocumentChunk) : Prop :=
  text <:+: chunk.chapterTitle ∨ text <:+: chunk.content

instance (text : List Char) (chunk : DocumentChunk) : Decidable (chunk.Shows text) :=
  inferInstanceAs (Decidable (_ ∨ _))

section kept

variable (decimal : Char → Bool)

/-- No line follows, or a title does. -/
def barren (lines : List (List Char)) : Bool := lines.head?.all (isTitle decimal)

/-- The titles under which nothing stands. -/
def lostTitles : List (List Char) → List (List Char)
  | [] => []
  | line :: lines =>
      if isTitle decimal line && barren decimal lines then line :: lostTitles lines
      else lostTitles lines

/-- The other lines. -/
def keptLines : List (List Char) → List (List Char)
  | [] => []
  | line :: lines =>
      if isTitle decimal line && barren decimal lines then keptLines lines
      else line :: keptLines lines

theorem mem_kept_or_lost {line : List Char} {lines : List (List Char)} (h : line ∈ lines) :
    line ∈ keptLines decimal lines ∨ line ∈ lostTitles decimal lines := by
  induction lines with
  | nil => exact absurd h List.not_mem_nil
  | cons first lines ih =>
      unfold keptLines lostTitles
      rcases List.mem_cons.mp h with rfl | h
      · split
        · exact Or.inr (List.mem_cons_self ..)
        · exact Or.inl (List.mem_cons_self ..)
      · split
        · exact (ih h).imp id (List.mem_cons_of_mem _)
        · exact (ih h).imp (List.mem_cons_of_mem _) id

theorem lostTitles_subset (lines : List (List Char)) : lostTitles decimal lines ⊆ lines := by
  induction lines with
  | nil => exact fun _ h => h
  | cons first lines ih =>
      intro line h
      unfold lostTitles at h
      split at h
      · rcases List.mem_cons.mp h with rfl | h
        · exact List.mem_cons_self ..
        · exact List.mem_cons_of_mem _ (ih h)
      · exact List.mem_cons_of_mem _ (ih h)

theorem isTitle_of_lost {line : List Char} {lines : List (List Char)}
    (h : line ∈ lostTitles decimal lines) : isTitle decimal line = true := by
  induction lines with
  | nil => exact absurd h List.not_mem_nil
  | cons first lines ih =>
      unfold lostTitles at h
      split at h
      · next hlost =>
          rcases List.mem_cons.mp h with rfl | h
          · exact (Bool.and_eq_true_iff.mp hlost).1
          · exact ih h
      · exact ih h

/-- An entry shows a text. -/
def Entry.Shows (text : List Char) (entry : List Char × List Char) : Prop :=
  text <:+: entry.1 ∨ text <:+: entry.2

theorem lineText_within (line : List Char) : lineText decimal line <:+: line := by
  unfold lineText
  split
  · exact (trim_within isSpace _).trans (List.dropWhile_suffix _).isInfix
  · exact List.infix_rfl

/-- The kept lines stand in the entries, in order: a line as itself, a title over the next line. -/
theorem placed_underTitles (title : List Char) (lines : List (List Char)) :
    PlacedInOrder (fun line entry => Entry.Shows (lineText decimal line) entry)
      (keptLines decimal lines) (underTitles decimal title lines) := by
  induction lines generalizing title with
  | nil => exact .nil _
  | cons line lines ih =>
      unfold keptLines underTitles
      by_cases htitle : isTitle decimal line = true
      · rw [if_pos htitle, htitle, Bool.true_and]
        split
        · exact ih _
        · next hfruitful =>
            -- the next line is no title and makes the first entry
            have hrest := ih (headingText line)
            cases lines with
            | nil => exact absurd rfl hfruitful
            | cons next lines =>
                have hnext : isTitle decimal next = false := by
                  simpa [barren] using hfruitful
                have hheading : isHeading decimal line = true :=
                  (Bool.and_eq_true_iff.mp htitle).1
                have hunder : underTitles decimal (headingText line) (next :: lines) =
                    (headingText line, next) :: underTitles decimal (headingText line) lines := by
                  simp [underTitles, hnext]
                rw [hunder] at hrest ⊢
                have htext : lineText decimal line = headingText line := if_pos hheading
                exact .put (Or.inl (htext ▸ List.infix_rfl)) hrest
      · have hnot : isTitle decimal line = false := Bool.eq_false_iff.mpr htitle
        rw [if_neg htitle, hnot, Bool.false_and, if_neg Bool.false_ne_true]
        exact .put (Or.inr (lineText_within decimal line)) (.pass (ih title))

end kept

/-! ## A block -/

section block

variable (rt : ChunkRuntime) (docId version : List Char) (target overlap : Nat)

/-- The lines of a block that its chunks hold. -/
def recordedLines (decimal : Char → Bool) (block : ParsedBlock) : List (List Char) :=
  if block.sectionType = "表格" then textLines block.text
  else keptLines decimal (textLines block.text)

/-- No text is lost in the chunks of a block: each line occurs in one of them, and the chunks of the
recorded lines follow the order of the lines. -/
structure Lossless (decimal : Char → Bool) (block : ParsedBlock) (chunks : List DocumentChunk) : Prop where
  occurs : ∀ line ∈ textLines block.text, ∃ chunk ∈ chunks, chunk.Shows (lineText decimal line)
  ordered : PlacedInOrder (fun line chunk => DocumentChunk.Shows (lineText decimal line) chunk)
    (recordedLines decimal block) chunks

/-- The text of a title under which nothing stands occurs in some line that is no title, or in the
title over such a line. -/
def Outlined (decimal : Char → Bool) (block : ParsedBlock) : Prop :=
  block.sectionType ≠ "表格" → ∀ line ∈ lostTitles decimal (textLines block.text),
    ∃ entry ∈ underTitles decimal "正文".toList (textLines block.text),
      Entry.Shows (lineText decimal line) entry

theorem trim_ne_nil {line text : List Char} (hline : line ∈ textLines text) : trim isSpace text ≠ [] := by
  intro hblank
  obtain ⟨hne, whole, hwhole, rfl⟩ := mem_textLines hline
  have hall := (trim_eq_nil_iff isSpace).mp hblank
  refine hne ((trim_eq_nil_iff isSpace).mpr (fun c hc => hall c ?_))
  exact (splitlinesFrom_within hwhole).subset hc

/-- A block that is no table has one chunk for each section when the target leaves room. -/
theorem origins_of_le {block : ParsedBlock} (htable : block.sectionType ≠ "表格")
    (htarget : block.text.length ≤ target) :
    origins rt target overlap block =
      (sections rt.decimal block).map fun part => (block.pageNo, part, part.text) := by
  have hgathers := sections_gathers rt.decimal htable
  have hwhole : ∀ part ∈ sections rt.decimal block, contents target overlap part = [part.text] := by
    intro part hpart
    have hlength : part.text.length + 1 ≤ block.text.length + 1 :=
      calc part.text.length + 1
          ≤ spread ((underTitles rt.decimal "正文".toList (textLines block.text)).map Prod.snd) :=
            hgathers.length_lt part hpart
        _ ≤ spread (textLines block.text) := by
            rw [map_snd_underTitles]
            exact spread_filter_le _ _
        _ ≤ block.text.length + 1 := spread_textLines_le block.text
    refine splitText_of_le overlap ?_ (hgathers.trim_text_ne_nil part hpart)
    split
    · omega
    · exact Nat.le_max_right ..
  unfold origins
  rw [← List.flatMap_singleton' ((sections rt.decimal block).map _), List.flatMap_map]
  refine List.flatMap_congr (fun part hpart => ?_)
  rw [hwhole part hpart]
  rfl

variable {rt docId version target overlap}

theorem lossless_table {before : List ParsedBlock} {block : ParsedBlock}
    (htable : block.sectionType = "表格") :
    Lossless rt.decimal block (ownChunks rt docId version target overlap before block) := by
  have hrecorded : recordedLines rt.decimal block = textLines block.text := by
    unfold recordedLines
    rw [if_pos htable]
  have horigins : origins rt target overlap block =
      (splitText block.text (max target block.text.length) overlap).map fun content =>
        (block.pageNo, ⟨"表格".toList, block.text, "表格"⟩, content) := by
    unfold origins
    rw [sections_table rt.decimal htable, List.flatMap_singleton]
    rfl
  cases hlines : textLines block.text with
  | nil =>
      refine ⟨?_, ?_⟩
      · rw [hlines]
        exact fun line hline => absurd hline List.not_mem_nil
      · rw [hrecorded, hlines]
        exact .nil _
  | cons first others =>
      have hfirst : first ∈ textLines block.text := hlines ▸ List.mem_cons_self ..
      rw [splitText_of_le overlap (Nat.le_max_right ..) (trim_ne_nil hfirst)] at horigins
      have hshows : ∀ line ∈ textLines block.text, DocumentChunk.Shows (lineText rt.decimal line)
          (documentChunk rt docId version block.pageNo ⟨"表格".toList, block.text, "表格"⟩
            (before.flatMap (origins rt target overlap)).length block.text) :=
        fun line hline => Or.inr ((lineText_within rt.decimal line).trans (line_within hline))
      rw [ownChunks_eq, horigins]
      refine ⟨fun line hline => ⟨_, List.mem_singleton_self _, hshows line hline⟩, ?_⟩
      rw [hrecorded]
      exact .all_in_first [] hshows

/-- The chunks of a block that is no table show what its entries show. -/
theorem shows_iff {before : List ParsedBlock} {block : ParsedBlock}
    (htable : block.sectionType ≠ "表格") (htarget : block.text.length ≤ target)
    {line : List Char} (hline : line ∈ textLines block.text) :
    (∃ chunk ∈ ownChunks rt docId version target overlap before block,
        chunk.Shows (lineText rt.decimal line)) ↔
      ∃ entry ∈ underTitles rt.decimal "正文".toList (textLines block.text),
        Entry.Shows (lineText rt.decimal line) entry := by
  have hbreak : '\n' ∉ lineText rt.decimal line :=
    fun hmem => newline_not_mem hline ((lineText_within rt.decimal line).subset hmem)
  refine Iff.trans ?_ ((sections_gathers rt.decimal htable).occurs_iff hbreak)
  rw [ownChunks_eq, origins_of_le rt target overlap htable htarget]
  have hchunks := forall₂_numberFrom rt docId version
    (before.flatMap (origins rt target overlap)).length
    ((sections rt.decimal block).map fun part => (block.pageNo, part, part.text))
  constructor
  · rintro ⟨chunk, hchunk, hshows⟩
    obtain ⟨item, hitem, hcontent, htitle, -⟩ := exists_of_mem_forall₂_right hchunks chunk hchunk
    obtain ⟨part, hpart, rfl⟩ := List.mem_map.mp hitem
    unfold DocumentChunk.Shows at hshows
    rw [hcontent, htitle] at hshows
    exact ⟨part, hpart, hshows⟩
  · rintro ⟨part, hpart, hshows⟩
    obtain ⟨chunk, hchunk, hcontent, htitle, -⟩ :=
      exists_of_mem_forall₂ hchunks _ (List.mem_map_of_mem hpart)
    refine ⟨chunk, hchunk, ?_⟩
    unfold DocumentChunk.Shows
    rw [hcontent, htitle]
    exact hshows

theorem ordered_block {before : List ParsedBlock} {block : ParsedBlock}
    (htable : block.sectionType ≠ "表格") (htarget : block.text.length ≤ target) :
    PlacedInOrder (fun line chunk => DocumentChunk.Shows (lineText rt.decimal line) chunk)
      (keptLines rt.decimal (textLines block.text))
      (ownChunks rt docId version target overlap before block) := by
  obtain ⟨groups, hflatten, hgroups⟩ := (sections_gathers rt.decimal htable).exists_groups
  have hplaced := placed_underTitles rt.decimal "正文".toList (textLines block.text)
  rw [← hflatten] at hplaced
  have hparts : PlacedInOrder
      (fun line (part : TextSection) =>
        lineText rt.decimal line <:+: part.title ∨ lineText rt.decimal line <:+: part.text)
      (keptLines rt.decimal (textLines block.text)) (sections rt.decimal block) := by
    refine hplaced.merge (hgroups.imp ?_)
    rintro group part ⟨-, hall⟩ entry hentry line (hin | hin)
    · exact Or.inl ((hall entry hentry).1 ▸ hin)
    · exact Or.inr (hin.trans (hall entry hentry).2)
  rw [ownChunks_eq, origins_of_le rt target overlap htable htarget]
  have hchunks := List.forall₂_map_left_iff.mp (forall₂_numberFrom rt docId version
    (before.flatMap (origins rt target overlap)).length
    ((sections rt.decimal block).map fun part => (block.pageNo, part, part.text)))
  refine hparts.transfer (hchunks.imp ?_)
  rintro part chunk ⟨hcontent, htitle, -⟩ line hin
  show lineText rt.decimal line <:+: chunk.chapterTitle ∨ lineText rt.decimal line <:+: chunk.content
  rw [hcontent, htitle]
  exact hin

theorem lossless_iff_outlined {before : List ParsedBlock} {block : ParsedBlock}
    (htarget : block.text.length ≤ target) :
    Lossless rt.decimal block (ownChunks rt docId version target overlap before block) ↔
      Outlined rt.decimal block := by
  by_cases htable : block.sectionType = "表格"
  · exact iff_of_true (lossless_table htable) (fun hnot => absurd htable hnot)
  · have hrecorded : recordedLines rt.decimal block =
        keptLines rt.decimal (textLines block.text) := by
      unfold recordedLines
      rw [if_neg htable]
    constructor
    · intro hlossless _ line hline
      have hmem := lostTitles_subset rt.decimal _ hline
      exact (shows_iff htable htarget hmem).mp (hlossless.occurs line hmem)
    · intro houtlined
      refine ⟨fun line hline => (shows_iff htable htarget hline).mpr ?_, ?_⟩
      · rcases mem_kept_or_lost rt.decimal hline with hkept | hlost
        · exact (placed_underTitles rt.decimal _ _).exists_fits line hkept
        · exact houtlined htable line hlost
      · rw [hrecorded]
        exact ordered_block htable htarget

/-- A title with a line under it. -/
def plainBlock : ParsedBlock where
  text := "# 风扇\n检查转速".toList

/-- The title of a chapter, the title of its first section right under it, and a line. -/
def nestedBlock : ParsedBlock where
  text := "# 冷却系统\n## 风扇\n检查转速".toList

end block

end EnergyAgent.Ingestion
