import EnergyAgent.Ingestion.Chunking

/-!
# What the sections hold

`_sections` gathers the lines of a block that are not titles, in their order and each under the
title above it; a blank line, a heading or a marked line only decides where one section ends and the
next begins. `chunk_blocks` numbers the contents of the sections through.
-/

namespace EnergyAgent.Ingestion

open EnergyAgent.Lib EnergyAgent.Lib.Text

/-! ## Lines under their titles -/

/-- The lines of a text that are not blank, stripped. -/
def textLines (text : List Char) : List (List Char) :=
  ((splitlines text).map (trim isSpace)).filter (· ≠ [])

/-- The lines that are not titles, each with the title above it. -/
def underTitles (decimal : Char → Bool) (title : List Char) :
    List (List Char) → List (List Char × List Char)
  | [] => []
  | line :: lines =>
      if isTitle decimal line then underTitles decimal (headingText line) lines
      else (title, line) :: underTitles decimal title lines

theorem map_snd_underTitles (decimal : Char → Bool) (title : List Char) (lines : List (List Char)) :
    (underTitles decimal title lines).map Prod.snd = lines.filter (fun line => !isTitle decimal line) := by
  induction lines generalizing title with
  | nil => rfl
  | cons line lines ih =>
      unfold underTitles
      split
      · next htitle => rw [ih, List.filter_cons_of_neg (by simp [htitle])]
      · next htitle => rw [List.map_cons, ih, List.filter_cons_of_pos (by simp [htitle])]

theorem mem_textLines {text line : List Char} (h : line ∈ textLines text) :
    line ≠ [] ∧ ∃ whole ∈ splitlines text, line = trim isSpace whole := by
  obtain ⟨hmem, hne⟩ := List.mem_filter.mp h
  obtain ⟨whole, hwhole, rfl⟩ := List.mem_map.mp hmem
  exact ⟨of_decide_eq_true hne, whole, hwhole, rfl⟩

theorem newline_not_mem {text line : List Char} (h : line ∈ textLines text) : '\n' ∉ line := by
  obtain ⟨-, whole, hwhole, rfl⟩ := mem_textLines h
  intro hmem
  have hbreak := splitlinesFrom_no_break hwhole '\n' ((trim_within isSpace whole).subset hmem)
  exact absurd hbreak (by decide)

theorem line_within {text line : List Char} (h : line ∈ textLines text) : line <:+: text := by
  obtain ⟨-, whole, hwhole, rfl⟩ := mem_textLines h
  exact (trim_within isSpace whole).trans (splitlinesFrom_within hwhole)

theorem spread_filter_le (lines : List (List Char)) (p : List Char → Bool) :
    spread (lines.filter p) ≤ spread lines := by
  induction lines with
  | nil => exact Nat.le_refl _
  | cons line lines ih =>
      rw [List.filter_cons]
      split
      · rw [spread_cons, spread_cons]
        omega
      · rw [spread_cons]
        omega

theorem spread_trim_le (lines : List (List Char)) :
    spread (lines.map (trim isSpace)) ≤ spread lines := by
  induction lines with
  | nil => exact Nat.le_refl _
  | cons line lines ih =>
      have hline := length_trim_le isSpace line
      rw [List.map_cons, spread_cons, spread_cons]
      omega

theorem spread_textLines_le (text : List Char) : spread (textLines text) ≤ text.length + 1 :=
  calc spread (textLines text)
      ≤ spread ((splitlines text).map (trim isSpace)) := spread_filter_le _ _
    _ ≤ spread (splitlines text) := spread_trim_le _
    _ ≤ text.length + 1 := spread_splitlinesFrom_le false text

/-! ## Sections gather lines -/

/-- The sections are made of the entries, in order: each of some lines under one title. -/
inductive Gathers : List (List Char × List Char) → List TextSection → Prop
  | nil : Gathers [] []
  | cons {lines : List (List Char)} {entries : List (List Char × List Char)}
      {parts : List TextSection} (title : List Char) (sectionType : String) :
      lines ≠ [] → Gathers entries parts →
        Gathers (lines.map (fun line => (title, line)) ++ entries)
          (⟨title, List.intercalate ['\n'] lines, sectionType⟩ :: parts)

namespace Gathers

variable {entries entries' : List (List Char × List Char)} {parts parts' : List TextSection}

theorem append (h : Gathers entries parts) (h' : Gathers entries' parts') :
    Gathers (entries ++ entries') (parts ++ parts') := by
  induction h with
  | nil => exact h'
  | cons title sectionType hne _ ih =>
      rw [List.append_assoc]
      exact .cons title sectionType hne ih

theorem single (title : List Char) (sectionType : String) {lines : List (List Char)} (hne : lines ≠ []) :
    Gathers (lines.map fun line => (title, line))
      [⟨title, List.intercalate ['\n'] lines, sectionType⟩] := by
  have h := Gathers.cons title sectionType hne .nil
  rwa [List.append_nil] at h

theorem exists_lines (h : Gathers entries parts) : ∀ part ∈ parts,
    ∃ lines, lines ≠ [] ∧ part.text = List.intercalate ['\n'] lines ∧
      ∀ line ∈ lines, (part.title, line) ∈ entries := by
  induction h with
  | nil => exact fun part hpart => absurd hpart List.not_mem_nil
  | @cons lines _ _ title sectionType hne _ ih =>
      intro part hpart
      rcases List.mem_cons.mp hpart with rfl | hpart
      · exact ⟨lines, hne, rfl, fun line hline => List.mem_append_left _ (List.mem_map_of_mem hline)⟩
      · obtain ⟨lines', hne', htext, hmem⟩ := ih part hpart
        exact ⟨lines', hne', htext, fun line hline => List.mem_append_right _ (hmem line hline)⟩

/-- The sections fit into the space of the lines. -/
theorem length_lt (h : Gathers entries parts) : ∀ part ∈ parts,
    part.text.length + 1 ≤ spread (entries.map Prod.snd) := by
  induction h with
  | nil => exact fun part hpart => absurd hpart List.not_mem_nil
  | @cons lines _ _ title sectionType hne _ ih =>
      intro part hpart
      rw [List.map_append, spread_append]
      rcases List.mem_cons.mp hpart with rfl | hpart
      · have hlines : (lines.map fun line => (title, line)).map Prod.snd = lines := by
          rw [List.map_map]
          exact List.map_id lines
        rw [length_intercalate hne, hlines]
        exact Nat.le_add_right _ _
      · exact Nat.le_trans (ih part hpart) (Nat.le_add_left _ _)

/-- The entries fall into groups, one for each section. -/
theorem exists_groups (h : Gathers entries parts) : ∃ groups : List (List (List Char × List Char)),
    groups.flatten = entries ∧ List.Forall₂ (fun group part => group ≠ [] ∧
      ∀ entry ∈ group, entry.1 = part.title ∧ entry.2 <:+: part.text) groups parts := by
  induction h with
  | nil => exact ⟨[], rfl, .nil⟩
  | @cons lines entries parts title sectionType hne _ ih =>
      obtain ⟨groups, rfl, hgroups⟩ := ih
      refine ⟨lines.map (fun line => (title, line)) :: groups, rfl, .cons ⟨?_, ?_⟩ hgroups⟩
      · exact fun hnil => hne (List.map_eq_nil_iff.mp hnil)
      · intro entry hentry
        obtain ⟨line, hline, rfl⟩ := List.mem_map.mp hentry
        exact ⟨rfl, infix_intercalate hline⟩

/-- A text without line breaks occurs in the sections where it occurs in the entries. -/
theorem occurs_iff (h : Gathers entries parts) {text : List Char} (htext : '\n' ∉ text) :
    (∃ part ∈ parts, text <:+: part.title ∨ text <:+: part.text) ↔
      ∃ entry ∈ entries, text <:+: entry.1 ∨ text <:+: entry.2 := by
  constructor
  · rintro ⟨part, hpart, hin⟩
    obtain ⟨lines, hne, heq, hmem⟩ := h.exists_lines part hpart
    rcases hin with hin | hin
    · obtain ⟨line, hline⟩ := List.exists_mem_of_ne_nil lines hne
      exact ⟨_, hmem line hline, Or.inl hin⟩
    · rw [heq, infix_intercalate_iff htext hne] at hin
      obtain ⟨line, hline, hin⟩ := hin
      exact ⟨_, hmem line hline, Or.inr hin⟩
  · rintro ⟨entry, hentry, hin⟩
    obtain ⟨groups, rfl, hgroups⟩ := h.exists_groups
    obtain ⟨group, hgroup, hentry⟩ := List.mem_flatten.mp hentry
    obtain ⟨part, hpart, -, hall⟩ := exists_of_mem_forall₂ hgroups group hgroup
    obtain ⟨htitle, hline⟩ := hall entry hentry
    refine ⟨part, hpart, ?_⟩
    rcases hin with hin | hin
    · exact Or.inl (htitle ▸ hin)
    · exact Or.inr (hin.trans hline)

end Gathers

/-! ## The loop -/

/-- The loop has put the entries into sections, up to those in the buffer. -/
def Scan.Holds (scan : Scan) (entries : List (List Char × List Char)) : Prop :=
  ∃ done, Gathers done scan.output ∧
    entries = done ++ scan.buffer.map fun line => (scan.title, line)

section scan

variable {decimal : Char → Bool} {scan : Scan} {entries : List (List Char × List Char)}

@[simp] theorem Scan.flush_title : scan.flush.title = scan.title := by
  unfold Scan.flush
  split <;> rfl

@[simp] theorem Scan.flush_buffer : scan.flush.buffer = [] := by
  unfold Scan.flush
  split
  · assumption
  · rfl

theorem Scan.Holds.flush (h : scan.Holds entries) : scan.flush.Holds entries := by
  obtain ⟨done, hdone, rfl⟩ := h
  refine ⟨done ++ scan.buffer.map (fun line => (scan.title, line)), ?_, by simp⟩
  unfold Scan.flush
  split
  · next hnil => simpa [hnil] using hdone
  · next hne => exact hdone.append (.single scan.title "正文" hne)

/-- Where nothing is buffered, the sections hold all entries. -/
theorem Scan.Holds.gathers (h : scan.Holds entries) (hbuffer : scan.buffer = []) :
    Gathers entries scan.output := by
  obtain ⟨done, hdone, rfl⟩ := h
  simpa [hbuffer] using hdone

/-- A line that is no title is added under the present title. -/
theorem Scan.Holds.readText (h : scan.Holds entries) (line : List Char) :
    (scan.readText decimal line).Holds
      (entries ++ underTitles decimal scan.title [line]) ∧
    (scan.readText decimal line).title =
      if isTitle decimal line then headingText line else scan.title := by
  have hflushed : (if isHeading decimal line then scan.flush else scan).Holds entries := by
    split
    · exact h.flush
    · exact h
  have htitle : (if isHeading decimal line then scan.flush else scan).title = scan.title := by
    split
    · exact Scan.flush_title
    · rfl
  unfold Scan.readText
  dsimp only
  by_cases hline : isTitle decimal line = true
  · -- the heading has emptied the buffer, so nothing gets the new title
    have hheading : isHeading decimal line = true := by
      unfold isTitle at hline
      exact (Bool.and_eq_true _ _ ▸ hline : _ ∧ _).1
    rw [if_pos hline, if_pos hline, if_pos hheading]
    refine ⟨⟨entries, h.flush.gathers Scan.flush_buffer, ?_⟩, rfl⟩
    simp [underTitles, hline]
  · rw [if_neg hline, if_neg hline]
    have hunder : underTitles decimal scan.title [line] = [(scan.title, line)] := by
      simp [underTitles, hline]
    rw [hunder]
    split
    · refine ⟨?_, htitle⟩
      obtain ⟨done, hdone, rfl⟩ := hflushed
      refine ⟨done, hdone, ?_⟩
      simp only [htitle, List.map_append, List.append_assoc, List.map_cons, List.map_nil]
    · refine ⟨?_, by rw [Scan.flush_title, htitle]⟩
      have hgathers := hflushed.flush.gathers Scan.flush_buffer
      have hsingle := Gathers.single scan.title (lineType decimal line) (List.cons_ne_nil line [])
      rw [List.intercalate_singleton] at hsingle
      refine ⟨entries ++ [(scan.title, line)], ?_, by simp⟩
      rw [htitle]
      exact hgathers.append hsingle

theorem underTitles_cons (decimal : Char → Bool) (title line : List Char) (lines : List (List Char)) :
    underTitles decimal title (line :: lines) = underTitles decimal title [line] ++
      underTitles decimal (if isTitle decimal line then headingText line else title) lines := by
  by_cases htitle : isTitle decimal line = true
  · simp [underTitles, htitle]
  · simp [underTitles, htitle]

/-- What the loop holds after the lines, from any state. -/
theorem Scan.Holds.foldl_read (h : scan.Holds entries) (lines : List (List Char)) :
    (lines.foldl (Scan.read decimal) scan).Holds
      (entries ++ underTitles decimal scan.title ((lines.map (trim isSpace)).filter (· ≠ []))) := by
  induction lines generalizing scan entries with
  | nil => simpa [underTitles] using h
  | cons line lines ih =>
      rw [List.foldl_cons, List.map_cons]
      by_cases hblank : trim isSpace line = []
      · rw [List.filter_cons_of_neg (by simp [hblank])]
        have hread : scan.read decimal line = scan.flush := by
          unfold Scan.read
          rw [if_pos hblank]
        have hnext := ih h.flush
        rw [Scan.flush_title] at hnext
        rw [hread]
        exact hnext
      · rw [List.filter_cons_of_pos (by simp [hblank])]
        have hread : scan.read decimal line = scan.readText decimal (trim isSpace line) := by
          unfold Scan.read
          rw [if_neg hblank]
        obtain ⟨hholds, htitle⟩ := Scan.Holds.readText h (trim isSpace line)
        have hnext := ih hholds
        rw [htitle, List.append_assoc, ← underTitles_cons] at hnext
        rw [hread]
        exact hnext

end scan

/-- **What `_sections` does**: the lines that are not titles, in order, each under its title. -/
theorem sections_gathers (decimal : Char → Bool) {block : ParsedBlock}
    (h : block.sectionType ≠ "表格") :
    Gathers (underTitles decimal "正文".toList (textLines block.text)) (sections decimal block) := by
  have hstart : Scan.Holds ⟨[], "正文".toList, []⟩ [] := ⟨[], .nil, rfl⟩
  unfold sections
  rw [if_neg h]
  exact (hstart.foldl_read (splitlines block.text)).flush.gathers Scan.flush_buffer

theorem sections_table (decimal : Char → Bool) {block : ParsedBlock} (h : block.sectionType = "表格") :
    sections decimal block = [⟨"表格".toList, block.text, "表格"⟩] := by
  unfold sections
  rw [if_pos h]

/-- A section of a block is not blank. -/
theorem Gathers.trim_text_ne_nil {decimal : Char → Bool} {title text : List Char}
    {parts : List TextSection} (h : Gathers (underTitles decimal title (textLines text)) parts) :
    ∀ part ∈ parts, trim isSpace part.text ≠ [] := by
  intro part hpart hblank
  obtain ⟨lines, hne, htext, hmem⟩ := h.exists_lines part hpart
  obtain ⟨line, hline⟩ := List.exists_mem_of_ne_nil lines hne
  have hsnd : line ∈ (underTitles decimal title (textLines text)).map Prod.snd :=
    List.mem_map_of_mem (hmem line hline)
  rw [map_snd_underTitles] at hsnd
  obtain ⟨hnonempty, whole, -, rfl⟩ := mem_textLines (List.mem_of_mem_filter hsnd)
  have hall := (trim_eq_nil_iff isSpace).mp hblank
  rw [htext] at hall
  refine hnonempty ((trim_eq_nil_iff isSpace).mpr ((forall_mem_trim_iff isSpace).mp ?_))
  exact fun c hc => hall c ((infix_intercalate hline).subset hc)

/-- A text that fits the limit and is not blank is not cut. -/
theorem splitText_of_le (overlap : Nat) {text : List Char} {limit : Nat} (hle : text.length ≤ limit)
    (hne : trim isSpace text ≠ []) : splitText text limit overlap = [text] := by
  unfold splitText
  rw [if_pos hle, if_neg hne]

/-! ## The numbering -/

/-- A content with the section and the page it comes from. -/
abbrev Origin := Option Nat × TextSection × List Char

section numbering

variable (rt : ChunkRuntime) (docId version : List Char) (target overlap : Nat)

/-- The contents of a block, in order. -/
def origins (block : ParsedBlock) : List Origin :=
  (sections rt.decimal block).flatMap fun part =>
    (contents target overlap part).map fun content => (block.pageNo, part, content)

/-- Chunks for the contents, numbered from `start`. -/
def numberFrom (start : Nat) (items : List Origin) : List DocumentChunk :=
  (items.zipIdx start).map fun (item, order) => documentChunk rt docId version item.1 item.2.1 order item.2.2

/-- A chunk shows the section and the content it is made of. -/
theorem forall₂_numberFrom (start : Nat) (items : List Origin) :
    List.Forall₂ (fun item chunk => chunk.content = item.2.2 ∧
      chunk.chapterTitle = item.2.1.title ∧ chunk.sectionType = item.2.1.sectionType)
      items (numberFrom rt docId version start items) := by
  induction items generalizing start with
  | nil => exact .nil
  | cons item items ih =>
      have hcons : numberFrom rt docId version start (item :: items) =
          documentChunk rt docId version item.1 item.2.1 start item.2.2 ::
            numberFrom rt docId version (start + 1) items := rfl
      rw [hcons]
      exact .cons ⟨rfl, rfl, rfl⟩ (ih (start + 1))

variable {rt docId version target overlap}

theorem numberFrom_append (start : Nat) (items items' : List Origin) :
    numberFrom rt docId version start (items ++ items') =
      numberFrom rt docId version start items ++
        numberFrom rt docId version (start + items.length) items' := by
  unfold numberFrom
  rw [List.zipIdx_append, List.map_append]

@[simp] theorem length_numberFrom (start : Nat) (items : List Origin) :
    (numberFrom rt docId version start items).length = items.length := by
  simp [numberFrom]

theorem foldl_addContent (pageNo : Option Nat) (part : TextSection) (texts : List (List Char))
    (state : Numbering) : texts.foldl (addContent rt docId version pageNo part) state =
      (state.1 ++ numberFrom rt docId version state.2 (texts.map fun text => (pageNo, part, text)),
        state.2 + texts.length) := by
  induction texts generalizing state with
  | nil => simp [numberFrom]
  | cons text texts ih =>
      rw [List.foldl_cons, ih]
      simp only [addContent, numberFrom, List.map_cons, List.zipIdx_cons, List.append_assoc,
        List.singleton_append, List.length_cons]
      congr 1
      omega

theorem foldl_addSection (pageNo : Option Nat) (parts : List TextSection) (state : Numbering) :
    parts.foldl (addSection rt docId version target overlap pageNo) state =
      (state.1 ++ numberFrom rt docId version state.2 (parts.flatMap fun part =>
          (contents target overlap part).map fun content => (pageNo, part, content)),
        state.2 + (parts.flatMap fun part =>
          (contents target overlap part).map fun content => (pageNo, part, content)).length) := by
  induction parts generalizing state with
  | nil => simp [numberFrom]
  | cons part parts ih =>
      rw [List.foldl_cons, ih, addSection, foldl_addContent, List.flatMap_cons, numberFrom_append,
        List.length_append, List.length_map, List.append_assoc, Nat.add_assoc]

theorem foldl_addBlock (blocks : List ParsedBlock) (state : Numbering) :
    blocks.foldl (addBlock rt docId version target overlap) state =
      (state.1 ++ numberFrom rt docId version state.2 (blocks.flatMap (origins rt target overlap)),
        state.2 + (blocks.flatMap (origins rt target overlap)).length) := by
  induction blocks generalizing state with
  | nil => simp [numberFrom]
  | cons block blocks ih =>
      rw [List.foldl_cons, ih, addBlock, foldl_addSection, List.flatMap_cons, numberFrom_append,
        List.length_append, List.append_assoc, Nat.add_assoc]
      rfl

/-- **`chunk_blocks` numbers the contents of all blocks through**, from 0. -/
theorem chunkBlocks_eq (blocks : List ParsedBlock) :
    chunkBlocks rt docId version target overlap blocks =
      numberFrom rt docId version 0 (blocks.flatMap (origins rt target overlap)) := by
  unfold chunkBlocks
  rw [foldl_addBlock]
  rfl

theorem chunkOrders_eq (blocks : List ParsedBlock) :
    (chunkBlocks rt docId version target overlap blocks).map DocumentChunk.chunkOrder =
      List.range (chunkBlocks rt docId version target overlap blocks).length := by
  rw [chunkBlocks_eq, length_numberFrom, numberFrom, List.map_map, List.range_eq_range',
    ← List.zipIdx_map_snd 0 (blocks.flatMap (origins rt target overlap))]
  rfl

end numbering

section own

variable (rt : ChunkRuntime) (docId version : List Char) (target overlap : Nat)

/-- The chunks that a block adds to those of the blocks before it. -/
def ownChunks (before : List ParsedBlock) (block : ParsedBlock) : List DocumentChunk :=
  (chunkBlocks rt docId version target overlap (before ++ [block])).drop
    (chunkBlocks rt docId version target overlap before).length

theorem ownChunks_eq (before : List ParsedBlock) (block : ParsedBlock) :
    ownChunks rt docId version target overlap before block = numberFrom rt docId version
      (before.flatMap (origins rt target overlap)).length (origins rt target overlap block) := by
  unfold ownChunks
  rw [chunkBlocks_eq, chunkBlocks_eq, List.flatMap_append, numberFrom_append, length_numberFrom,
    List.flatMap_singleton, Nat.zero_add]
  refine List.drop_left' ?_
  rw [length_numberFrom]

/-- The chunks of all blocks are those of each block in turn. -/
theorem chunkBlocks_split (before after : List ParsedBlock) (block : ParsedBlock) :
    ∃ later, chunkBlocks rt docId version target overlap (before ++ block :: after) =
      chunkBlocks rt docId version target overlap before ++
        ownChunks rt docId version target overlap before block ++ later := by
  refine ⟨numberFrom rt docId version ((before.flatMap (origins rt target overlap)).length +
    (origins rt target overlap block).length) (after.flatMap (origins rt target overlap)), ?_⟩
  rw [ownChunks_eq, chunkBlocks_eq, chunkBlocks_eq, List.flatMap_append, List.flatMap_cons,
    numberFrom_append, numberFrom_append, List.append_assoc, Nat.zero_add]

end own

end EnergyAgent.Ingestion
