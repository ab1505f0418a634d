import EnergyAgent.Stream.Parser

/-!
# The frames of a stream

The text of a stream as a list of frames: the events of `_sse`, and frames with neither an event
nor data (a comment that keeps the connection open). Each line ends in `\n` or, where a proxy has
rewritten it, in `\r\n`. `push` rewrites the ends of a chunk back, but not one that a border of
chunks divides, so the parser reads some `frames'` with `Reduces frames frames'` (`normed_wire`).

A blank line that still ends in `\r\n` is no separator: the frames up to the next blank line that
ends in `\n` are read as one (`grouped`).
-/

namespace EnergyAgent.Stream

open EnergyAgent.Lib

inductive Ending
  | lf | crlf
  deriving DecidableEq, Repr

/-- What the end of a line leaves before its `\n`. -/
def Ending.cr : Ending → List Char
  | .lf => []
  | .crlf => ['\r']

/-- A line that the parser makes nothing of. -/
structure SilentLine where
  text : List Char
  ne_nil : text ≠ []
  plain : Plain text
  silent : eventPrefix.isPrefixOf text = false ∧ dataPrefix.isPrefixOf text = false

inductive WireFrame
  | event (event : Event) (first second blank : Ending)
  | other (line : SilentLine × Ending) (lines : List (SilentLine × Ending)) (blank : Ending)

namespace WireFrame

variable (format : FloatFormat)

def blank : WireFrame → Ending
  | .event _ _ _ blank => blank
  | .other _ _ blank => blank

/-- The lines before the blank one, without their `\n`. -/
def lines : WireFrame → List (List Char)
  | .event e first second _ => [eventLine e ++ first.cr, dataLine format e ++ second.cr]
  | .other line lines _ => (line :: lines).map fun l => l.1.text ++ l.2.cr

/-- The event, with what is left of the end of its data line. -/
def data? : WireFrame → Option (Event × List Char)
  | .event e _ second _ => some (e, second.cr)
  | .other _ _ _ => none

end WireFrame

section wire

variable (format : FloatFormat)

def wire (frames : List WireFrame) : List Char :=
  frames.flatMap fun f => unlines (f.lines format ++ [f.blank.cr])

def events (frames : List WireFrame) : List Event :=
  (frames.filterMap WireFrame.data?).map Prod.fst

theorem wire_cons (frame : WireFrame) (frames : List WireFrame) :
    wire format (frame :: frames) =
      unlines (frame.lines format) ++ (frame.blank.cr ++ '\n' :: wire format frames) := by
  simp [wire, unlines]

end wire

/-! ## Line ends that a border of chunks has kept -/

/-- `t` is `s` with some of the `\r\n` rewritten to `\n`. -/
inductive Normed : List Char → List Char → Prop
  | nil : Normed [] []
  | keep {s t : List Char} (c : Char) : Normed s t → Normed (c :: s) (c :: t)
  | rewrite {s t : List Char} : Normed s t → Normed ('\r' :: '\n' :: s) ('\n' :: t)

theorem Normed.refl (s : List Char) : Normed s s := by
  induction s with
  | nil => exact .nil
  | cons c s ih => exact .keep c ih

theorem Normed.append {s t s' t' : List Char} (h : Normed s t) (h' : Normed s' t') :
    Normed (s ++ s') (t ++ t') := by
  induction h with
  | nil => exact h'
  | keep c _ ih => exact .keep c ih
  | rewrite _ ih => exact .rewrite ih

theorem normed_normalise (s : List Char) : Normed s (normalise s) := by
  induction s using normalise.induct with
  | case1 rest ih => exact .rewrite ih
  | case2 c rest hne ih =>
      rw [normalise]
      · exact .keep c ih
      · exact hne
  | case3 => exact .nil

theorem normed_chunks (chunks : List (List Char)) :
    Normed chunks.flatten (chunks.flatMap normalise) := by
  induction chunks with
  | nil => exact .nil
  | cons chunk chunks ih => exact (normed_normalise chunk).append ih

theorem Normed.cons_of_ne {c : Char} {s t : List Char} (hc : c ≠ '\r') (h : Normed (c :: s) t) :
    ∃ t', t = c :: t' ∧ Normed s t' := by
  cases h with
  | keep _ hrest => exact ⟨_, rfl, hrest⟩
  | rewrite _ => exact absurd rfl hc

/-- A line without its end is left as it is. -/
theorem Normed.line {line s t : List Char} (hline : Plain line) (h : Normed (line ++ s) t) :
    ∃ t', t = line ++ t' ∧ Normed s t' := by
  induction line generalizing t with
  | nil => exact ⟨t, rfl, h⟩
  | cons c line ih =>
      obtain ⟨⟨-, hc⟩, hline⟩ := plain_cons.mp hline
      obtain ⟨t₁, rfl, h₁⟩ := Normed.cons_of_ne hc h
      obtain ⟨t', rfl, hs⟩ := ih hline h₁
      exact ⟨t', rfl, hs⟩

/-- The end of a line stays or is rewritten. -/
def Ending.Reduces (e e' : Ending) : Prop := e' = e ∨ e' = .lf

theorem Normed.ending {e : Ending} {s t : List Char} (h : Normed (e.cr ++ '\n' :: s) t) :
    ∃ (e' : Ending) (t' : List Char), e.Reduces e' ∧ t = e'.cr ++ '\n' :: t' ∧ Normed s t' := by
  cases e with
  | lf =>
      cases h with
      | keep _ hrest => exact ⟨.lf, _, .inl rfl, rfl, hrest⟩
  | crlf =>
      cases h with
      | keep _ hrest =>
          cases hrest with
          | keep _ hrest => exact ⟨.crlf, _, .inl rfl, rfl, hrest⟩
      | rewrite hrest => exact ⟨.lf, _, .inr rfl, rfl, hrest⟩

/-- The same frame with some of the line ends rewritten. -/
inductive WireFrame.Reduces : WireFrame → WireFrame → Prop
  | event {e : Event} {a b c a' b' c' : Ending} (first : a.Reduces a') (second : b.Reduces b')
      (blank : c.Reduces c') : WireFrame.Reduces (.event e a b c) (.event e a' b' c')
  | other {line line' : SilentLine × Ending} {lines lines' : List (SilentLine × Ending)}
      {c c' : Ending} (blank : c.Reduces c') :
      WireFrame.Reduces (.other line lines c) (.other line' lines' c')

abbrev Reduces : List WireFrame → List WireFrame → Prop := List.Forall₂ WireFrame.Reduces

theorem Normed.silent {lines : List (SilentLine × Ending)} {s t : List Char}
    (h : Normed (unlines (lines.map fun l => l.1.text ++ l.2.cr) ++ s) t) :
    ∃ (lines' : List (SilentLine × Ending)) (t' : List Char), lines'.length = lines.length ∧
      t = unlines (lines'.map fun l => l.1.text ++ l.2.cr) ++ t' ∧ Normed s t' := by
  induction lines generalizing t with
  | nil => exact ⟨[], t, rfl, rfl, h⟩
  | cons line lines ih =>
      simp only [List.map_cons, unlines_cons, List.append_assoc, List.cons_append] at h
      obtain ⟨t₁, rfl, h₁⟩ := h.line line.1.plain
      obtain ⟨e', t₂, -, rfl, h₂⟩ := h₁.ending
      obtain ⟨lines', t', hlength, rfl, hs⟩ := ih h₂
      refine ⟨(line.1, e') :: lines', t', by simp [hlength], ?_, hs⟩
      simp [unlines_cons]

section normed

variable {format : FloatFormat}

theorem Normed.frame {frame : WireFrame} {s t : List Char}
    (h : Normed (unlines (frame.lines format) ++ (frame.blank.cr ++ '\n' :: s)) t) :
    ∃ (frame' : WireFrame) (t' : List Char), frame.Reduces frame' ∧
      t = unlines (frame'.lines format) ++ (frame'.blank.cr ++ '\n' :: t') ∧ Normed s t' := by
  cases frame with
  | event e first second blank =>
      simp only [WireFrame.lines, unlines_cons, List.append_assoc, List.cons_append] at h
      obtain ⟨t₁, rfl, h₁⟩ := h.line (plain_eventLine e)
      obtain ⟨first', t₂, hfirst, rfl, h₂⟩ := h₁.ending
      obtain ⟨t₃, rfl, h₃⟩ := h₂.line (plain_dataLine format e)
      obtain ⟨second', t₄, hsecond, rfl, h₄⟩ := h₃.ending
      obtain ⟨blank', t', hblank, rfl, hs⟩ := Normed.ending h₄
      refine ⟨.event e first' second' blank', t', .event hfirst hsecond hblank, ?_, hs⟩
      simp [WireFrame.lines, WireFrame.blank, unlines]
  | other line lines blank =>
      obtain ⟨lines', t₁, hlength, rfl, h₁⟩ := Normed.silent h
      obtain ⟨blank', t', hblank, rfl, hs⟩ := Normed.ending h₁
      cases lines' with
      | nil => cases hlength
      | cons line' lines' =>
          exact ⟨.other line' lines' blank', t', .other hblank, rfl, hs⟩

/-- What the parser reads is the text of the frames with some of the line ends rewritten. -/
theorem normed_wire {frames : List WireFrame} {t : List Char} (h : Normed (wire format frames) t) :
    ∃ frames', Reduces frames frames' ∧ t = wire format frames' := by
  induction frames generalizing t with
  | nil =>
      cases h
      exact ⟨[], .nil, rfl⟩
  | cons frame frames ih =>
      rw [wire_cons] at h
      obtain ⟨frame', t', hframe, rfl, hs⟩ := h.frame
      obtain ⟨frames', hframes, rfl⟩ := ih hs
      exact ⟨frame' :: frames', .cons hframe hframes, (wire_cons format frame' frames').symm⟩

end normed

theorem Reduces.events {frames frames' : List WireFrame} (h : Reduces frames frames') :
    events frames' = events frames := by
  induction h with
  | nil => rfl
  | cons hframe _ ih =>
      cases hframe with
      | @event e => exact congrArg (e :: ·) ih
      | other => exact ih

/-! ## Groups of frames -/

/-- The frames that are read as one, and those that wait for a separator. -/
def grouped (waiting : List WireFrame) : List WireFrame → List (List WireFrame) × List WireFrame
  | [] => ([], waiting)
  | frame :: frames =>
      if frame.blank = .lf then
        let rest := grouped [] frames
        ((waiting ++ [frame]) :: rest.1, rest.2)
      else grouped (waiting ++ [frame]) frames

section groups

variable (format : FloatFormat)

/-- The lines of frames that no separator divides. -/
def openLines (frames : List WireFrame) : List (List Char) :=
  frames.flatMap fun f => f.lines format ++ [f.blank.cr]

/-- The frame that the parser sees, without the blank line that ends it. -/
def groupText (group : List WireFrame) : List Char := joinLines (openLines format group).dropLast

variable {format}

theorem WireFrame.lines_ne_nil (frame : WireFrame) : frame.lines format ≠ [] := by
  cases frame <;> simp [lines]

theorem Ending.newline_not_mem_cr (e : Ending) : '\n' ∉ e.cr := by
  cases e <;> simp [cr]

theorem newline_not_mem {line : List Char} (h : Plain line) (e : Ending) : '\n' ∉ line ++ e.cr := by
  intro hmem
  rcases List.mem_append.mp hmem with hline | hcr
  · exact (h _ hline).1 rfl
  · exact e.newline_not_mem_cr hcr

theorem WireFrame.lines_spec (frame : WireFrame) :
    ∀ line ∈ frame.lines format, line ≠ [] ∧ '\n' ∉ line := by
  cases frame with
  | event e first second blank =>
      intro line hline
      simp only [lines, List.mem_cons, List.not_mem_nil, or_false] at hline
      rcases hline with rfl | rfl
      · exact ⟨by simp [eventLine, eventPrefix], newline_not_mem (plain_eventLine e) first⟩
      · exact ⟨by simp [dataLine, dataPrefix], newline_not_mem (plain_dataLine format e) second⟩
  | other first lines blank =>
      intro line hline
      obtain ⟨l, -, rfl⟩ := List.mem_map.mp hline
      exact ⟨by simp [l.1.ne_nil], newline_not_mem l.1.plain l.2⟩

theorem openLines_spec {frames : List WireFrame} (h : ∀ f ∈ frames, f.blank = .crlf) :
    ∀ line ∈ openLines format frames, line ≠ [] ∧ '\n' ∉ line := by
  intro line hline
  obtain ⟨f, hf, hmem⟩ := List.mem_flatMap.mp hline
  rcases List.mem_append.mp hmem with hmem | hmem
  · exact f.lines_spec line hmem
  · rw [List.mem_singleton.mp hmem, h f hf]
    simp [Ending.cr]

theorem wire_eq_unlines (frames : List WireFrame) :
    wire format frames = unlines (openLines format frames) := by
  induction frames with
  | nil => rfl
  | cons frame frames ih =>
      show _ ++ wire format frames = unlines (_ ++ openLines format frames)
      rw [unlines_append, ih]

/-- The lines of a group: those before its last frame, and those of its last frame. -/
theorem dropLast_openLines (waiting : List WireFrame) (frame : WireFrame) :
    (openLines format (waiting ++ [frame])).dropLast =
      openLines format waiting ++ frame.lines format := by
  simp [openLines, ← List.append_assoc]

theorem splitFrames_waiting {waiting : List WireFrame} (hwaiting : ∀ f ∈ waiting, f.blank = .crlf)
    (frames : List WireFrame) :
    (splitFrames (wire format (waiting ++ frames))).1 =
      (grouped waiting frames).1.map (groupText format) := by
  induction frames generalizing waiting with
  | nil =>
      rw [List.append_nil, wire_eq_unlines]
      exact splitFrames_unlines (openLines_spec hwaiting)
  | cons frame frames ih =>
      have hassoc : waiting ++ frame :: frames = (waiting ++ [frame]) ++ frames := by simp
      by_cases hblank : frame.blank = .lf
      · -- The blank line ends the group: it is the first separator of the text.
        have hlines : openLines format waiting ++ frame.lines format ≠ [] := by
          simp [frame.lines_ne_nil]
        have hnone : (splitFrames (groupText format (waiting ++ [frame]) ++ ['\n'])).1 = [] := by
          rw [groupText, dropLast_openLines, ← unlines_eq_joinLines hlines]
          refine splitFrames_unlines fun line hline => ?_
          rcases List.mem_append.mp hline with hline | hline
          · exact openLines_spec hwaiting line hline
          · exact frame.lines_spec line hline
        have htext : wire format (waiting ++ frame :: frames) =
            groupText format (waiting ++ [frame]) ++ '\n' :: '\n' :: wire format frames := by
          rw [groupText, dropLast_openLines]
          calc wire format (waiting ++ frame :: frames)
              = unlines (openLines format waiting ++ frame.lines format) ++
                  ('\n' :: wire format frames) := by
                rw [wire, List.flatMap_append, List.flatMap_cons, hblank]
                rw [← wire, ← wire, wire_eq_unlines waiting]
                simp [unlines, Ending.cr]
            _ = _ := by
                rw [unlines_eq_joinLines hlines]
                simp
        rw [htext, splitFrames_close hnone]
        have hrest : (splitFrames (wire format frames)).1 = _ := @ih [] (by simp)
        simp only [grouped, if_pos hblank, List.map_cons, hrest]
      · rw [hassoc, ih]
        · simp only [grouped, if_neg hblank]
        · intro f hf
          rcases List.mem_append.mp hf with hf | hf
          · exact hwaiting f hf
          · rw [List.mem_singleton.mp hf]
            cases hending : frame.blank with
            | lf => exact absurd hending hblank
            | crlf => rfl

/-- The frames that the parser sees are the groups. -/
theorem splitFrames_wire (frames : List WireFrame) :
    (splitFrames (wire format frames)).1 = (grouped [] frames).1.map (groupText format) :=
  @splitFrames_waiting format [] (by simp) frames

end groups

end EnergyAgent.Stream
