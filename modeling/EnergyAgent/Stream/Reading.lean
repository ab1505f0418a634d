import EnergyAgent.Stream.Frames

/-!
# What the parser reads in a group of frames

A group without an event is skipped, a group with one event is that event, and a group with more is
no JSON text.
-/

namespace EnergyAgent.Stream

open EnergyAgent.Lib
open EnergyAgent.Agent

/-- JSON's own white space. -/
def jsonWhite (c : Char) : Bool := c = ' ' || c = '\t' || c = '\n' || c = '\r'

section reading

variable (parse : List Char → Option Json) (format : FloatFormat)

/-- `JSON.parse` on the object of an event: white space after it is skipped, and anything else is a
`SyntaxError`. -/
def ReadsAlone (event : Event) : Prop :=
  ∀ tail, parse (dumps format (.obj (sseData event)) ++ tail) =
    if tail.all jsonWhite then parse (dumps format (.obj (sseData event))) else none

/-- `JSON.parse` on the texts that begin with the object of one of the events. -/
def parseObjects (events : List Event) (text : List Char) : Option Json :=
  events.findSome? fun e =>
    let object := dumps format (.obj (sseData e))
    if object.isPrefixOf text && (text.drop object.length).all jsonWhite then
      some (.obj (sseData e))
    else none

/-- What becomes of an event that is read alone. -/
def readEvent (sequence : Int) (event : Event) : Except SSEError (DiagnosisEvent × Int) :=
  match parse (dumps format (.obj (sseData event))) with
  | none => .error .syntaxError
  | some payload => accept sequence event.event.value payload

def readEvents (sequence : Int) : List Event → Except SSEError (List DiagnosisEvent × Int)
  | [] => .ok ([], sequence)
  | event :: rest =>
      match readEvent parse format sequence event with
      | .error e => .error e
      | .ok (read, next) =>
          (readEvents next rest).map fun (events, last) => (read :: events, last)

/-! ## Lines -/

/-- What the lines of an event add. -/
def addData (fields : FrameFields) (data : Event × List Char) : FrameFields where
  event := data.1.event.value.toList
  data := fields.data ++ [dumps format (.obj (sseData data.1)) ++ data.2]

variable {parse format}

theorem readLine_eventLine (fields : FrameFields) (event : Event) (ending : Ending) :
    readLine fields (eventLine event ++ ending.cr) =
      { fields with event := event.event.value.toList } := by
  cases hevent : event.event <;> cases ending <;>
    simp [readLine, eventLine, hevent, SSEEventType.value, eventPrefix, dataPrefix, Ending.cr, trim,
      trimStart, isWhite]

theorem readLine_dataLine (fields : FrameFields) (event : Event) (ending : Ending) :
    readLine fields (dataLine format event ++ ending.cr) =
      { fields with
        data := fields.data ++ [dumps format (.obj (sseData event)) ++ ending.cr] } := by
  simp [readLine, dataLine, eventPrefix, dataPrefix, dumps, trimStart, isWhite]

theorem isPrefixOf_cr {pre line : List Char} (hpre : '\r' ∉ pre)
    (h : pre.isPrefixOf line = false) (ending : Ending) :
    pre.isPrefixOf (line ++ ending.cr) = false := by
  cases ending with
  | lf => simpa [Ending.cr] using h
  | crlf =>
      rw [Bool.eq_false_iff, ne_eq, List.isPrefixOf_iff_prefix] at h ⊢
      intro hstart
      rcases List.prefix_concat_iff.mp hstart with heq | hline
      · exact hpre (by simp [heq])
      · exact h hline

theorem readLine_silent (fields : FrameFields) (line : SilentLine) (ending : Ending) :
    readLine fields (line.text ++ ending.cr) = fields := by
  have hevent := isPrefixOf_cr (by decide) line.silent.1 ending
  have hdata := isPrefixOf_cr (by decide) line.silent.2 ending
  simp [readLine, hevent, hdata]

theorem readLine_blank (fields : FrameFields) (ending : Ending) :
    readLine fields ending.cr = fields := by
  cases ending <;> simp [readLine, Ending.cr, eventPrefix, dataPrefix]

/-- A frame adds its event, if it has one. -/
theorem readLines_frame (fields : FrameFields) (frame : WireFrame) :
    (frame.lines format).foldl readLine fields = frame.data?.toList.foldl (addData format) fields := by
  cases frame with
  | event e first second blank =>
      simp only [WireFrame.lines, WireFrame.data?, List.foldl_cons, List.foldl_nil,
        readLine_eventLine, readLine_dataLine]
      rfl
  | other line lines blank =>
      show ((line :: lines).map fun l => l.1.text ++ l.2.cr).foldl readLine fields = fields
      induction line :: lines with
      | nil => rfl
      | cons l ls ih => simp only [List.map_cons, List.foldl_cons, readLine_silent, ih]

theorem readLines_open (fields : FrameFields) (frames : List WireFrame) :
    (openLines format frames).foldl readLine fields =
      (frames.filterMap WireFrame.data?).foldl (addData format) fields := by
  induction frames generalizing fields with
  | nil => rfl
  | cons frame frames ih =>
      have hlines : openLines format (frame :: frames) =
          (frame.lines format ++ [frame.blank.cr]) ++ openLines format frames := rfl
      rw [hlines, List.foldl_append, List.foldl_append, readLines_frame, List.foldl_cons,
        List.foldl_nil, readLine_blank, ih]
      cases hdata : frame.data? with
      | none => simp [hdata]
      | some data => simp [hdata]

theorem foldl_addData (fields : FrameFields) (data : List (Event × List Char)) :
    (data.foldl (addData format) fields).data =
      fields.data ++ data.map fun d => dumps format (.obj (sseData d.1)) ++ d.2 := by
  induction data generalizing fields with
  | nil => simp
  | cons d data ih => simp [ih, addData]

theorem value_mem_diagnosisEvents (event : SSEEventType) : event.value ∈ diagnosisEvents := by
  cases event <;> simp [SSEEventType.value, diagnosisEvents]

theorem foldl_addData_event (fields : FrameFields) (d : Event × List Char)
    (data : List (Event × List Char)) :
    String.ofList ((d :: data).foldl (addData format) fields).event ∈ diagnosisEvents := by
  induction data generalizing d fields with
  | nil =>
      show String.ofList d.1.event.value.toList ∈ diagnosisEvents
      rw [String.ofList_toList]
      exact value_mem_diagnosisEvents _
  | cons d' data ih => exact ih _ d'

/-! ## Groups -/

/-- The groups end in a blank line that is empty. -/
theorem grouped_last {waiting frames : List WireFrame} :
    ∀ group ∈ (grouped waiting frames).1, ∃ init last, group = init ++ [last] ∧
      last.blank = .lf := by
  induction frames generalizing waiting with
  | nil => simp [grouped]
  | cons frame frames ih =>
      rw [grouped]
      split
      · next hblank =>
          intro group hgroup
          rcases List.mem_cons.mp hgroup with rfl | hgroup
          · exact ⟨waiting, frame, rfl, hblank⟩
          · exact ih group hgroup
      · exact ih

theorem readLines_group (init : List WireFrame) (last : WireFrame) :
    (splitLines (groupText format (init ++ [last]))).foldl readLine {} =
      ((init ++ [last]).filterMap WireFrame.data?).foldl (addData format) {} := by
  have hnewline : ∀ line ∈ openLines format init ++ last.lines format, '\n' ∉ line := by
    intro line hline
    rcases List.mem_append.mp hline with hline | hline
    · obtain ⟨f, -, hmem⟩ := List.mem_flatMap.mp hline
      rcases List.mem_append.mp hmem with hmem | hmem
      · exact (f.lines_spec line hmem).2
      · rw [List.mem_singleton.mp hmem]
        exact f.blank.newline_not_mem_cr
    · exact (last.lines_spec line hline).2
  rw [groupText, dropLast_openLines, splitLines_joinLines (by simp [last.lines_ne_nil]) hnewline,
    List.foldl_append, readLines_open, readLines_frame, List.filterMap_append, List.foldl_append]
  cases hdata : last.data? <;> simp [hdata]

section group

variable {sequence : Int} {init : List WireFrame} {last : WireFrame}

/-- A group without an event is skipped. -/
theorem readFrame_none (h : (init ++ [last]).filterMap WireFrame.data? = []) :
    readFrame parse sequence (groupText format (init ++ [last])) = .ok none := by
  simp only [readFrame, readLines_group, h]
  rfl

/-- A group with one event is that event. -/
theorem readFrame_one {event : Event} {cr : List Char}
    (h : (init ++ [last]).filterMap WireFrame.data? = [(event, cr)])
    (hparse : parse (dumps format (.obj (sseData event)) ++ cr) =
      parse (dumps format (.obj (sseData event)))) :
    readFrame parse sequence (groupText format (init ++ [last])) =
      (readEvent parse format sequence event).map some := by
  simp only [readFrame, readLines_group, h, List.foldl_cons, List.foldl_nil, addData,
    String.ofList_toList, List.nil_append, joinLines, hparse, readEvent]
  rw [if_neg (by simp [value_mem_diagnosisEvents])]
  cases parse (dumps format (.obj (sseData event))) <;> rfl

/-- A group with more events is no JSON text. -/
theorem readFrame_two {event : Event} {cr : List Char} {d : Event × List Char}
    {data : List (Event × List Char)}
    (h : (init ++ [last]).filterMap WireFrame.data? = (event, cr) :: d :: data)
    (hparse : ReadsAlone parse format event) :
    readFrame parse sequence (groupText format (init ++ [last])) = .error .syntaxError := by
  have hdata := @foldl_addData format {} ((event, cr) :: d :: data)
  have hevent := @foldl_addData_event format {} (event, cr) (d :: data)
  have hnone : ∃ tail, joinLines
      (((event, cr) :: d :: data).map fun d => dumps format (.obj (sseData d.1)) ++ d.2) =
        dumps format (.obj (sseData event)) ++ tail ∧ tail.all jsonWhite = false := by
    refine ⟨cr ++ '\n' :: joinLines
      ((d :: data).map fun d => dumps format (.obj (sseData d.1)) ++ d.2), by simp [joinLines], ?_⟩
    -- The second event begins with a brace.
    have hbrace : '{' ∈ joinLines
        ((d :: data).map fun d => dumps format (.obj (sseData d.1)) ++ d.2) := by
      cases data <;> simp [joinLines, dumps]
    rw [Bool.eq_false_iff]
    intro hall
    have hwhite := List.all_eq_true.mp hall '{'
      (List.mem_append_right _ (List.mem_cons_of_mem _ hbrace))
    exact absurd hwhite (by decide)
  obtain ⟨tail, hjoin, htail⟩ := hnone
  have hnone : parse (joinLines
      (((event, cr) :: d :: data).map fun d => dumps format (.obj (sseData d.1)) ++ d.2)) = none := by
    rw [hjoin, hparse, htail]
    rfl
  simp only [readFrame, readLines_group, h, hdata]
  rw [if_neg]
  · simp only [List.nil_append, hnone]
  · rintro (hempty | hunknown)
    · simp at hempty
    · exact hunknown hevent

end group

/-- The parser of the objects reads the first of them wherever it stands. -/
theorem parseObjects_first (event : Event) (events : List Event) {tail : List Char}
    (htail : tail.all jsonWhite = true) :
    parseObjects format (event :: events) (dumps format (.obj (sseData event)) ++ tail) =
      some (.obj (sseData event)) := by
  simp only [parseObjects, List.findSome?_cons, List.drop_left, htail]
  simp

theorem parseObjects_next {event : Event} {text : List Char} (events : List Event)
    (h : (dumps format (.obj (sseData event))).isPrefixOf text = false) :
    parseObjects format (event :: events) text = parseObjects format events text := by
  simp only [parseObjects, List.findSome?_cons, h]
  simp

theorem readsAlone_parseObjects (event : Event) :
    ReadsAlone (parseObjects format [event]) format event := by
  intro tail
  have hself : parseObjects format [event] (dumps format (.obj (sseData event))) =
      some (.obj (sseData event)) := by
    simpa using @parseObjects_first format event [] [] rfl
  rw [hself]
  cases htail : tail.all jsonWhite with
  | true => exact parseObjects_first event [] htail
  | false =>
      simp only [parseObjects, List.findSome?_cons, List.drop_left, htail]
      simp

/-! ## Events one by one -/

/-- Between two events, and behind the last one, a blank line ends in `\n`; `waiting` counts the
events since such a line. -/
def Separated (waiting : Nat) : List WireFrame → Prop
  | [] => waiting = 0
  | frame :: frames =>
      let here := waiting + frame.data?.toList.length
      here ≤ 1 ∧ Separated (if frame.blank = .lf then 0 else here) frames

theorem Separated.le_one {waiting : Nat} {frames : List WireFrame} (h : Separated waiting frames) :
    waiting ≤ 1 := by
  cases frames with
  | nil => exact le_of_eq_of_le h (Nat.zero_le 1)
  | cons frame frames => exact (Nat.le_add_right _ _).trans h.1

theorem events_append (frames frames' : List WireFrame) :
    events (frames ++ frames') = events frames ++ events frames' := by
  simp [events]

theorem length_filterMap_concat (waiting : List WireFrame) (frame : WireFrame) :
    ((waiting ++ [frame]).filterMap WireFrame.data?).length =
      (waiting.filterMap WireFrame.data?).length + frame.data?.toList.length := by
  cases hdata : frame.data? <;> simp [hdata]

theorem readFrames_waiting {sequence : Int} {waiting frames : List WireFrame}
    (h : Separated (waiting.filterMap WireFrame.data?).length frames)
    (hparse : ∀ d ∈ (waiting ++ frames).filterMap WireFrame.data?,
      parse (dumps format (.obj (sseData d.1)) ++ d.2) =
        parse (dumps format (.obj (sseData d.1)))) :
    readFrames parse sequence ((grouped waiting frames).1.map (groupText format)) =
      readEvents parse format sequence (events (waiting ++ frames)) := by
  induction frames generalizing waiting sequence with
  | nil =>
      have hnone : waiting.filterMap WireFrame.data? = [] := List.eq_nil_of_length_eq_zero h
      simp [grouped, events, hnone, readFrames, readEvents]
  | cons frame frames ih =>
      obtain ⟨hone, hrest⟩ := h
      have hassoc : waiting ++ frame :: frames = (waiting ++ [frame]) ++ frames := by simp
      rw [← length_filterMap_concat] at hone hrest
      rw [hassoc] at hparse ⊢
      by_cases hblank : frame.blank = .lf
      · have hgroups : (grouped waiting (frame :: frames)).1 =
            (waiting ++ [frame]) :: (grouped [] frames).1 := by simp only [grouped, if_pos hblank]
        rw [if_pos hblank] at hrest
        have hframes := fun sequence => @ih sequence [] hrest fun d hd => hparse d (by
          rw [List.filterMap_append]
          exact List.mem_append_right _ hd)
        rw [hgroups, List.map_cons, events_append, readFrames]
        cases hdata : (waiting ++ [frame]).filterMap WireFrame.data? with
        | nil =>
            have hnone : events (waiting ++ [frame]) = [] := by simp only [events, hdata, List.map_nil]
            rw [readFrame_none hdata, hnone]
            exact hframes sequence
        | cons d data =>
            have hnil : data = [] := by
              rw [hdata, List.length_cons] at hone
              exact List.eq_nil_of_length_eq_zero (by omega)
            subst hnil
            obtain ⟨event, cr⟩ := d
            have hsome : events (waiting ++ [frame]) = [event] := by
              simp only [events, hdata, List.map_cons, List.map_nil]
            have hevent := hparse (event, cr) (by
              rw [List.filterMap_append, hdata]
              simp)
            rw [readFrame_one hdata hevent, hsome, List.singleton_append, readEvents]
            cases readEvent parse format sequence event with
            | error e => rfl
            | ok read =>
                show (readFrames parse read.2 _).map _ = _
                rw [hframes]
                rfl
      · have hgroups : (grouped waiting (frame :: frames)).1 =
            (grouped (waiting ++ [frame]) frames).1 := by simp only [grouped, if_neg hblank]
        rw [if_neg hblank] at hrest
        rw [hgroups]
        exact ih hrest hparse

/-- Frames that are separated are read event by event. -/
theorem readFrames_grouped {frames : List WireFrame} (h : Separated 0 frames)
    (hparse : ∀ d ∈ frames.filterMap WireFrame.data?,
      parse (dumps format (.obj (sseData d.1)) ++ d.2) = parse (dumps format (.obj (sseData d.1))))
    (sequence : Int) :
    readFrames parse sequence ((grouped [] frames).1.map (groupText format)) =
      readEvents parse format sequence (events frames) :=
  @readFrames_waiting parse format sequence [] frames h hparse

end reading

end EnergyAgent.Stream
