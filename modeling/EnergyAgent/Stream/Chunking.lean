import EnergyAgent.Stream.Reading

/-!
# What a border of chunks changes

`push` rewrites `\r\n` chunk by chunk. A border that divides the end of a blank line keeps the
frame before it from being closed, and the events behind it are read together with that frame.
And when an event is refused, the events that came with it in one chunk are lost with it.
-/

namespace EnergyAgent.Stream

open EnergyAgent.Lib

section chunking

variable (parse : List Char → Option Json) (format : FloatFormat)

/-- The number that an event bears for the parser. -/
def number (event : Event) : Option Int :=
  match parse (dumps format (.obj (sseData event))) with
  | some (.obj payload) => integer? (Json.field payload "event_sequence")
  | _ => none

/-- Each event bears a number above the one before it. -/
def Increasing (sequence : Int) : List Event → Prop
  | [] => True
  | event :: rest => ∃ n, number parse format event = some n ∧ sequence < n ∧ Increasing n rest

/-- A blank line that ends in `\n` comes after the first event. -/
def FirstCloses : List WireFrame → Prop
  | [] => False
  | frame :: frames =>
      if frame.data?.isSome then ∃ f ∈ frame :: frames, f.blank = .lf else FirstCloses frames

/-- The first event is refused, and it is read. -/
def RefusedFirst (frames : List WireFrame) : Prop :=
  (∃ event, (events frames).head? = some event ∧
    ∀ n, number parse format event = some n → n ≤ 0) ∧ FirstCloses frames

/-- The texts that are read in one way however they are cut. -/
def Steady (frames : List WireFrame) : Prop :=
  (Increasing parse format 0 (events frames) ∧ Separated 0 frames) ∨
    RefusedFirst parse format frames

/-- The same events, and an exception in both or in neither. -/
def Agree (r r' : List DiagnosisEvent × Option SSEError) : Prop :=
  r.1 = r'.1 ∧ r.2.isSome = r'.2.isSome

variable {parse format}

/-! ## Event by event -/

theorem readEvent_ok {sequence n : Int} {event : Event} {read : DiagnosisEvent}
    (h : readEvent parse format sequence event = .ok (read, n)) :
    number parse format event = some n ∧ sequence < n := by
  unfold readEvent at h
  unfold number
  cases hparse : parse (dumps format (.obj (sseData event))) with
  | none => simp [hparse] at h
  | some payload =>
      simp only [hparse] at h
      cases payload with
      | obj fields =>
          simp only [accept] at h
          cases hnumber : integer? (Json.field fields "event_sequence") with
          | none => simp [hnumber] at h
          | some m =>
              simp only [hnumber] at h
              split at h
              · cases h
              · next hlt =>
                  cases h
                  exact ⟨hnumber, Int.not_le.mp hlt⟩
      | _ => cases h

theorem readEvent_of_number {sequence n : Int} {event : Event}
    (hnumber : number parse format event = some n) (hlt : sequence < n) :
    ∃ read, readEvent parse format sequence event = .ok (read, n) := by
  unfold number at hnumber
  split at hnumber
  · next fields hparse =>
      exact ⟨spread event.event.value fields, by
        simp only [readEvent, hparse, accept, hnumber, if_neg (Int.not_le.mpr hlt)]⟩
  · cases hnumber

theorem readEvents_of_increasing {sequence : Int} {es : List Event}
    (h : Increasing parse format sequence es) :
    ∃ read, readEvents parse format sequence es = .ok read := by
  induction es generalizing sequence with
  | nil => exact ⟨_, rfl⟩
  | cons event rest ih =>
      obtain ⟨n, hnumber, hlt, hrest⟩ := h
      obtain ⟨read, hread⟩ := readEvent_of_number hnumber hlt
      obtain ⟨more, hmore⟩ := ih hrest
      exact ⟨(read :: more.1, more.2), by simp only [readEvents, hread, hmore]; rfl⟩

theorem increasing_of_readEvents {sequence last : Int} {es : List Event}
    {read : List DiagnosisEvent} (h : readEvents parse format sequence es = .ok (read, last)) :
    Increasing parse format sequence es ∧ read.length = es.length := by
  induction es generalizing sequence read with
  | nil =>
      cases h
      exact ⟨trivial, rfl⟩
  | cons event rest ih =>
      rw [readEvents] at h
      cases hevent : readEvent parse format sequence event with
      | error e => simp [hevent] at h
      | ok result =>
          obtain ⟨first, n⟩ := result
          simp only [hevent] at h
          obtain ⟨more, hmore, heq⟩ := Prog.except_map_eq_ok h
          cases heq
          obtain ⟨hnumber, hlt⟩ := readEvent_ok hevent
          obtain ⟨hincreasing, hlength⟩ := ih hmore
          exact ⟨⟨n, hnumber, hlt, hincreasing⟩, congrArg (· + 1) hlength⟩

theorem ReadsAlone.cr {event : Event} (h : ReadsAlone parse format event) (ending : Ending) :
    parse (dumps format (.obj (sseData event)) ++ ending.cr) =
      parse (dumps format (.obj (sseData event))) := by
  rw [h]
  cases ending <;> rfl

theorem readsAlone_data {frames : List WireFrame}
    (h : ∀ e ∈ events frames, ReadsAlone parse format e) :
    ∀ d ∈ frames.filterMap WireFrame.data?,
      parse (dumps format (.obj (sseData d.1)) ++ d.2) =
        parse (dumps format (.obj (sseData d.1))) := by
  intro d hd
  have hevent := h d.1 (List.mem_map_of_mem hd)
  obtain ⟨frame, -, hdata⟩ := List.mem_filterMap.mp hd
  cases frame with
  | event e first second blank =>
      cases hdata
      exact hevent.cr second
  | other => cases hdata

/-! ## The whole text in one chunk -/

def WireFrame.rewritten : WireFrame → WireFrame
  | .event e _ _ _ => .event e .lf .lf .lf
  | .other line lines _ => .other (line.1, .lf) (lines.map fun l => (l.1, .lf)) .lf

theorem normalise_line {line : List Char} (h : Plain line) (text : List Char) :
    normalise (line ++ text) = line ++ normalise text := by
  induction line with
  | nil => rfl
  | cons c line ih =>
      obtain ⟨⟨-, hc⟩, hline⟩ := plain_cons.mp h
      rw [List.cons_append, normalise, ih hline]
      · rfl
      · exact fun _ heq => absurd heq hc

theorem normalise_ending (ending : Ending) (text : List Char) :
    normalise (ending.cr ++ '\n' :: text) = '\n' :: normalise text := by
  cases ending with
  | lf =>
      rw [Ending.cr, List.nil_append, normalise]
      exact fun _ heq => absurd heq (by decide)
  | crlf => rfl

theorem normalise_silent (lines : List (SilentLine × Ending)) (text : List Char) :
    normalise (unlines (lines.map fun l => l.1.text ++ l.2.cr) ++ text) =
      unlines (lines.map fun l => l.1.text) ++ normalise text := by
  induction lines with
  | nil => rfl
  | cons l lines ih =>
      simp only [List.map_cons, unlines_cons, List.append_assoc, List.cons_append,
        normalise_line l.1.plain, normalise_ending, ih]

theorem cr_lf : Ending.lf.cr = [] := rfl

/-- One chunk has all its line ends rewritten. -/
theorem normalise_wire (frames : List WireFrame) :
    normalise (wire format frames) = wire format (frames.map WireFrame.rewritten) := by
  induction frames with
  | nil => rfl
  | cons frame frames ih =>
      rw [List.map_cons, wire_cons, wire_cons]
      cases frame with
      | event e first second blank =>
          simp only [WireFrame.lines, WireFrame.blank, WireFrame.rewritten, unlines_cons,
            List.append_assoc, List.cons_append, normalise_line (plain_eventLine e), cr_lf,
            normalise_line (plain_dataLine format e), normalise_ending, List.nil_append]
          rw [unlines, List.flatMap_nil, List.nil_append, List.nil_append, normalise_ending, ih]
      | other line lines blank =>
          show normalise (unlines ((line :: lines).map fun l => l.1.text ++ l.2.cr) ++ _) = _
          rw [normalise_silent, WireFrame.blank, normalise_ending, ih]
          simp [WireFrame.lines, WireFrame.rewritten, WireFrame.blank, cr_lf, Function.comp_def]

theorem filterMap_rewritten (frames : List WireFrame) :
    (frames.map WireFrame.rewritten).filterMap WireFrame.data? =
      (events frames).map fun e => (e, []) := by
  induction frames with
  | nil => rfl
  | cons frame frames ih =>
      cases frame with
      | event e first second blank => exact congrArg ((e, []) :: ·) ih
      | other line lines blank => exact ih

theorem separated_rewritten (frames : List WireFrame) :
    Separated 0 (frames.map WireFrame.rewritten) := by
  induction frames with
  | nil => rfl
  | cons frame frames ih =>
      cases frame with
      | event e first second blank => exact ⟨le_refl 1, ih⟩
      | other line lines blank => exact ⟨Nat.zero_le 1, ih⟩

theorem readFrames_normalise (sequence : Int) (frames : List WireFrame) :
    readFrames parse sequence (splitFrames (normalise (wire format frames))).1 =
      readEvents parse format sequence (events frames) := by
  rw [normalise_wire, splitFrames_wire, readFrames_grouped (separated_rewritten frames)]
  · rw [events, filterMap_rewritten, List.map_map]
    exact congrArg _ (List.map_id (events frames))
  · intro d hd
    rw [filterMap_rewritten] at hd
    obtain ⟨e, -, rfl⟩ := List.mem_map.mp hd
    rw [List.append_nil]

/-- The text in one chunk: its events, or nothing. -/
theorem pushAll_whole (frames : List WireFrame) :
    SSEParser.pushAll parse {} [wire format frames] =
      match readEvents parse format 0 (events frames) with
      | .error e => ([], some e)
      | .ok read => (read.1, none) := by
  rw [pushAll_eq_readBatches]
  simp only [complete, List.nil_append, readBatches, readFrames_normalise]
  cases readEvents parse format 0 (events frames) <;> simp

/-! ## A border behind every character -/

theorem flatMap_normalise_singletons (text : List Char) :
    (text.map fun c => [c]).flatMap normalise = text := by
  induction text with
  | nil => rfl
  | cons c text ih =>
      have hone : normalise [c] = [c] := by
        rw [normalise]
        · rfl
        · exact fun _ _ h => absurd h (List.cons_ne_nil _ _).symm
      rw [List.map_cons, List.flatMap_cons, ih, hone]
      rfl

theorem complete_singletons (frames : List WireFrame) :
    (complete [] ((wire format frames).map fun c => [c])).1.flatten =
      (grouped [] frames).1.map (groupText format) := by
  rw [complete_flatten rfl, List.nil_append, flatMap_normalise_singletons, splitFrames_wire]

/-! ## Steady texts -/

theorem Separated.reduces {frames frames' : List WireFrame} (h : Reduces frames frames')
    {waiting waiting' : Nat} (hle : waiting' ≤ waiting) (hsep : Separated waiting frames) :
    Separated waiting' frames' := by
  induction h generalizing waiting waiting' with
  | nil =>
      have hzero : waiting = 0 := hsep
      exact Nat.le_zero.mp (hzero ▸ hle)
  | @cons frame frame' frames frames' hframe _ ih =>
      obtain ⟨hone, hrest⟩ := hsep
      have hdata : frame'.data?.toList.length = frame.data?.toList.length := by
        cases hframe <;> rfl
      have hblank : frame.blank.Reduces frame'.blank := by
        cases hframe <;> assumption
      refine ⟨by omega, ih ?_ hrest⟩
      rcases hblank with heq | hlf
      · rw [heq]
        split <;> omega
      · rw [if_pos hlf]
        exact Nat.zero_le _

theorem FirstCloses.reduces {frames frames' : List WireFrame} (h : Reduces frames frames')
    (hcloses : FirstCloses frames) : FirstCloses frames' := by
  induction h with
  | nil => exact hcloses
  | @cons frame frame' frames frames' hframe hframes ih =>
      have hdata : frame'.data?.isSome = frame.data?.isSome := by cases hframe <;> rfl
      have hmem : ∀ {fs fs' : List WireFrame}, Reduces fs fs' → (∃ f ∈ fs, f.blank = .lf) →
          ∃ f ∈ fs', f.blank = .lf := by
        intro fs fs' hfs
        induction hfs with
        | nil => exact id
        | @cons f f' fs fs' hf _ ih =>
            have hending : f.blank.Reduces f'.blank := by cases hf <;> assumption
            rintro ⟨g, hg, hblank⟩
            rcases List.mem_cons.mp hg with rfl | hg
            · exact ⟨f', List.mem_cons_self .., hending.elim (fun heq => heq.trans hblank) id⟩
            · obtain ⟨g', hg', hblank'⟩ := ih ⟨g, hg, hblank⟩
              exact ⟨g', List.mem_cons_of_mem _ hg', hblank'⟩
      rw [FirstCloses] at hcloses ⊢
      rw [hdata]
      split at hcloses
      · next hevent =>
          rw [if_pos hevent]
          exact hmem (.cons hframe hframes) hcloses
      · next hevent =>
          rw [if_neg hevent]
          exact ih hcloses

/-- What the parser reads in the text of the frames, however it is cut. -/
theorem complete_wire {frames : List WireFrame} {chunks : List (List Char)}
    (h : chunks.flatten = wire format frames) : ∃ frames', Reduces frames frames' ∧
      (complete [] chunks).1.flatten = (grouped [] frames').1.map (groupText format) := by
  have hnormed := normed_chunks chunks
  rw [h] at hnormed
  obtain ⟨frames', hreduces, htext⟩ := normed_wire hnormed
  refine ⟨frames', hreduces, ?_⟩
  rw [complete_flatten rfl, List.nil_append, htext, splitFrames_wire]

theorem pushAll_of_separated {frames : List WireFrame} {chunks : List (List Char)}
    {read : List DiagnosisEvent × Int} (hchunks : chunks.flatten = wire format frames)
    (hparse : ∀ e ∈ events frames, ReadsAlone parse format e) (hsep : Separated 0 frames)
    (hread : readEvents parse format 0 (events frames) = .ok read) :
    SSEParser.pushAll parse {} chunks = (read.1, none) := by
  obtain ⟨frames', hreduces, htext⟩ := complete_wire hchunks
  have hframes : readFrames parse 0 (complete [] chunks).1.flatten = .ok (read.1, read.2) := by
    rw [htext, readFrames_grouped (hsep.reduces hreduces (le_refl 0)), hreduces.events]
    · exact hread
    · rw [← hreduces.events] at hparse
      exact readsAlone_data hparse
  rw [pushAll_eq_readBatches]
  exact readBatches_ok hframes

/-! ## A first event that is refused -/

theorem closes_later {frame : WireFrame} {frames : List WireFrame} (hblank : ¬ frame.blank = .lf)
    (h : ∃ f ∈ frame :: frames, f.blank = .lf) : ∃ f ∈ frames, f.blank = .lf := by
  obtain ⟨f, hf, hlf⟩ := h
  rcases List.mem_cons.mp hf with rfl | hf
  · exact absurd hlf hblank
  · exact ⟨f, hf, hlf⟩

theorem readEvent_of_refused {sequence : Int} {event : Event}
    (h : ∀ n, number parse format event = some n → n ≤ sequence) :
    ∃ e, readEvent parse format sequence event = .error e := by
  cases hread : readEvent parse format sequence event with
  | error e => exact ⟨e, rfl⟩
  | ok read =>
      obtain ⟨hnumber, hlt⟩ := readEvent_ok hread
      exact absurd (h _ hnumber) (Int.not_le.mpr hlt)

theorem readFrame_refused {sequence : Int} {init : List WireFrame} {last : WireFrame}
    {event : Event} {cr : List Char} {data : List (Event × List Char)}
    (h : (init ++ [last]).filterMap WireFrame.data? = (event, cr) :: data)
    (hparse : ∀ e ∈ events (init ++ [last]), ReadsAlone parse format e)
    (hrefused : ∀ n, number parse format event = some n → n ≤ sequence) :
    ∃ e, readFrame parse sequence (groupText format (init ++ [last])) = .error e := by
  have hevent : event ∈ events (init ++ [last]) := by simp only [events, h, List.map_cons,
    List.mem_cons, true_or]
  cases data with
  | nil =>
      have hcr := readsAlone_data hparse (event, cr) (by rw [h]; exact List.mem_singleton_self _)
      obtain ⟨e, he⟩ := readEvent_of_refused hrefused
      exact ⟨e, by rw [readFrame_one h hcr, he]; rfl⟩
  | cons d data => exact ⟨_, readFrame_two h (hparse event hevent)⟩

/-- A group that has begun with a refused event is the next one that is read. -/
theorem grouped_refused {sequence : Int} {waiting frames : List WireFrame} {event : Event}
    {cr : List Char} {data : List (Event × List Char)}
    (h : waiting.filterMap WireFrame.data? = (event, cr) :: data)
    (hparse : ∀ e ∈ events (waiting ++ frames), ReadsAlone parse format e)
    (hrefused : ∀ n, number parse format event = some n → n ≤ sequence)
    (hcloses : ∃ f ∈ frames, f.blank = .lf) : ∃ group rest e,
      (grouped waiting frames).1 = group :: rest ∧
      readFrame parse sequence (groupText format group) = .error e := by
  induction frames generalizing waiting data with
  | nil =>
      obtain ⟨f, hf, -⟩ := hcloses
      exact absurd hf List.not_mem_nil
  | cons frame frames ih =>
      have hdata : (waiting ++ [frame]).filterMap WireFrame.data? =
          (event, cr) :: (data ++ frame.data?.toList) := by
        rw [List.filterMap_append, h]
        cases hframe : frame.data? <;> simp [hframe]
      rw [List.append_cons] at hparse
      by_cases hblank : frame.blank = .lf
      · obtain ⟨e, he⟩ := readFrame_refused hdata
          (fun e he => hparse e (by rw [events_append]; exact List.mem_append_left _ he)) hrefused
        exact ⟨_, _, e, by simp only [grouped, if_pos hblank]; rfl, he⟩
      · obtain ⟨group, rest, e, hgroups, he⟩ := ih hdata hparse (closes_later hblank hcloses)
        exact ⟨group, rest, e, by simp only [grouped, if_neg hblank, hgroups], he⟩

/-- The groups before the first event are skipped, and the one with it is refused. -/
theorem grouped_refusedFirst {sequence : Int} {waiting frames : List WireFrame} {event : Event}
    (hnone : waiting.filterMap WireFrame.data? = [])
    (hparse : ∀ e ∈ events frames, ReadsAlone parse format e)
    (hfirst : (events frames).head? = some event)
    (hrefused : ∀ n, number parse format event = some n → n ≤ sequence)
    (hcloses : FirstCloses frames) : ∃ skipped group rest e,
      (grouped waiting frames).1 = skipped ++ group :: rest ∧
      (∀ g ∈ skipped, readFrame parse sequence (groupText format g) = .ok none) ∧
      readFrame parse sequence (groupText format group) = .error e := by
  induction frames generalizing waiting with
  | nil => exact absurd hcloses id
  | cons frame frames ih =>
      cases hdata : frame.data? with
      | some d =>
          rw [FirstCloses, if_pos (by rw [hdata]; rfl)] at hcloses
          have hevents : events (frame :: frames) = d.1 :: events frames := by
            simp [events, hdata]
          rw [hevents] at hfirst
          cases hfirst
          have hall : ∀ e ∈ events (waiting ++ frame :: frames), ReadsAlone parse format e := by
            rw [events_append, show events waiting = [] by simp [events, hnone]]
            exact hparse
          have hwaiting : (waiting ++ [frame]).filterMap WireFrame.data? = [d] := by
            simp [hnone, hdata]
          by_cases hblank : frame.blank = .lf
          · obtain ⟨e, he⟩ := readFrame_refused hwaiting (fun e he => hall e (by
              rw [List.append_cons, events_append]
              exact List.mem_append_left _ he)) hrefused
            exact ⟨[], _, _, e, by simp only [grouped, if_pos hblank]; rfl, by simp, he⟩
          · rw [List.append_cons] at hall
            obtain ⟨group, rest, e, hgroups, he⟩ :=
              grouped_refused hwaiting hall hrefused (closes_later hblank hcloses)
            exact ⟨[], group, rest, e, by simp only [grouped, if_neg hblank, hgroups]; rfl, by simp,
              he⟩
      | none =>
          rw [FirstCloses, if_neg (by simp [hdata])] at hcloses
          have hevents : events (frame :: frames) = events frames := by simp [events, hdata]
          rw [hevents] at hparse hfirst
          have hwaiting : (waiting ++ [frame]).filterMap WireFrame.data? = [] := by
            simp [hnone, hdata]
          by_cases hblank : frame.blank = .lf
          · obtain ⟨skipped, group, rest, e, hgroups, hskipped, he⟩ :=
              @ih [] rfl hparse hfirst hcloses
            refine ⟨(waiting ++ [frame]) :: skipped, group, rest, e, ?_, ?_, he⟩
            · simp only [grouped, if_pos hblank, hgroups, List.cons_append]
            · intro g hg
              rcases List.mem_cons.mp hg with rfl | hg
              · exact readFrame_none hwaiting
              · exact hskipped g hg
          · obtain ⟨skipped, group, rest, e, hgroups, hskipped, he⟩ :=
              ih hwaiting hparse hfirst hcloses
            exact ⟨skipped, group, rest, e, by simp only [grouped, if_neg hblank, hgroups],
              hskipped, he⟩

theorem pushAll_of_refused {frames : List WireFrame} {chunks : List (List Char)}
    (hchunks : chunks.flatten = wire format frames)
    (hparse : ∀ e ∈ events frames, ReadsAlone parse format e)
    (hrefused : RefusedFirst parse format frames) :
    ∃ e, SSEParser.pushAll parse {} chunks = ([], some e) := by
  obtain ⟨⟨event, hfirst, hnumber⟩, hcloses⟩ := hrefused
  obtain ⟨frames', hreduces, htext⟩ := complete_wire hchunks
  rw [← hreduces.events] at hparse hfirst
  obtain ⟨skipped, group, rest, e, hgroups, hskipped, he⟩ :=
    @grouped_refusedFirst parse format 0 [] frames' event rfl hparse hfirst hnumber
      (hcloses.reduces hreduces)
  rw [hgroups, List.map_append, List.map_cons] at htext
  refine ⟨e, ?_⟩
  rw [pushAll_eq_readBatches]
  refine readBatches_skipped ?_ he htext
  intro text htext
  obtain ⟨g, hg, rfl⟩ := List.mem_map.mp htext
  exact hskipped g hg

/-! ## Texts that are not steady -/

theorem grouped_never {waiting frames : List WireFrame} (h : ¬ ∃ f ∈ frames, f.blank = .lf) :
    (grouped waiting frames).1 = [] := by
  induction frames generalizing waiting with
  | nil => rfl
  | cons frame frames ih =>
      have hblank : ¬ frame.blank = .lf := fun hlf => h ⟨frame, List.mem_cons_self .., hlf⟩
      simp only [grouped, if_neg hblank]
      refine ih ?_
      rintro ⟨f, hf, hlf⟩
      exact h ⟨f, List.mem_cons_of_mem _ hf, hlf⟩

/-- Where the first event is not closed, nothing is read. -/
theorem readFrames_never {sequence : Int} {waiting frames : List WireFrame}
    (hnone : waiting.filterMap WireFrame.data? = []) (h : ¬ FirstCloses frames) :
    readFrames parse sequence ((grouped waiting frames).1.map (groupText format)) =
      .ok ([], sequence) := by
  induction frames generalizing waiting with
  | nil => rfl
  | cons frame frames ih =>
      rw [FirstCloses] at h
      split at h
      · rw [grouped_never h]
        rfl
      · next hdata =>
          have hwaiting : (waiting ++ [frame]).filterMap WireFrame.data? = [] := by
            rw [List.filterMap_append, hnone, List.nil_append]
            simpa using hdata
          by_cases hblank : frame.blank = .lf
          · simp only [grouped, if_pos hblank, List.map_cons, readFrames, readFrame_none hwaiting]
            exact ih rfl h
          · simp only [grouped, if_neg hblank]
            exact ih hwaiting h

/-- Frames in which every event is read are separated. -/
theorem separated_of_readFrames {sequence last : Int} {waiting frames : List WireFrame}
    {read : List DiagnosisEvent}
    (hparse : ∀ e ∈ events (waiting ++ frames), ReadsAlone parse format e)
    (hread : readFrames parse sequence ((grouped waiting frames).1.map (groupText format)) =
      .ok (read, last))
    (hall : read.length = (events (waiting ++ frames)).length) :
    Separated (waiting.filterMap WireFrame.data?).length frames := by
  induction frames generalizing waiting sequence read with
  | nil =>
      cases hread
      rw [List.append_nil] at hall
      simpa [Separated, events] using hall.symm
  | cons frame frames ih =>
      rw [List.append_cons] at hparse hall
      show _ ≤ 1 ∧ Separated _ frames
      rw [← length_filterMap_concat]
      by_cases hblank : frame.blank = .lf
      · rw [if_pos hblank]
        simp only [grouped, if_pos hblank, List.map_cons, readFrames] at hread
        have hlater : ∀ e ∈ events frames, ReadsAlone parse format e := fun e he =>
          hparse e (by rw [events_append]; exact List.mem_append_right _ he)
        rw [events_append, List.length_append] at hall
        cases hdata : (waiting ++ [frame]).filterMap WireFrame.data? with
        | nil =>
            rw [readFrame_none hdata] at hread
            have hnone : events (waiting ++ [frame]) = [] := by simp only [events, hdata, List.map_nil]
            rw [hnone, List.length_nil, Nat.zero_add] at hall
            exact ⟨Nat.zero_le 1, @ih sequence [] read hlater hread hall⟩
        | cons d data =>
            obtain ⟨event, cr⟩ := d
            cases data with
            | nil =>
                have hsome : events (waiting ++ [frame]) = [event] := by
                  simp only [events, hdata, List.map_cons, List.map_nil]
                have hcr := @readsAlone_data parse format (waiting ++ [frame])
                  (fun e he => hparse e (by rw [events_append]; exact List.mem_append_left _ he))
                  (event, cr) (by rw [hdata]; exact List.mem_singleton_self _)
                rw [readFrame_one hdata hcr] at hread
                cases hevent : readEvent parse format sequence event with
                | error e => simp [hevent, Except.map] at hread
                | ok result =>
                    simp only [hevent, Except.map] at hread
                    obtain ⟨more, hmore, heq⟩ := Prog.except_map_eq_ok hread
                    cases heq
                    rw [hsome, List.length_singleton, List.length_cons, Nat.add_comm 1] at hall
                    exact ⟨le_refl 1, @ih result.2 [] more.1 hlater hmore (Nat.succ.inj hall)⟩
            | cons d data =>
                have hevent : event ∈ events (waiting ++ [frame] ++ frames) := by
                  rw [events_append]
                  refine List.mem_append_left _ ?_
                  simp only [events, hdata, List.map_cons, List.mem_cons, true_or]
                rw [readFrame_two hdata (hparse event hevent)] at hread
                cases hread
      · rw [if_neg hblank]
        simp only [grouped, if_neg hblank] at hread
        have hsep := ih hparse hread hall
        exact ⟨hsep.le_one, hsep⟩

theorem exists_firstEvent {frames : List WireFrame} {event : Event} {es : List Event}
    (h : events frames = event :: es) : ∃ before after, frames = before ++ after ∧
      events before = [event] := by
  induction frames with
  | nil => cases h
  | cons frame frames ih =>
      cases hdata : frame.data? with
      | some d =>
          have hevents : events (frame :: frames) = d.1 :: events frames := by simp [events, hdata]
          rw [hevents] at h
          cases h
          exact ⟨[frame], frames, rfl, by simp [events, hdata]⟩
      | none =>
          have hevents : events (frame :: frames) = events frames := by simp [events, hdata]
          rw [hevents] at h
          obtain ⟨before, after, rfl, hbefore⟩ := ih h
          exact ⟨frame :: before, after, rfl, by simpa [events, hdata] using hbefore⟩

theorem wire_append (frames frames' : List WireFrame) :
    wire format (frames ++ frames') = wire format frames ++ wire format frames' :=
  List.flatMap_append

/-- A border behind the first event hands it over. -/
theorem pushAll_first {before after : List WireFrame} {event : Event} {n : Int}
    {read : DiagnosisEvent} (hbefore : events before = [event])
    (hread : readEvent parse format 0 event = .ok (read, n)) :
    (SSEParser.pushAll parse {} [wire format before, wire format after]).1 ≠ [] := by
  rw [pushAll_eq_readBatches]
  simp only [complete, List.nil_append, readBatches, readFrames_normalise, hbefore, readEvents,
    hread, Except.map]
  simp

/-- A text is read in one way, however it is cut, exactly when it is steady. -/
theorem chunking_agrees_iff {frames : List WireFrame}
    (hparse : ∀ e ∈ events frames, ReadsAlone parse format e) :
    (∀ chunks chunks' : List (List Char), chunks.flatten = wire format frames →
      chunks'.flatten = wire format frames →
      Agree (SSEParser.pushAll parse {} chunks) (SSEParser.pushAll parse {} chunks')) ↔
    Steady parse format frames := by
  constructor
  · intro hagree
    have hwhole := @pushAll_whole parse format frames
    have hsingle := hagree [wire format frames] ((wire format frames).map fun c => [c])
      (by simp) (by simp [← List.flatMap_def])
    rw [pushAll_eq_readBatches _ _ ((wire format frames).map _)] at hsingle
    have hflatten := @complete_singletons format frames
    cases hread : readEvents parse format 0 (events frames) with
    | ok read =>
        rw [hwhole, hread] at hsingle
        obtain ⟨hincreasing, hlength⟩ := increasing_of_readEvents hread
        refine .inl ⟨hincreasing, ?_⟩
        cases hcut : readFrames parse 0 ((grouped [] frames).1.map (groupText format)) with
        | error e =>
            rw [← hflatten] at hcut
            have hsome := hsingle.2
            rw [readBatches_error hcut] at hsome
            cases hsome
        | ok read' =>
            have hcut' := hcut
            rw [← hflatten] at hcut'
            have hsame := hsingle.1
            rw [readBatches_ok hcut'] at hsame
            exact @separated_of_readFrames parse format 0 read'.2 [] frames read'.1 hparse hcut
              (hsame ▸ hlength)
    | error e =>
        rw [hread] at hwhole
        cases hevents : events frames with
        | nil =>
            rw [hevents] at hread
            cases hread
        | cons event rest =>
            obtain ⟨before, after, rfl, hbefore⟩ := exists_firstEvent hevents
            cases hfirst : readEvent parse format 0 event with
            | ok result =>
                have hborder := hagree [wire format (before ++ after)]
                  [wire format before, wire format after] (by simp) (by simp [wire_append])
                rw [hwhole] at hborder
                exact absurd hborder.1.symm (pushAll_first hbefore hfirst)
            | error e' =>
                have hnumber : ∀ n, number parse format event = some n → n ≤ 0 := by
                  intro n hn
                  by_contra hlt
                  obtain ⟨read, hread⟩ := readEvent_of_number hn (Int.not_le.mp hlt)
                  rw [hfirst] at hread
                  cases hread
                refine .inr ⟨⟨event, by rw [hevents]; rfl, hnumber⟩, ?_⟩
                by_contra hnever
                have hnone := @readFrames_never parse format 0 [] _ rfl hnever
                rw [← hflatten] at hnone
                rw [hwhole, readBatches_ok hnone] at hsingle
                cases hsingle.2
  · rintro (⟨hincreasing, hsep⟩ | hrefused) chunks chunks' hchunks hchunks'
    · obtain ⟨read, hread⟩ := readEvents_of_increasing hincreasing
      rw [pushAll_of_separated hchunks hparse hsep hread,
        pushAll_of_separated hchunks' hparse hsep hread]
      exact ⟨rfl, rfl⟩
    · obtain ⟨e, he⟩ := pushAll_of_refused hchunks hparse hrefused
      obtain ⟨e', he'⟩ := pushAll_of_refused hchunks' hparse hrefused
      rw [he, he']
      exact ⟨rfl, rfl⟩

end chunking

def sampleEvent : Event where
  event := .completed
  eventSequence := 1
  timestamp := "2026-01-01T00:00:00Z"
  sessionId := "session-1"
  runId := "run-1"
  traceId := "trace-1"
  phase := .completed
  payload := []

def keepAlive : SilentLine :=
  ⟨[':', ' ', 'o', 'k'], by decide, by simp [Plain], by decide⟩

/-- An event with `\r\n` in its lines only, and a comment with `\r\n` throughout. -/
def sampleFrames : List WireFrame :=
  [.event sampleEvent .crlf .crlf .lf, .other (keepAlive, .crlf) [] .crlf]

theorem sample_chunking_agrees :
    (∀ chunks chunks' : List (List Char), chunks.flatten = wire sampleFormat sampleFrames →
      chunks'.flatten = wire sampleFormat sampleFrames →
      Agree (SSEParser.pushAll (parseObjects sampleFormat [sampleEvent]) {} chunks)
        (SSEParser.pushAll (parseObjects sampleFormat [sampleEvent]) {} chunks')) ↔
    Steady (parseObjects sampleFormat [sampleEvent]) sampleFormat sampleFrames :=
  chunking_agrees_iff fun e he => by
    rw [List.mem_singleton.mp (show e ∈ [sampleEvent] from he)]
    exact readsAlone_parseObjects sampleEvent

/-- An event whose last `\r\n` is divided by a border is not handed over. -/
theorem divided_blank_line_loses : ¬ ∀ (frames : List WireFrame) (chunks chunks' : List (List Char)),
    chunks.flatten = wire sampleFormat frames → chunks'.flatten = wire sampleFormat frames →
    Agree (SSEParser.pushAll (parseObjects sampleFormat [sampleEvent]) {} chunks)
      (SSEParser.pushAll (parseObjects sampleFormat [sampleEvent]) {} chunks') := by
  intro hall
  let text := wire sampleFormat [.event sampleEvent .crlf .crlf .crlf]
  have hagree := hall [.event sampleEvent .crlf .crlf .crlf] [text] [text.dropLast, ['\n']]
    (by simp [text]) (by decide +kernel)
  have hlength := congrArg List.length hagree.1
  exact absurd hlength (by decide +kernel)

end EnergyAgent.Stream
