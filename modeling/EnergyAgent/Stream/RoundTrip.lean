import EnergyAgent.Stream.Reading

/-!
# What one emitter sends is what the parser hands over

However the stream is cut into chunks. That `JSON.parse` takes back what `json.dumps` writes is
assumed of the objects of the events.
-/

namespace EnergyAgent.Stream

open EnergyAgent.Lib
open EnergyAgent.Agent

/-- The arguments of `emit`, with the time of the event. -/
structure Emit where
  now : String
  event : SSEEventType
  state : DiagnosisState
  payload : List (String × Json)

abbrev QueueEmitter := QueueDiagnosisEventEmitter String (List (String × Json))

def emitAll (emitter : QueueEmitter) (emits : List Emit) : QueueEmitter :=
  emits.foldl (fun emitter e => emitter.emit e.now e.event e.state e.payload) emitter

/-- What `events` hands out after the calls of `emit` and a `close`. -/
def emitted (emits : List Emit) : List Event := (emitAll {} emits).close.events

/-- An event with its name and its data fields. -/
def received (event : Event) : DiagnosisEvent := ("event", .str event.event.value) :: sseData event

theorem sent_emitAll {emitter : QueueEmitter} {sent : List Event} (h : emitter.Sent sent)
    (emits : List Emit) : ∃ sent', (emitAll emitter emits).Sent sent' := by
  induction emits generalizing emitter sent with
  | nil => exact ⟨sent, h⟩
  | cons e emits ih => exact ih (h.emit e.now e.event e.state e.payload)

/-- The events of an emitter are numbered from 1 on. -/
theorem emitted_numbered (emits : List Emit) :
    (emitted emits).map SSEEvent.eventSequence = List.range' 1 (emitted emits).length := by
  obtain ⟨sent, hsent⟩ := sent_emitAll QueueDiagnosisEventEmitter.sent_nil emits
  unfold emitted
  rw [hsent.events_close]
  exact hsent.numbered

section roundTrip

variable {parse : List Char → Option Json} {format : FloatFormat}

theorem readEvent_received {sequence : Int} {event : Event}
    (hparse : parse (dumps format (.obj (sseData event))) = some (.obj (sseData event)))
    (hnext : sequence < event.eventSequence) :
    readEvent parse format sequence event = .ok (received event, event.eventSequence) := by
  have hnumber : integer? (Json.field (sseData event) "event_sequence") =
      some (event.eventSequence : Int) := rfl
  have hspread : spread event.event.value (sseData event) = received event := by
    simp [spread, sseData, received, setField]
  simp only [readEvent, hparse, accept, hnumber, if_neg (Int.not_le.mpr hnext), hspread]

/-- Numbered events are read one after the other. -/
theorem readEvents_received {from_ : Nat} {events : List Event}
    (hparse : ∀ e ∈ events, parse (dumps format (.obj (sseData e))) = some (.obj (sseData e)))
    (hnumbered : events.map SSEEvent.eventSequence = List.range' (from_ + 1) events.length) :
    readEvents parse format from_ events =
      .ok (events.map received, ((from_ + events.length : Nat) : Int)) := by
  induction events generalizing from_ with
  | nil => rfl
  | cons event events ih =>
      rw [List.map_cons, List.length_cons, List.range'_succ] at hnumbered
      obtain ⟨hfirst, hrest⟩ := List.cons.inj hnumbered
      have hnext : (from_ : Int) < event.eventSequence := by omega
      rw [readEvents, readEvent_received (hparse event (List.mem_cons_self ..)) hnext]
      simp only [hfirst]
      rw [ih (fun e he => hparse e (List.mem_cons_of_mem _ he)) hrest]
      simp only [Except.map, List.map_cons, List.length_cons]
      congr 2
      omega

/-- The frames of `_sse`. -/
def sseFrames (events : List Event) : List WireFrame := events.map fun e => .event e .lf .lf .lf

theorem wire_sseFrames (events : List Event) :
    wire format (sseFrames events) = events.flatMap (sse format) := by
  induction events with
  | nil => rfl
  | cons event events ih =>
      show wire format (.event event .lf .lf .lf :: sseFrames events) = _
      rw [wire_cons, ih]
      simp [WireFrame.lines, WireFrame.blank, Ending.cr, unlines, sse]

theorem events_sseFrames (es : List Event) : events (sseFrames es) = es := by
  simp [events, sseFrames, List.filterMap_map, Function.comp_def, WireFrame.data?]

theorem separated_sseFrames (events : List Event) : Separated 0 (sseFrames events) := by
  induction events with
  | nil => rfl
  | cons event events ih => exact ⟨le_refl 1, ih⟩

/-- There is no line end to rewrite. -/
theorem reduces_sseFrames {events : List Event} {frames' : List WireFrame}
    (h : Reduces (sseFrames events) frames') : frames' = sseFrames events := by
  induction events generalizing frames' with
  | nil =>
      cases h
      rfl
  | cons event events ih =>
      cases h with
      | cons hframe hframes =>
          rw [ih hframes]
          cases hframe with
          | event hfirst hsecond hblank =>
              have hlf : ∀ {e : Ending}, Ending.lf.Reduces e → e = .lf := fun he => he.elim id id
              rw [hlf hfirst, hlf hsecond, hlf hblank]
              rfl

/-- Every event is handed over once, in order, with its name and its data, and nothing is thrown. -/
theorem stream_round_trip (emits : List Emit) (chunks : List (List Char))
    (hchunks : chunks.flatten = (emitted emits).flatMap (sse format))
    (hparse : ∀ e ∈ emitted emits,
      parse (dumps format (.obj (sseData e))) = some (.obj (sseData e))) :
    SSEParser.pushAll parse {} chunks = ((emitted emits).map received, none) := by
  have hnormed := normed_chunks chunks
  rw [hchunks, ← wire_sseFrames] at hnormed
  obtain ⟨frames', hreduces, htext⟩ := normed_wire hnormed
  rw [reduces_sseFrames hreduces] at htext
  have hread : readFrames parse 0 (complete [] chunks).1.flatten =
      .ok ((emitted emits).map received, ((0 + (emitted emits).length : Nat) : Int)) := by
    rw [complete_flatten rfl, List.nil_append, htext, splitFrames_wire,
      readFrames_grouped (separated_sseFrames _)]
    · rw [events_sseFrames]
      exact @readEvents_received parse format 0 _ hparse (emitted_numbered emits)
    · -- The data lines end in `\n` alone.
      intro d hd
      obtain ⟨frame, hframe, hdata⟩ := List.mem_filterMap.mp hd
      obtain ⟨e, -, rfl⟩ := List.mem_map.mp hframe
      cases hdata
      simp [Ending.cr]
  rw [pushAll_eq_readBatches]
  exact readBatches_ok hread

end roundTrip

def sampleState : DiagnosisState where
  sessionId := "session-1"
  runId := "run-1"
  traceId := "trace-1"
  source := .chat
  userMessage := none
  followupMode := none
  memoryRevision := 1
  parentRunId := none
  diagnosisTemplateId := none
  diagnosisTemplateVersion := none
  alarmCategory := none
  deviceContext := none
  alarmContext := none
  plan := []
  toolResults := []
  evidence := []
  evidenceRefs := []
  candidateCauses := []
  userFeedback := []
  degradedComponents := []

def sampleEmits : List Emit :=
  [⟨"2026-01-01T00:00:00Z", .intentIdentified, sampleState,
      [("intent", .str "风扇: 告警\r\n\ndata: x")]⟩,
    ⟨"2026-01-01T00:00:01Z", .completed, { sampleState with phase := .completed },
      [("warnings", .arr [.null, .int (-1), .str "\"\\ü"])]⟩]

/-- Two events, cut after every character. -/
theorem sample_round_trip :
    SSEParser.pushAll (parseObjects sampleFormat (emitted sampleEmits)) {}
        (((emitted sampleEmits).flatMap (sse sampleFormat)).map ([·])) =
      ((emitted sampleEmits).map received, none) := by
  refine @stream_round_trip _ sampleFormat sampleEmits _ (by simp [← List.flatMap_def]) ?_
  obtain ⟨first, second, hsent, hother⟩ : ∃ first second, emitted sampleEmits = [first, second] ∧
      (dumps sampleFormat (.obj (sseData first))).isPrefixOf
        (dumps sampleFormat (.obj (sseData second))) = false := ⟨_, _, rfl, by decide +kernel⟩
  rw [hsent]
  intro e he
  rcases List.mem_cons.mp he with rfl | he
  · simpa using @parseObjects_first sampleFormat e [second] [] rfl
  · rw [List.mem_singleton.mp he, parseObjects_next _ hother]
    simpa using @parseObjects_first sampleFormat second [] [] rfl

end EnergyAgent.Stream
