import EnergyAgent.Lib.Utf8
import EnergyAgent.Stream.RoundTrip

/-!
# The stream over bytes

`StreamingResponse` sends the text of the events in UTF-8. `streamDiagnosis` reads the body as the
network delivers it: a border of chunks may fall within a character, and the body may end, or fail,
anywhere. Whatever has come of the bytes, the events that are complete in them are handed over, and
no others.

What `fetch` answers is a parameter: the first response, whether the session could be refreshed, and
the response to the second attempt.
-/

namespace EnergyAgent.Stream

open EnergyAgent.Lib
open EnergyAgent.Agent

/-! ## `TextDecoder` -/

/-- `new TextDecoder("utf-8")` -/
structure TextDecoder where
  decoder : Utf8.Decoder := {}
  bomSeen : Bool := false

namespace TextDecoder

/-- A byte order mark before everything else is dropped. -/
def serialize (bomSeen : Bool) (text : List Char) : Bool × List Char :=
  match text with
  | [] => (bomSeen, [])
  | c :: rest => (true, if bomSeen = false ∧ c = '\uFEFF' then rest else c :: rest)

/-- `decoder.decode(chunk, { stream: true })` -/
def decode (decoder : TextDecoder) (chunk : List UInt8) : TextDecoder × List Char :=
  let read := Utf8.decode decoder.decoder chunk
  let text := serialize decoder.bomSeen read.2
  (⟨read.1, text.1⟩, text.2)

/-- `decoder.decode()` -/
def finish (decoder : TextDecoder) : List Char :=
  (serialize decoder.bomSeen (Utf8.flush decoder.decoder)).2

/-- The texts of the chunks, and the decoder behind them. -/
def texts (decoder : TextDecoder) : List (List UInt8) → TextDecoder × List (List Char)
  | [] => (decoder, [])
  | chunk :: chunks =>
      let read := decoder.decode chunk
      let rest := texts read.1 chunks
      (rest.1, read.2 :: rest.2)

end TextDecoder

/-! ## `streamDiagnosis` -/

/-- A body that is read: `reader.read()` comes to its end, or rejects. -/
structure Body where
  chunks : List (List UInt8)
  failed : Bool

structure StreamResponse where
  status : Nat
  /-- `error` in the JSON of the body; `{}` where there is none. -/
  code : Option String := none
  message : Option String := none
  /-- `Number(response.headers.get("retry-after")) || null` -/
  retryAfter : Option Rat := none
  body : Option Body := none

def StreamResponse.ok (response : StreamResponse) : Bool :=
  200 ≤ response.status && response.status ≤ 299

inductive StreamError
  | api (message : String) (status : Nat) (code : String) (retryAfter : Option Rat)
  | bodyMissing
  /-- The connection is gone. -/
  | read
  | parser (e : SSEError)
  deriving DecidableEq

def StreamResponse.apiError (response : StreamResponse) : StreamError :=
  .api (response.message.getD s!"Request failed ({response.status})") response.status
    (response.code.getD "UNKNOWN") response.retryAfter

/-- The response that is read on, after a refresh of the session and a second attempt if the token
has expired. -/
def opened (first : StreamResponse) (refreshed : Bool) (second : StreamResponse) :
    Except StreamError Body :=
  let response :=
    if first.ok = false ∧ first.status = 401 ∧
        first.code.getD "UNKNOWN" ∈ ["AUTH_TOKEN_EXPIRED", "AUTH_TOKEN_INVALID"] ∧ refreshed = true
    then second
    else first
  if response.ok then
    match response.body with
    | none => .error .bodyMissing
    | some body => .ok body
  else .error response.apiError

section stream

variable (parse : List Char → Option Json)

/-- The loop over the body: the events that are handed over, and the exception that has ended it. -/
def readBody (decoder : TextDecoder) (parser : SSEParser) (failed : Bool) :
    List (List UInt8) → List DiagnosisEvent × Option StreamError
  | [] =>
      if failed then ([], some .read)
      else match parser.push parse decoder.finish with
        | .error e => ([], some (.parser e))
        | .ok (events, _) => (events, none)
  | chunk :: chunks =>
      let read := decoder.decode chunk
      match parser.push parse read.2 with
      | .error e => ([], some (.parser e))
      | .ok (events, parser) =>
          let rest := readBody read.1 parser failed chunks
          (events ++ rest.1, rest.2)

def streamDiagnosis (first : StreamResponse) (refreshed : Bool) (second : StreamResponse) :
    List DiagnosisEvent × Option StreamError :=
  match opened first refreshed second with
  | .error e => ([], some e)
  | .ok body => readBody parse {} {} body.failed body.chunks

end stream

/-- The bytes of the response. -/
def sent (format : FloatFormat) (events : List Event) : List UInt8 :=
  Utf8.encode (events.flatMap (sse format))

/-- The events whose frames lie within the first `size` bytes. -/
def arrived (format : FloatFormat) (size : Nat) : List Event → List Event
  | [] => []
  | event :: events =>
      let needed := (Utf8.encode (sse format event)).length
      if needed ≤ size then event :: arrived format (size - needed) events else []

/-! ## The texts of the chunks -/

/-- A text that begins with no byte order mark is left as it is. -/
theorem serialize_eq {bomSeen : Bool} {text : List Char}
    (h : bomSeen = true ∨ text.head? ≠ some '\uFEFF') :
    (TextDecoder.serialize bomSeen text).2 = text := by
  cases text with
  | nil => rfl
  | cons c rest =>
      have hkeep : ¬ (bomSeen = false ∧ c = '\uFEFF') := by
        rintro ⟨rfl, rfl⟩
        simp at h
      simp only [TextDecoder.serialize, if_neg hkeep]

/-- How the bytes are cut changes nothing about the text. -/
theorem texts_spec {decoder : TextDecoder} {chunks : List (List UInt8)}
    (h : decoder.bomSeen = true ∨
      (Utf8.decode decoder.decoder chunks.flatten).2.head? ≠ some '\uFEFF') :
    (decoder.texts chunks).1.decoder = (Utf8.decode decoder.decoder chunks.flatten).1 ∧
      (decoder.texts chunks).2.flatten = (Utf8.decode decoder.decoder chunks.flatten).2 := by
  induction chunks generalizing decoder with
  | nil => exact ⟨rfl, rfl⟩
  | cons chunk chunks ih =>
      rw [List.flatten_cons, Utf8.decode_append] at h ⊢
      have hhere : (decoder.decode chunk).2 = (Utf8.decode decoder.decoder chunk).2 := by
        refine serialize_eq (h.imp_right fun hhead hbom => hhead ?_)
        rw [List.head?_append, hbom]
        rfl
      have hnext : (decoder.decode chunk).1.bomSeen = true ∨
          (Utf8.decode (decoder.decode chunk).1.decoder chunks.flatten).2.head? ≠ some '\uFEFF' := by
        show (TextDecoder.serialize decoder.bomSeen (Utf8.decode decoder.decoder chunk).2).1 = true ∨ _
        cases htext : (Utf8.decode decoder.decoder chunk).2 with
        | nil =>
            rw [htext, List.nil_append] at h
            exact h
        | cons c rest => exact .inl rfl
      obtain ⟨hstate, hrest⟩ := ih hnext
      refine ⟨hstate, ?_⟩
      show (decoder.decode chunk).2 ++ ((decoder.decode chunk).1.texts chunks).2.flatten = _
      rw [hhere, hrest]
      rfl

/-- What the loop over the body pushes: the texts of the chunks and, at the end of the body, what
the decoder has kept. -/
def bodyTexts (failed : Bool) (chunks : List (List UInt8)) (decoder : TextDecoder) : List (List Char) :=
  (decoder.texts chunks).2 ++ if failed then [] else [(decoder.texts chunks).1.finish]

section loop

variable {parse : List Char → Option Json}

theorem readBody_eq (decoder : TextDecoder) (parser : SSEParser) (failed : Bool)
    (chunks : List (List UInt8)) :
    readBody parse decoder parser failed chunks =
      ((parser.pushAll parse (bodyTexts failed chunks decoder)).1,
        ((parser.pushAll parse (bodyTexts failed chunks decoder)).2.map StreamError.parser).or
          (if failed then some .read else none)) := by
  induction chunks generalizing decoder parser with
  | nil =>
      cases failed with
      | true => rfl
      | false =>
          show _ = ((parser.pushAll parse [decoder.finish]).1, _)
          simp only [readBody, bodyTexts, TextDecoder.texts, SSEParser.pushAll, List.nil_append,
            Bool.false_eq_true, if_false]
          cases parser.push parse decoder.finish with
          | error e => rfl
          | ok read => simp
  | cons chunk chunks ih =>
      have hcons : bodyTexts failed (chunk :: chunks) decoder =
          (decoder.decode chunk).2 :: bodyTexts failed chunks (decoder.decode chunk).1 := rfl
      rw [hcons]
      simp only [readBody, SSEParser.pushAll]
      cases parser.push parse (decoder.decode chunk).2 with
      | error e => rfl
      | ok read => simp only [ih]

end loop

/-! ## The frames in the first bytes -/

theorem splitFrames_concat {text : List Char} {c : Char} (h : (splitFrames text).1 = [])
    (hc : c ≠ '\n') : (splitFrames (text ++ [c])).1 = [] := by
  induction text using splitFrames.induct with
  | case1 rest ih => simp [splitFrames] at h
  | case2 d rest hne ih =>
      rw [splitFrames.eq_2 d rest hne] at h
      have hnext : d ≠ '\n' ∨ (rest ++ [c]).head? ≠ some '\n' := by
        by_contra hboth
        push Not at hboth
        obtain ⟨rfl, hhead⟩ := hboth
        cases rest with
        | nil => exact hc (by simpa using hhead)
        | cons c' rest => exact hne rest rfl (by simpa using hhead)
      rw [List.cons_append, splitFrames_cons hnext]
      exact consFrame_nil (ih (consFrame_eq_nil h).1)
  | case3 =>
      rw [List.nil_append, splitFrames_cons (.inl hc)]
      rfl

section frames

variable {format : FloatFormat}

/-- An event without the blank line behind it. -/
theorem splitFrames_open (event : Event) :
    (splitFrames (eventLine event ++ '\n' :: dataLine format event ++ ['\n'])).1 = [] := by
  have hlines := @splitFrames_unlines [eventLine event, dataLine format event] fun line hline => by
    rcases List.mem_cons.mp hline with rfl | hline
    · exact ⟨by simp [eventLine, eventPrefix], fun hmem => (plain_eventLine event _ hmem).1 rfl⟩
    · rw [List.mem_singleton.mp hline]
      exact ⟨by simp [dataLine, dataPrefix], fun hmem => (plain_dataLine format event _ hmem).1 rfl⟩
  simpa [unlines] using hlines

/-- The events before a text, and what is left of it. -/
theorem splitFrames_sse (events : List Event) (text : List Char) :
    splitFrames (events.flatMap (sse format) ++ text) =
      ((splitFrames (events.flatMap (sse format))).1 ++ (splitFrames text).1, (splitFrames text).2) := by
  induction events with
  | nil => rfl
  | cons event events ih =>
      have hclose : ∀ rest, splitFrames (sse format event ++ rest) =
          ((eventLine event ++ '\n' :: dataLine format event) :: (splitFrames rest).1,
            (splitFrames rest).2) := by
        intro rest
        rw [← splitFrames_close (splitFrames_open event)]
        simp [sse]
      rw [List.flatMap_cons, List.append_assoc, hclose, ih, hclose]
      rfl

/-- Not the whole of an event: no frame is closed. -/
theorem splitFrames_begun {event : Event} {begun later : List Char}
    (h : sse format event = begun ++ later) (hlater : later ≠ []) : (splitFrames begun).1 = [] := by
  have hopen := @splitFrames_open format event
  rw [← List.dropLast_concat_getLast hlater, ← List.append_assoc] at h
  have hlast : (eventLine event ++ '\n' :: dataLine format event ++ ['\n']) ++ ['\n'] =
      (begun ++ later.dropLast) ++ [later.getLast hlater] := by
    rw [← h]
    simp [sse]
  rw [(List.append_inj' hlast rfl).1, splitFrames_append] at hopen
  exact (List.append_eq_nil_iff.mp hopen).1

theorem sent_cons (event : Event) (events : List Event) :
    sent format (event :: events) = Utf8.encode (sse format event) ++ sent format events :=
  Utf8.encode_append _ _

theorem arrived_all (events : List Event) :
    arrived format (sent format events).length events = events := by
  induction events with
  | nil => rfl
  | cons event events ih =>
      rw [sent_cons, List.length_append, arrived, if_pos (Nat.le_add_right _ _),
        Nat.add_sub_cancel_left, ih]

theorem cr_notMem_sse (event : Event) : '\r' ∉ sse format event := by
  intro hmem
  have hline : ∀ line, Plain line → '\r' ∉ line := fun line hline hcr => (hline _ hcr).2 rfl
  have hevent := hline _ (plain_eventLine event)
  have hdata := hline _ (plain_dataLine format event)
  simp [sse, hevent, hdata] at hmem

/-- The first bytes of the response hold the events that have arrived, and the beginning of one. -/
theorem decode_sent {events : List Event} {bytes rest : List UInt8}
    (h : bytes ++ rest = sent format events) : ∃ later begun,
      events = arrived format bytes.length events ++ later ∧
      (Utf8.decode {} bytes).2 = (arrived format bytes.length events).flatMap (sse format) ++ begun ∧
      (splitFrames begun).1 = [] ∧ '\r' ∉ begun := by
  induction events generalizing bytes with
  | nil =>
      obtain ⟨rfl, -⟩ := List.append_eq_nil_iff.mp h
      exact ⟨[], [], rfl, rfl, rfl, List.not_mem_nil⟩
  | cons event events ih =>
      rw [sent_cons] at h
      by_cases hfits : (Utf8.encode (sse format event)).length ≤ bytes.length
      · rw [arrived, if_pos hfits]
        obtain ⟨more, rfl⟩ : ∃ more, bytes = Utf8.encode (sse format event) ++ more :=
          (List.prefix_of_prefix_length_le (List.prefix_append _ _) ⟨rest, h⟩ hfits).imp
            fun more hmore => hmore.symm
        rw [List.append_assoc] at h
        obtain ⟨later, begun, hevents, htext, hbegun⟩ := ih (List.append_cancel_left h)
        have hsize : (Utf8.encode (sse format event) ++ more).length -
            (Utf8.encode (sse format event)).length = more.length := by simp
        rw [hsize]
        refine ⟨later, begun, congrArg (event :: ·) hevents, ?_, hbegun⟩
        rw [Utf8.decode_append, Utf8.decode_encode, List.flatMap_cons, List.append_assoc, ← htext]
      · rw [arrived, if_neg hfits]
        have hshort : bytes.length ≤ (Utf8.encode (sse format event)).length := by omega
        obtain ⟨rest', hrest⟩ : bytes <+: Utf8.encode (sse format event) :=
          List.prefix_of_prefix_length_le ⟨rest, h⟩ (List.prefix_append _ _) hshort
        have hne : rest' ≠ [] := by
          rintro rfl
          rw [List.append_nil] at hrest
          exact hfits (le_of_eq (congrArg List.length hrest.symm))
        obtain ⟨later, hlater, htext⟩ := Utf8.decode_prefix hrest hne
        refine ⟨event :: events, _, rfl, rfl, splitFrames_begun htext hlater, fun hmem => ?_⟩
        have hcr : '\r' ∈ sse format event := by
          rw [htext]
          exact List.mem_append_left _ hmem
        exact cr_notMem_sse event hcr

end frames

/-! ## Whatever has come -/

section interrupted

variable {parse : List Char → Option Json} {format : FloatFormat}

theorem normalise_eq {text : List Char} (h : '\r' ∉ text) : normalise text = text := by
  induction text using normalise.induct with
  | case1 rest ih => simp at h
  | case2 c rest hne ih =>
      rw [normalise]
      · rw [ih fun hmem => h (List.mem_cons_of_mem _ hmem)]
      · exact hne
  | case3 => rfl

/-- The first events of an emitter are read. -/
theorem readFrames_first {emits : List Emit} {first later : List Event}
    (h : emitted emits = first ++ later)
    (hparse : ∀ e ∈ emitted emits,
      parse (dumps format (.obj (sseData e))) = some (.obj (sseData e))) :
    readFrames parse 0 (splitFrames (first.flatMap (sse format))).1 =
      .ok (first.map received, ((0 + first.length : Nat) : Int)) := by
  have hnumbered : first.map SSEEvent.eventSequence = List.range' (0 + 1) first.length := by
    have hall := emitted_numbered emits
    rw [h, List.map_append, List.length_append, ← List.range'_append] at hall
    exact (List.append_inj hall (by simp)).1
  rw [← wire_sseFrames, splitFrames_wire, readFrames_grouped (separated_sseFrames _)]
  · rw [events_sseFrames]
    refine @readEvents_received parse format 0 _ (fun e he => hparse e ?_) hnumbered
    rw [h]
    exact List.mem_append_left _ he
  · -- The data lines end in `\n` alone.
    intro d hd
    obtain ⟨frame, hframe, hdata⟩ := List.mem_filterMap.mp hd
    obtain ⟨e, -, rfl⟩ := List.mem_map.mp hframe
    cases hdata
    simp [Ending.cr]

/-- A response begins with the name of an event. -/
theorem head_sent {events : List Event} {bytes rest : List UInt8}
    (h : bytes ++ rest = sent format events) :
    (Utf8.decode {} bytes).2.head? ≠ some '\uFEFF' := by
  obtain ⟨later, htext⟩ := Utf8.decode_isPrefix h
  cases events with
  | nil => simp [(List.append_eq_nil_iff.mp htext).1]
  | cons event events =>
      have hfirst : (List.flatMap (sse format) (event :: events)).head? = some 'e' := rfl
      rw [← htext, List.head?_append] at hfirst
      intro hbom
      rw [hbom, Option.some_or] at hfirst
      exact absurd hfirst (by decide)

/-- The text of the bytes that have come, with or without the end of the body. -/
theorem flatten_bodyTexts {chunks : List (List UInt8)} (failed : Bool)
    (h : (Utf8.decode {} chunks.flatten).2.head? ≠ some '\uFEFF') : ∃ last,
      (bodyTexts failed chunks {}).flatten = (Utf8.decode {} chunks.flatten).2 ++ last ∧
      (last = [] ∨ last = [Utf8.replacement]) := by
  obtain ⟨-, htexts⟩ := @texts_spec {} chunks (.inr h)
  rw [bodyTexts, List.flatten_append, htexts]
  cases failed with
  | true => exact ⟨[], rfl, .inl rfl⟩
  | false =>
      refine ⟨(({} : TextDecoder).texts chunks).1.finish, by simp, ?_⟩
      unfold TextDecoder.finish Utf8.flush
      split
      · exact .inl rfl
      · rw [serialize_eq (.inr (by decide))]
        exact .inr rfl

/-- However the body is cut and wherever it ends, the events that have arrived are handed over. -/
theorem pushAll_bodyTexts {emits : List Emit} {chunks : List (List UInt8)} {rest : List UInt8}
    (failed : Bool) (hchunks : chunks.flatten ++ rest = sent format (emitted emits))
    (hparse : ∀ e ∈ emitted emits,
      parse (dumps format (.obj (sseData e))) = some (.obj (sseData e))) :
    SSEParser.pushAll parse {} (bodyTexts failed chunks {}) =
      ((arrived format chunks.flatten.length (emitted emits)).map received, none) := by
  obtain ⟨last, hflatten, hlast⟩ := flatten_bodyTexts failed (head_sent hchunks)
  obtain ⟨later, begun, hevents, htext, hbegun, hcr⟩ := decode_sent hchunks
  have hopen : (splitFrames (begun ++ last)).1 = [] := by
    rcases hlast with rfl | rfl
    · rwa [List.append_nil]
    · exact splitFrames_concat hbegun (by decide)
  have hplain : ∀ text ∈ bodyTexts failed chunks {}, '\r' ∉ text := by
    intro text hmem hcr'
    have hall := List.mem_flatten_of_mem hmem hcr'
    rw [hflatten, htext] at hall
    rcases List.mem_append.mp hall with hall | hmem
    · rcases List.mem_append.mp hall with hframes | hmem
      · obtain ⟨e, -, he⟩ := List.mem_flatMap.mp hframes
        exact cr_notMem_sse e he
      · exact hcr hmem
    · rcases hlast with rfl | rfl
      · exact absurd hmem List.not_mem_nil
      · exact absurd hmem (by decide)
  have hnormalise : (bodyTexts failed chunks {}).flatMap normalise =
      (bodyTexts failed chunks {}).flatten := by
    rw [List.flatMap_def, List.map_congr_left fun text hmem => normalise_eq (hplain text hmem),
      List.map_id']
  have hframes : (complete [] (bodyTexts failed chunks {})).1.flatten =
      (splitFrames ((arrived format chunks.flatten.length (emitted emits)).flatMap (sse format))).1 := by
    rw [complete_flatten rfl, List.nil_append, hnormalise, hflatten, htext, List.append_assoc,
      splitFrames_sse, hopen, List.append_nil]
  have hread := readFrames_first hevents hparse
  rw [← hframes] at hread
  rw [pushAll_eq_readBatches]
  exact readBatches_ok hread

/-- What has come whole is handed over, once and in order, and nothing else is. -/
theorem interrupted_stream (emits : List Emit) (first second : StreamResponse) (refreshed : Bool)
    (body : Body) (rest : List UInt8) (hopened : opened first refreshed second = .ok body)
    (hbody : body.chunks.flatten ++ rest = sent format (emitted emits))
    (hparse : ∀ e ∈ emitted emits,
      parse (dumps format (.obj (sseData e))) = some (.obj (sseData e))) :
    streamDiagnosis parse first refreshed second =
        ((arrived format body.chunks.flatten.length (emitted emits)).map received,
          if body.failed then some .read else none) ∧
      (rest = [] → arrived format body.chunks.flatten.length (emitted emits) = emitted emits) := by
  constructor
  · unfold streamDiagnosis
    rw [hopened]
    show readBody parse {} {} body.failed body.chunks = _
    rw [readBody_eq, pushAll_bodyTexts body.failed hbody hparse]
    rfl
  · rintro rfl
    rw [List.append_nil] at hbody
    rw [hbody, arrived_all]

end interrupted

theorem parses_sampleEmits : ∀ e ∈ emitted sampleEmits,
    parseObjects sampleFormat (emitted sampleEmits) (dumps sampleFormat (.obj (sseData e))) =
      some (.obj (sseData e)) := by
  obtain ⟨first, second, hsent, hother⟩ : ∃ first second, emitted sampleEmits = [first, second] ∧
      (dumps sampleFormat (.obj (sseData first))).isPrefixOf
        (dumps sampleFormat (.obj (sseData second))) = false := ⟨_, _, rfl, by decide +kernel⟩
  rw [hsent]
  intro e he
  rcases List.mem_cons.mp he with rfl | he
  · simpa using @parseObjects_first sampleFormat e [second] [] rfl
  · rw [List.mem_singleton.mp he, parseObjects_next _ hother]
    simpa using @parseObjects_first sampleFormat second [] [] rfl

/-- The session is refreshed, and the connection breaks off after 300 bytes, which come one by one. -/
def sampleBody : Body where
  chunks := ((sent sampleFormat (emitted sampleEmits)).take 300).map ([·])
  failed := true

theorem sample_interrupted_stream :
    streamDiagnosis (parseObjects sampleFormat (emitted sampleEmits))
        { status := 401, code := some "AUTH_TOKEN_EXPIRED" } true
        { status := 200, body := some sampleBody } =
      ((arrived sampleFormat sampleBody.chunks.flatten.length (emitted sampleEmits)).map received,
        some .read) :=
  (interrupted_stream sampleEmits { status := 401, code := some "AUTH_TOKEN_EXPIRED" }
    { status := 200, body := some sampleBody } true sampleBody
    ((sent sampleFormat (emitted sampleEmits)).drop 300) rfl
    (by rw [sampleBody, ← List.flatMap_def, List.flatMap_singleton', List.take_append_drop])
    parses_sampleEmits).1

end EnergyAgent.Stream
