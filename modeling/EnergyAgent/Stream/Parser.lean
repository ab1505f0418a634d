import EnergyAgent.Stream.Encoding
import EnergyAgent.Lib.Effect

/-!
# `SSEParser`

The reader of the stream in the browser (`lib/api/sse.ts`). `JSON.parse` is a parameter (`parse`;
`none` is a `SyntaxError`). The warning about an unknown event is left out.

`pushAll` is the loop of `streamDiagnosis`: it hands over the events of one chunk after the other,
and an exception ends it, with the events of its own chunk lost.
-/

namespace EnergyAgent.Stream

open EnergyAgent.Lib

/-- `\s` of JavaScript, which `trim` and `trimStart` drop. -/
def isWhite (c : Char) : Bool :=
  let n := c.toNat
  (0x09 ≤ n && n ≤ 0x0d) || n == 0x20 || n == 0xa0 || n == 0x1680 || (0x2000 ≤ n && n ≤ 0x200a) ||
    n == 0x2028 || n == 0x2029 || n == 0x202f || n == 0x205f || n == 0x3000 || n == 0xfeff

def trimStart (text : List Char) : List Char := text.dropWhile isWhite

def trim (text : List Char) : List Char := (trimStart (trimStart text).reverse).reverse

/-- `chunk.replace(/\r\n/g, "\n")` -/
def normalise : List Char → List Char
  | '\r' :: '\n' :: rest => '\n' :: normalise rest
  | c :: rest => c :: normalise rest
  | [] => []

/-- Put a character before the first frame; `last` is what follows the last separator. -/
def consFrame (c : Char) : List (List Char) × List Char → List (List Char) × List Char
  | (frame :: frames, last) => ((c :: frame) :: frames, last)
  | ([], last) => ([], c :: last)

/-- `buffer.split("\n\n")`, with the last part, which `pop` takes, apart. -/
def splitFrames : List Char → List (List Char) × List Char
  | '\n' :: '\n' :: rest => ([] :: (splitFrames rest).1, (splitFrames rest).2)
  | c :: rest => consFrame c (splitFrames rest)
  | [] => ([], [])

/-- `frame.split("\n")` -/
def splitLines : List Char → List (List Char)
  | [] => [[]]
  | c :: rest =>
      if c = '\n' then [] :: splitLines rest
      else match splitLines rest with
        | line :: lines => (c :: line) :: lines
        | [] => [[c]]

def joinLines : List (List Char) → List Char
  | [] => []
  | [line] => line
  | line :: lines => line ++ '\n' :: joinLines lines

def diagnosisEvents : List String :=
  ["intent_identified", "data_fetch_started", "retrieval_completed", "need_user_input",
    "draft_generated", "completed"]

/-- What the loop over the lines of a frame has collected. -/
structure FrameFields where
  event : List Char := ['m', 'e', 's', 's', 'a', 'g', 'e']
  data : List (List Char) := []
  deriving DecidableEq

def readLine (fields : FrameFields) (line : List Char) : FrameFields :=
  if line = [] ∨ line.head? = some ':' then fields
  else {
    event := if eventPrefix.isPrefixOf line then trim (line.drop 6) else fields.event
    data := if dataPrefix.isPrefixOf line then fields.data ++ [trimStart (line.drop 5)]
      else fields.data }

inductive SSEError
  | syntaxError | typeError | sequenceInvalid
  deriving DecidableEq, Repr

/-- The fields of an object. -/
abbrev DiagnosisEvent := List (String × Json)

/-- `Number.isInteger` -/
def integer? : Option Json → Option Int
  | some (.int n) => some n
  | some (.float (.finite q)) => if q.den = 1 then some q.num else none
  | _ => none

/-- `{ ...object, [name]: value }` -/
def setField (object : DiagnosisEvent) (field : String × Json) : DiagnosisEvent :=
  if object.any (fun f => f.1 = field.1) then
    object.map fun f => if f.1 = field.1 then field else f
  else object ++ [field]

/-- `{ event, ...payload }` -/
def spread (event : String) (payload : List (String × Json)) : DiagnosisEvent :=
  payload.foldl setField [("event", .str event)]

/-- The checks of the sequence; the payload is the event's, with the number of the event. -/
def accept (sequence : Int) (event : String) : Json → Except SSEError (DiagnosisEvent × Int)
  | .obj payload =>
      match integer? (Json.field payload "event_sequence") with
      | none => .error .sequenceInvalid
      | some n => if n ≤ sequence then .error .sequenceInvalid else .ok (spread event payload, n)
  | .null => .error .typeError
  | _ => .error .sequenceInvalid

section parser

variable (parse : List Char → Option Json)

/-- The event of a frame with the sequence after it; `none` for a frame that is skipped. -/
def readFrame (sequence : Int) (frame : List Char) :
    Except SSEError (Option (DiagnosisEvent × Int)) :=
  let fields := (splitLines frame).foldl readLine {}
  if fields.data = [] ∨ String.ofList fields.event ∉ diagnosisEvents then .ok none
  else match parse (joinLines fields.data) with
    | none => .error .syntaxError
    | some payload => (accept sequence (String.ofList fields.event) payload).map some

/-- `frames.flatMap` -/
def readFrames (sequence : Int) : List (List Char) → Except SSEError (List DiagnosisEvent × Int)
  | [] => .ok ([], sequence)
  | frame :: frames =>
      match readFrame parse sequence frame with
      | .error e => .error e
      | .ok none => readFrames sequence frames
      | .ok (some (event, next)) =>
          (readFrames next frames).map fun (events, last) => (event :: events, last)

structure SSEParser where
  buffer : List Char := []
  sequence : Int := 0

def SSEParser.push (parser : SSEParser) (chunk : List Char) :
    Except SSEError (List DiagnosisEvent × SSEParser) :=
  let split := splitFrames (parser.buffer ++ normalise chunk)
  (readFrames parse parser.sequence split.1).map fun (events, sequence) =>
    (events, ⟨split.2, sequence⟩)

/-- The events of the chunks, and the exception that has ended the loop. -/
def SSEParser.pushAll (parser : SSEParser) :
    List (List Char) → List DiagnosisEvent × Option SSEError
  | [] => ([], none)
  | chunk :: chunks =>
      match parser.push parse chunk with
      | .error e => ([], some e)
      | .ok (events, parser) =>
          let rest := SSEParser.pushAll parser chunks
          (events ++ rest.1, rest.2)

/-! ## Frame by frame -/

/-- What the loop does with the frames that each chunk completes. -/
def readBatches (sequence : Int) : List (List (List Char)) → List DiagnosisEvent × Option SSEError
  | [] => ([], none)
  | batch :: batches =>
      match readFrames parse sequence batch with
      | .error e => ([], some e)
      | .ok (events, next) =>
          let rest := readBatches next batches
          (events ++ rest.1, rest.2)

/-- The frames that each of the chunks completes, and what is left of them. -/
def complete (buffer : List Char) : List (List Char) → List (List (List Char)) × List Char
  | [] => ([], buffer)
  | chunk :: chunks =>
      let split := splitFrames (buffer ++ normalise chunk)
      let rest := complete split.2 chunks
      (split.1 :: rest.1, rest.2)

theorem pushAll_eq_readBatches (parser : SSEParser) (chunks : List (List Char)) :
    parser.pushAll parse chunks =
      readBatches parse parser.sequence (complete parser.buffer chunks).1 := by
  induction chunks generalizing parser with
  | nil => rfl
  | cons chunk chunks ih =>
      simp only [SSEParser.pushAll, SSEParser.push, complete, readBatches]
      cases readFrames parse parser.sequence (splitFrames (parser.buffer ++ normalise chunk)).1 with
      | error e => rfl
      | ok read => simp only [Except.map, ih]

variable {parse}

/-- Frames that are read are read in any batches. -/
theorem readFrames_append (sequence : Int) (frames frames' : List (List Char)) :
    readFrames parse sequence (frames ++ frames') =
      (readFrames parse sequence frames).bind fun read =>
        (readFrames parse read.2 frames').map fun (events, last) => (read.1 ++ events, last) := by
  induction frames generalizing sequence with
  | nil =>
      show readFrames parse sequence frames' = (readFrames parse sequence frames').map _
      cases readFrames parse sequence frames' <;> rfl
  | cons frame frames ih =>
      rw [List.cons_append, readFrames, readFrames]
      cases readFrame parse sequence frame with
      | error e => rfl
      | ok result =>
          cases result with
          | none => exact ih sequence
          | some read =>
              simp only [ih]
              cases readFrames parse read.2 frames with
              | error e => rfl
              | ok read' =>
                  simp only [Except.bind, Except.map]
                  cases readFrames parse read'.2 frames' <;> rfl

theorem readBatches_ok {sequence last : Int} {batches : List (List (List Char))}
    {events : List DiagnosisEvent}
    (h : readFrames parse sequence batches.flatten = .ok (events, last)) :
    readBatches parse sequence batches = (events, none) := by
  induction batches generalizing sequence events with
  | nil =>
      cases h
      rfl
  | cons batch batches ih =>
      rw [List.flatten_cons, readFrames_append] at h
      rw [readBatches]
      cases hbatch : readFrames parse sequence batch with
      | error e =>
          rw [hbatch] at h
          cases h
      | ok read =>
          rw [hbatch] at h
          obtain ⟨rest, hrest, heq⟩ := Prog.except_map_eq_ok h
          cases heq
          simp only [ih hrest]

/-- The loop ends with an exception when the frames, taken together, raise one. -/
theorem readBatches_error {sequence : Int} {batches : List (List (List Char))} {e : SSEError}
    (h : readFrames parse sequence batches.flatten = .error e) :
    (readBatches parse sequence batches).2 = some e := by
  induction batches generalizing sequence with
  | nil => cases h
  | cons batch batches ih =>
      rw [List.flatten_cons, readFrames_append] at h
      rw [readBatches]
      cases hbatch : readFrames parse sequence batch with
      | error e' =>
          rw [hbatch] at h
          cases h
          rfl
      | ok read =>
          rw [hbatch] at h
          have hrest : readFrames parse read.2 batches.flatten = .error e := by
            cases hread : readFrames parse read.2 batches.flatten with
            | error e' => simpa [Except.bind, hread, Except.map] using h
            | ok read' => simp [Except.bind, hread, Except.map] at h
          exact ih hrest

/-- Frames that are skipped before one that raises: no event is handed over. -/
theorem readBatches_skipped {sequence : Int} {batches : List (List (List Char))} {e : SSEError}
    {skipped rest : List (List Char)} {frame : List Char}
    (hskipped : ∀ f ∈ skipped, readFrame parse sequence f = .ok none)
    (hframe : readFrame parse sequence frame = .error e)
    (h : batches.flatten = skipped ++ frame :: rest) :
    readBatches parse sequence batches = ([], some e) := by
  have hread : ∀ fs : List (List Char), (∀ f ∈ fs, readFrame parse sequence f = .ok none) →
      readFrames parse sequence fs = .ok ([], sequence) := by
    intro fs hfs
    induction fs with
    | nil => rfl
    | cons f fs ih =>
        rw [readFrames, hfs f (List.mem_cons_self ..)]
        exact ih fun f' hf' => hfs f' (List.mem_cons_of_mem _ hf')
  induction batches generalizing skipped with
  | nil => simp at h
  | cons batch batches ih =>
      rw [List.flatten_cons] at h
      rw [readBatches]
      rcases List.append_eq_append_iff.mp h with ⟨more, rfl, hmore⟩ | ⟨more, rfl, hmore⟩
      · rw [hread batch fun f hf => hskipped f (List.mem_append_left _ hf)]
        simp only [ih (fun f hf => hskipped f (List.mem_append_right _ hf)) hmore, List.nil_append]
      · cases more with
        | nil =>
            rw [List.append_nil] at *
            rw [hread skipped hskipped]
            rw [List.nil_append] at hmore
            simp only [@ih [] (by simp) hmore.symm, List.nil_append]
        | cons f more =>
            cases hmore
            rw [readFrames_append, hread skipped hskipped]
            simp only [Except.bind, readFrames, hframe]
            rfl

end parser

/-! ## Chunk by chunk -/

theorem splitFrames_cons {c : Char} {rest : List Char}
    (h : c ≠ '\n' ∨ rest.head? ≠ some '\n') :
    splitFrames (c :: rest) = consFrame c (splitFrames rest) := by
  rw [splitFrames]
  rintro rest' rfl rfl
  simp at h

theorem consFrame_eq_nil {c : Char} {split : List (List Char) × List Char}
    (h : (consFrame c split).1 = []) : split.1 = [] ∧ (consFrame c split).2 = c :: split.2 := by
  match split, h with
  | ([], _), _ => exact ⟨rfl, rfl⟩

/-- A text without a separator is left as it is. -/
theorem splitFrames_last {text : List Char} (h : (splitFrames text).1 = []) :
    (splitFrames text).2 = text := by
  induction text using splitFrames.induct with
  | case1 rest ih => simp [splitFrames] at h
  | case2 c rest hne ih =>
      rw [splitFrames] at h ⊢
      · obtain ⟨hrest, hlast⟩ := consFrame_eq_nil h
        rw [hlast, ih hrest]
      · exact hne
      · exact hne
  | case3 => rfl

/-- What follows the last separator has none. -/
theorem splitFrames_rest (text : List Char) : (splitFrames (splitFrames text).2).1 = [] := by
  induction text using splitFrames.induct with
  | case1 rest ih => simpa [splitFrames] using ih
  | case2 c rest hne ih =>
      rw [splitFrames.eq_2 c rest hne]
      cases hrest : splitFrames rest with
      | mk frames last =>
          cases frames with
          | nil =>
              have hlast : last = rest := by
                have hrest' := @splitFrames_last rest (by rw [hrest])
                rwa [hrest] at hrest'
              show (splitFrames (c :: last)).1 = []
              rw [hlast, splitFrames.eq_2 c rest hne, hrest]
              rfl
          | cons frame frames =>
              rw [hrest] at ih
              exact ih
  | case3 => rfl

/-- A text in two parts: the second is read behind what the first has left. -/
theorem splitFrames_append (s t : List Char) :
    splitFrames (s ++ t) =
      ((splitFrames s).1 ++ (splitFrames ((splitFrames s).2 ++ t)).1,
        (splitFrames ((splitFrames s).2 ++ t)).2) := by
  induction s using splitFrames.induct with
  | case1 rest ih =>
      show splitFrames ('\n' :: '\n' :: (rest ++ t)) = _
      simp only [splitFrames, ih, List.cons_append]
  | case2 c rest hne ih =>
      by_cases hnone : (splitFrames (c :: rest)).1 = []
      · rw [hnone, splitFrames_last hnone]
        rfl
      · rw [splitFrames.eq_2 c rest hne] at hnone ⊢
        have hnext : ∀ rest', c = '\n' → rest ++ t = '\n' :: rest' → False := by
          intro rest' hc hrest
          cases rest with
          | nil => exact hnone rfl
          | cons c' rest =>
              cases hrest
              exact hne rest hc rfl
        rw [List.cons_append, splitFrames.eq_2 c _ hnext, ih]
        cases hrest : splitFrames rest with
        | mk frames last =>
            cases frames with
            | nil => exact absurd (by rw [hrest]; rfl) hnone
            | cons frame frames => rfl
  | case3 => rfl

/-- The frames of the chunks are the frames of the text that the chunks make up. -/
theorem complete_flatten {buffer : List Char} (h : (splitFrames buffer).1 = [])
    (chunks : List (List Char)) :
    (complete buffer chunks).1.flatten =
      (splitFrames (buffer ++ chunks.flatMap normalise)).1 := by
  induction chunks generalizing buffer with
  | nil => simp [complete, h]
  | cons chunk chunks ih =>
      rw [List.flatMap_cons, ← List.append_assoc, splitFrames_append]
      rw [← ih (splitFrames_rest _)]
      rfl

/-! ## Line by line -/

def unlines (lines : List (List Char)) : List Char := lines.flatMap (· ++ ['\n'])

theorem unlines_cons (line : List Char) (lines : List (List Char)) :
    unlines (line :: lines) = line ++ '\n' :: unlines lines := by
  simp [unlines]

theorem unlines_append (lines lines' : List (List Char)) :
    unlines (lines ++ lines') = unlines lines ++ unlines lines' :=
  List.flatMap_append

theorem unlines_eq_joinLines {lines : List (List Char)} (h : lines ≠ []) :
    unlines lines = joinLines lines ++ ['\n'] := by
  induction lines with
  | nil => exact absurd rfl h
  | cons line lines ih =>
      cases lines with
      | nil => simp [unlines, joinLines]
      | cons next lines =>
          rw [unlines_cons, ih (List.cons_ne_nil _ _)]
          simp [joinLines]

theorem splitLines_line {line : List Char} (h : '\n' ∉ line) (text : List Char) :
    splitLines (line ++ '\n' :: text) = line :: splitLines text ∧ splitLines line = [line] := by
  induction line with
  | nil => exact ⟨rfl, rfl⟩
  | cons c line ih =>
      obtain ⟨hc, hline⟩ := List.ne_and_not_mem_of_not_mem_cons h
      obtain ⟨happend, hself⟩ := ih hline
      have hc : c ≠ '\n' := fun heq => hc heq.symm
      constructor
      · rw [List.cons_append, splitLines, if_neg hc, happend]
      · rw [splitLines, if_neg hc, hself]

theorem splitLines_joinLines {lines : List (List Char)} (hne : lines ≠ [])
    (h : ∀ line ∈ lines, '\n' ∉ line) : splitLines (joinLines lines) = lines := by
  induction lines with
  | nil => exact absurd rfl hne
  | cons line lines ih =>
      have hline := h line (List.mem_cons_self ..)
      cases lines with
      | nil => exact (splitLines_line hline []).2
      | cons next lines =>
          rw [joinLines, (splitLines_line hline _).1]
          · rw [ih (List.cons_ne_nil _ _) fun l hl => h l (List.mem_cons_of_mem _ hl)]
          · exact List.cons_ne_nil _ _

theorem consFrame_nil {c : Char} {split : List (List Char) × List Char} (h : split.1 = []) :
    (consFrame c split).1 = [] := by
  match split, h with
  | ([], _), _ => rfl

theorem splitFrames_line {line text : List Char} (hline : '\n' ∉ line)
    (h : (splitFrames text).1 = []) : (splitFrames (line ++ text)).1 = [] := by
  induction line with
  | nil => exact h
  | cons c line ih =>
      obtain ⟨hc, hline⟩ := List.ne_and_not_mem_of_not_mem_cons hline
      rw [List.cons_append, splitFrames_cons (.inl fun heq => hc heq.symm)]
      exact consFrame_nil (ih hline)

/-- Lines that are not empty have no separator between them. -/
theorem splitFrames_unlines {lines : List (List Char)}
    (h : ∀ line ∈ lines, line ≠ [] ∧ '\n' ∉ line) : (splitFrames (unlines lines)).1 = [] := by
  induction lines with
  | nil => rfl
  | cons line lines ih =>
      rw [unlines_cons]
      refine splitFrames_line (h line (List.mem_cons_self ..)).2 ?_
      have hrest : (unlines lines).head? ≠ some '\n' := by
        cases lines with
        | nil => simp [unlines]
        | cons next lines =>
            obtain ⟨hne, hnext⟩ := h next (by simp)
            rw [unlines_cons]
            cases next with
            | nil => exact absurd rfl hne
            | cons c next =>
                intro heq
                cases heq
                exact hnext (List.mem_cons_self ..)
      rw [splitFrames_cons (.inr hrest)]
      exact consFrame_nil (ih fun l hl => h l (List.mem_cons_of_mem _ hl))

/-- The first separator ends the first frame. -/
theorem splitFrames_close {frame : List Char} (h : (splitFrames (frame ++ ['\n'])).1 = [])
    (text : List Char) : splitFrames (frame ++ '\n' :: '\n' :: text) =
      (frame :: (splitFrames text).1, (splitFrames text).2) := by
  induction frame with
  | nil => rfl
  | cons c frame ih =>
      have hnext : c ≠ '\n' ∨ (frame ++ ['\n']).head? ≠ some '\n' := by
        by_contra hboth
        push Not at hboth
        obtain ⟨rfl, hhead⟩ := hboth
        cases frame with
        | nil => simp [splitFrames] at h
        | cons c frame =>
            simp only [List.cons_append, List.head?_cons, Option.some.injEq] at hhead
            simp [hhead, splitFrames] at h
      have hhead : (frame ++ '\n' :: '\n' :: text).head? = (frame ++ ['\n']).head? := by
        cases frame <;> rfl
      rw [List.cons_append, splitFrames_cons hnext] at h
      rw [List.cons_append, splitFrames_cons (by rwa [hhead]), ih (consFrame_eq_nil h).1]
      rfl

end EnergyAgent.Stream
