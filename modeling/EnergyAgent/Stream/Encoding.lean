import EnergyAgent.Agent.Events
import EnergyAgent.Lib.Json
import Mathlib.Data.List.Basic

/-!
# `_sse`

The text of an event on the wire: `json.dumps(data, ensure_ascii=False)` behind the name of the
event. Texts are lists of code points.
-/

namespace EnergyAgent.Stream

open EnergyAgent.Lib
open EnergyAgent.Agent

/-- A text without line breaks, in one line. -/
def Plain (text : List Char) : Prop := ∀ c ∈ text, c ≠ '\n' ∧ c ≠ '\r'

theorem plain_nil : Plain [] := by simp [Plain]

theorem plain_append {s t : List Char} : Plain (s ++ t) ↔ Plain s ∧ Plain t :=
  List.forall_mem_append

theorem plain_cons {c : Char} {s : List Char} :
    Plain (c :: s) ↔ (c ≠ '\n' ∧ c ≠ '\r') ∧ Plain s := by
  simp [Plain]

/-! ## `json.dumps` -/

/-- `float.__repr__`. -/
structure FloatFormat where
  repr : PyFloat → List Char
  plain : ∀ x, Plain (repr x)

/-- A format of the floats; none of the samples has one. -/
def sampleFormat : FloatFormat := ⟨fun _ => ['0', '.', '0'], fun _ => by simp [Plain]⟩

def hexDigit (n : Nat) : Char := Nat.digitChar n

/-- The escapes of `json.dumps` with `ensure_ascii=False`. -/
def escapeChar (c : Char) : List Char :=
  if c = '"' then ['\\', '"']
  else if c = '\\' then ['\\', '\\']
  else if c = '\n' then ['\\', 'n']
  else if c = '\r' then ['\\', 'r']
  else if c = '\t' then ['\\', 't']
  else if c.toNat = 0x0c then ['\\', 'f']
  else if c.toNat = 0x08 then ['\\', 'b']
  else if c.toNat < 0x20 then
    ['\\', 'u', '0', '0', hexDigit (c.toNat / 16), hexDigit (c.toNat % 16)]
  else [c]

def dumpsStr (s : String) : List Char := '"' :: s.toList.flatMap escapeChar ++ ['"']

def dumpsInt (n : Int) : List Char := (if n < 0 then ['-'] else []) ++ Nat.toDigits 10 n.natAbs

section dumps

variable (format : FloatFormat)

mutual

def dumps : Json → List Char
  | .null => ['n', 'u', 'l', 'l']
  | .bool true => ['t', 'r', 'u', 'e']
  | .bool false => ['f', 'a', 'l', 's', 'e']
  | .int n => dumpsInt n
  | .float x => format.repr x
  | .str s => dumpsStr s
  | .arr items => '[' :: dumpsItems items ++ [']']
  | .obj fields => '{' :: dumpsFields fields ++ ['}']

def dumpsItems : List Json → List Char
  | [] => []
  | [item] => dumps item
  | item :: rest => dumps item ++ ',' :: ' ' :: dumpsItems rest

def dumpsFields : List (String × Json) → List Char
  | [] => []
  | [(name, value)] => dumpsStr name ++ ':' :: ' ' :: dumps value
  | (name, value) :: rest =>
      dumpsStr name ++ ':' :: ' ' :: dumps value ++ ',' :: ' ' :: dumpsFields rest

end

end dumps

/-! ## The text of an event -/

/-- `DiagnosisPhase` is a `StrEnum`. -/
def phaseValue : DiagnosisPhase → String
  | .init => "INIT"
  | .planReady => "PLAN_READY"
  | .dataFetching => "DATA_FETCHING"
  | .evidenceReady => "EVIDENCE_READY"
  | .needUserInput => "NEED_USER_INPUT"
  | .draftReady => "DRAFT_READY"
  | .reviewing => "REVIEWING"
  | .completed => "COMPLETED"
  | .failed => "FAILED"

/-- An event with the time as pydantic writes it, and a JSON object. -/
abbrev Event := SSEEvent String (List (String × Json))

/-- `event.model_dump(mode="json", exclude={"event"})`. -/
def sseData (event : Event) : List (String × Json) :=
  [("event_sequence", .int event.eventSequence), ("timestamp", .str event.timestamp),
    ("session_id", .str event.sessionId), ("run_id", .str event.runId),
    ("trace_id", .str event.traceId), ("phase", .str (phaseValue event.phase)),
    ("payload", .obj event.payload)]

def eventPrefix : List Char := ['e', 'v', 'e', 'n', 't', ':']

def dataPrefix : List Char := ['d', 'a', 't', 'a', ':']

variable (format : FloatFormat)

def eventLine (event : Event) : List Char := eventPrefix ++ ' ' :: event.event.value.toList

def dataLine (event : Event) : List Char := dataPrefix ++ ' ' :: dumps format (.obj (sseData event))

/-- `_sse`. -/
def sse (event : Event) : List Char :=
  eventLine event ++ '\n' :: dataLine format event ++ ['\n', '\n']

/-! ## No raw line break -/

theorem plain_escapeChar (c : Char) : Plain (escapeChar c) := by
  have hdigit : ∀ n, hexDigit n ≠ '\n' ∧ hexDigit n ≠ '\r' := fun n =>
    ⟨Nat.digitChar_ne '\n' (by decide), Nat.digitChar_ne '\r' (by decide)⟩
  unfold escapeChar
  repeat' split
  · simp [Plain]
  · simp [Plain]
  · simp [Plain]
  · simp [Plain]
  · simp [Plain]
  · simp [Plain]
  · simp [Plain]
  · simp [Plain, (hdigit _).1, (hdigit _).2]
  · next hn hr _ _ _ _ => simp [Plain, hn, hr]

theorem plain_dumpsStr (s : String) : Plain (dumpsStr s) := by
  have hbody : Plain (s.toList.flatMap escapeChar) := by
    intro c hc
    obtain ⟨d, -, hd⟩ := List.mem_flatMap.mp hc
    exact plain_escapeChar d c hd
  simp [dumpsStr, plain_cons, plain_append, hbody, plain_nil]

theorem plain_dumpsInt (n : Int) : Plain (dumpsInt n) := by
  have hdigits : Plain (Nat.toDigits 10 n.natAbs) := by
    intro c hc
    have hdigit := Nat.isDigit_of_mem_toDigits (by decide) (by decide) hc
    constructor <;> rintro rfl <;> exact absurd hdigit (by decide)
  unfold dumpsInt
  rw [plain_append]
  refine ⟨?_, hdigits⟩
  split <;> simp [Plain]

mutual

theorem plain_dumps : ∀ value : Json, Plain (dumps format value)
  | .null | .bool true | .bool false => by simp [dumps, Plain]
  | .int n => plain_dumpsInt n
  | .float x => format.plain x
  | .str s => plain_dumpsStr s
  | .arr items => by
      simp [dumps, plain_cons, plain_append, plain_nil, plain_dumpsItems items]
  | .obj fields => by
      simp [dumps, plain_cons, plain_append, plain_nil, plain_dumpsFields fields]

theorem plain_dumpsItems : ∀ items : List Json, Plain (dumpsItems format items)
  | [] => plain_nil
  | [item] => plain_dumps item
  | item :: next :: rest => by
      simp [dumpsItems, plain_cons, plain_append, plain_dumps item, plain_dumpsItems (next :: rest)]

theorem plain_dumpsFields : ∀ fields : List (String × Json), Plain (dumpsFields format fields)
  | [] => plain_nil
  | [(name, value)] => by
      simp [dumpsFields, plain_cons, plain_append, plain_dumpsStr, plain_dumps value]
  | (name, value) :: next :: rest => by
      simp [dumpsFields, plain_cons, plain_append, plain_dumpsStr, plain_dumps value,
        plain_dumpsFields (next :: rest)]

end

theorem plain_eventLine (event : Event) : Plain (eventLine event) := by
  cases h : event.event <;> simp [eventLine, h, SSEEventType.value, eventPrefix, Plain]

theorem plain_dataLine (event : Event) : Plain (dataLine format event) := by
  simp [dataLine, dataPrefix, plain_cons, plain_dumps]

end EnergyAgent.Stream
