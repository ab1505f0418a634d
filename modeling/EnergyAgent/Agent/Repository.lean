import EnergyAgent.Agent.State
import EnergyAgent.Lib.Process
import EnergyAgent.Lib.Table
import EnergyAgent.Lib.Text

/-!
# The stores of the diagnosis service

The tables `diagnosis_session`, `diagnosis_run`, `diagnosis_result` and `diagnosis_alarm_dedup` with
the calls of their repositories, the session memory in Redis, and the workflow's nodes, which are
calls as well: what a node answers is up to the tools and the model. Every call is one transaction;
`register` is not, and is modelled as the two it consists of.

All calls see one clock that does not go backwards, and `new_id` never draws an identifier twice
(`drawn`). A SHA-256 digest is its preimage. The database, Redis and the log of steps are taken to
answer; what they raise on bad input is modelled.
-/

namespace EnergyAgent.Agent

open EnergyAgent.Lib

/-! ## Requests -/

/-- `CreateSessionRequest`; the last field is its validator. -/
structure CreateSessionRequest where
  source : SessionSource
  siteId : Option String
  deviceId : Option String
  alarmId : Option String
  alarmName : Option String
  entities : source = .alarm → (Text.truthy deviceId).isSome ∧ (Text.truthy alarmId).isSome
  deriving DecidableEq

/-- `DiagnosisChatRequest`. -/
structure ChatRequest where
  sessionId : String
  message : String
  clarificationAnswers : List UserFeedback
  expectedMemoryRevision : Option Int
  followupMode : Option String
  deriving DecidableEq

/-- `request_fingerprint`: the scope and the payload that are hashed. -/
inductive Fingerprint
  | createSession (payload : CreateSessionRequest)
  | chat (sessionId : String) (payload : ChatRequest)
  deriving DecidableEq

/-! ## Tables -/

/-- A row of `diagnosis_session`. -/
structure SessionRow where
  id : String
  source : SessionSource
  siteId : Option String
  deviceId : Option String
  alarmId : Option String
  alarmName : Option String
  phase : DiagnosisPhase := .init
  finalSummary : Option String := none
  riskLevel : RiskLevel := .unknown
  traceId : String
  runId : String
  latestReviewStatus : Option String := none
  deriving DecidableEq

/-- `DiagnosisSessionUpdate`; a field that is not set stays as it is. -/
structure SessionUpdate where
  phase : Option DiagnosisPhase := none
  finalSummary : Option String := none
  riskLevel : Option RiskLevel := none
  runId : Option String := none
  latestReviewStatus : Option String := none

def SessionUpdate.apply (u : SessionUpdate) (row : SessionRow) : SessionRow :=
  { row with
    phase := u.phase.getD row.phase
    finalSummary := u.finalSummary.or row.finalSummary
    riskLevel := u.riskLevel.getD row.riskLevel
    runId := u.runId.getD row.runId
    latestReviewStatus := u.latestReviewStatus.or row.latestReviewStatus }

inductive RunType
  | sessionInit | diagnosis | clarification | explanation
  deriving DecidableEq, Repr

/-- A row of `diagnosis_run`. -/
structure RunRow where
  id : String
  sessionId : String
  traceId : String
  idempotencyKey : Option String
  requestHash : Fingerprint
  phase : DiagnosisPhase := .init
  status : String := "running"
  parentRunId : Option String := none
  runType : RunType
  diagnosisTemplateId : Option String := none
  diagnosisTemplateVersion : Option String := none
  alarmCategory : Option String := none
  createdAt : Nat := 0
  deriving DecidableEq

/-- A row of `diagnosis_result`. -/
structure ResultRow where
  runId : String
  sessionId : String
  result : DiagnosisResult
  createdAt : Nat
  deriving DecidableEq

/-- A row of `diagnosis_alarm_dedup`. The list of alarm ids is only ever extended and left out. -/
structure DedupRow where
  dedupKey : String
  sessionId : String
  expiresAt : Nat
  hitCount : Nat
  deriving DecidableEq, Repr

structure Store where
  sessions : List SessionRow
  runs : List RunRow
  results : List ResultRow
  memories : List SessionMemory
  dedup : List DedupRow
  drawn : List String
  clock : Nat

def Store.session (s : Store) (id : String) : Option SessionRow :=
  Table.get SessionRow.id s.sessions id

def Store.memory (s : Store) (sessionId : String) : Option SessionMemory :=
  Table.get SessionMemory.sessionId s.memories sessionId

def Store.dedupRow (s : Store) (key : String) : Option DedupRow :=
  Table.get DedupRow.dedupKey s.dedup key

/-! ## The workflow as the service sees it -/

/-- What a node leaves: the updated state (with the data of the tools, and the result it handed to
the memory writer), or an exception. -/
inductive NodeOutcome (δ : Type)
  | done (state : DiagnosisState) (toolData : δ) (written : Option DiagnosisResult)
  | failed

/-- A compiled graph. A node returns the fields it changes; the identity of the run, its revision
and the feedback are never among them. -/
structure Runtime where
  Node : Type
  ToolData : Type
  NodeInput : Type
  entry : Node
  noData : ToolData
  name : Node → String
  run : Node → DiagnosisState → ToolData → NodeInput → NodeOutcome ToolData
  next : Node → DiagnosisState → Option Node
  sameRun : ∀ {n state toolData x state' toolData' written},
    run n state toolData x = .done state' toolData' written → state.SameRun state'

/-! ## Calls -/

/-- What the environment decides about a call. -/
structure CallInput (rt : Runtime) where
  now : Nat
  sessionId : String
  runId : String
  /-- Which of several newest rows a query returns. -/
  pick : String
  node : rt.NodeInput

structure DedupSettings where
  window : Nat
  normalizeAlarmCategory : String → String

/-- `alarm_dedup_key`, before it is hashed. -/
def DedupSettings.key (d : DedupSettings) (deviceId alarmName : String) : String :=
  deviceId ++ "\x00" ++ d.normalizeAlarmCategory alarmName

structure AlarmDedupHit where
  sessionId : String
  hitCount : Nat
  deriving DecidableEq, Repr

inductive Op (rt : Runtime)
  | getSession (id : String)
  | createSession (values : String → String → SessionRow)
  | updateSession (id : String) (update : SessionUpdate)
  | createRun (values : String → RunRow)
  | findIdempotent (sessionId key : String)
  | findIdempotentGlobal (key : String)
  | latestRun (sessionId : String)
  | finishRun (runId : String) (phase : DiagnosisPhase) (status : String)
  | setTemplate (runId : String) (templateId version category : Option String)
  | latestResult (sessionId : String)
  | getMemory (sessionId : String)
  | saveMemory (payload : SessionMemory)
  | expireMemory (sessionId : String)
  /-- `AlarmDedupRepository.hit`. -/
  | hit (key : String)
  /-- The read of `register`. -/
  | registered (key : String)
  /-- The write of `register`: an `INSERT` when the read found nothing, an `UPDATE` otherwise. -/
  | register (key sessionId : String) (found : Bool)
  | node (n : rt.Node) (state : DiagnosisState) (toolData : rt.ToolData)

abbrev Ans (rt : Runtime) : Op rt → Type
  | .getSession _ => Option SessionRow
  | .createSession _ => String × String
  | .updateSession _ _ => Bool
  | .createRun _ => Option String
  | .findIdempotent _ _ => Option RunRow
  | .findIdempotentGlobal _ => Option RunRow
  | .latestRun _ => Option RunRow
  | .finishRun _ _ _ => Unit
  | .setTemplate _ _ _ _ => Unit
  | .latestResult _ => Option ResultRow
  | .getMemory _ => Option SessionMemory
  | .saveMemory _ => Unit
  | .expireMemory _ => Unit
  | .hit _ => Option AlarmDedupHit × Nat
  | .registered _ => Bool
  | .register _ _ _ => Option Nat
  | .node _ _ _ => NodeOutcome rt.ToolData

/-- `ORDER BY created_at DESC LIMIT 1`; of rows of the same time any may come first. -/
def newest {ρ : Type} (createdAt : ρ → Nat) (id : ρ → String) (pick : String) (rows : List ρ) :
    Option ρ :=
  let last := rows.filter (fun r => rows.all (fun r' => createdAt r' ≤ createdAt r))
  (last.find? (fun r => id r = pick)).or last.head?

/-- Insert a run; `none` when a constraint refuses the row. -/
def createRun (values : String → RunRow) (now : Nat) (runId : String) (s : Store) :
    Option String × Store :=
  let row := { values runId with createdAt := now }
  if (s.runs.any fun r => r.id = row.id ∨
        (r.sessionId = row.sessionId ∧ r.idempotencyKey.isSome ∧
          r.idempotencyKey = row.idempotencyKey)) ∨ (s.session row.sessionId).isNone then (none, s)
  else (some row.id, { s with runs := s.runs ++ [row] })

/-- `hit`: an unexpired row of a session that has not failed counts the alarm. -/
def hit (window : Nat) (key : String) (now : Nat) (s : Store) : Option AlarmDedupHit × Store :=
  match s.dedupRow key with
  | none => (none, s)
  | some model =>
      if model.expiresAt ≤ now then (none, s)
      else match s.session model.sessionId with
        | none => (none, s)
        | some diagnosis =>
            if diagnosis.phase = .failed then (none, s)
            else
              (some ⟨model.sessionId, model.hitCount + 1⟩,
                { s with dedup := Table.update DedupRow.dedupKey s.dedup key fun r =>
                  { r with expiresAt := now + window, hitCount := r.hitCount + 1 } })

/-- The write of `register`; `none` is the `IntegrityError` of a key that is taken. -/
def register (window : Nat) (key sessionId : String) (found : Bool) (now : Nat) (s : Store) :
    Option Nat × Store :=
  let row : DedupRow := ⟨key, sessionId, now + window, 1⟩
  if found then
    (some now, { s with dedup := Table.update DedupRow.dedupKey s.dedup key fun _ => row })
  else match Table.insert? DedupRow.dedupKey s.dedup row with
    | some dedup => (some now, { s with dedup := dedup })
    | none => (none, s)

/-- `results.upsert`. -/
def upsertResult (state : DiagnosisState) (result : DiagnosisResult) (now : Nat) (s : Store) :
    Store :=
  { s with results :=
      match Table.get ResultRow.runId s.results state.runId with
      | some old => Table.update ResultRow.runId s.results state.runId fun _ =>
          ⟨state.runId, state.sessionId, result, old.createdAt⟩
      | none => s.results ++ [⟨state.runId, state.sessionId, result, now⟩] }

variable {rt : Runtime} (settings : DedupSettings)

/-- One call at the time `s.clock`. -/
def execNow : (op : Op rt) → CallInput rt → Store → Option (Ans rt op × Store)
  | .getSession id, _, s => some (s.session id, s)
  | .createSession values, x, s =>
      if x.sessionId ∈ s.drawn ∨ x.runId ∈ s.drawn ∨ x.sessionId = x.runId then none
      else some ((x.sessionId, x.runId),
        { s with
          sessions := s.sessions ++ [values x.sessionId x.runId]
          drawn := x.sessionId :: x.runId :: s.drawn })
  | .updateSession id update, _, s =>
      some ((s.session id).isSome,
        { s with sessions := Table.update SessionRow.id s.sessions id update.apply })
  | .createRun values, x, s =>
      if x.runId ∈ s.drawn then none
      else some (createRun values s.clock x.runId { s with drawn := x.runId :: s.drawn })
  | .findIdempotent sessionId key, _, s =>
      some (s.runs.find? fun r => r.sessionId = sessionId ∧ r.idempotencyKey = some key, s)
  | .findIdempotentGlobal key, x, s =>
      some (newest RunRow.createdAt RunRow.id x.pick
        (s.runs.filter fun r => r.idempotencyKey = some key), s)
  | .latestRun sessionId, x, s =>
      some (newest RunRow.createdAt RunRow.id x.pick
        (s.runs.filter fun r => r.sessionId = sessionId), s)
  | .finishRun runId phase status, _, s =>
      some ((), { s with runs := Table.update RunRow.id s.runs runId fun r =>
        { r with phase := phase, status := status } })
  | .setTemplate runId templateId version category, _, s =>
      some ((), { s with runs := Table.update RunRow.id s.runs runId fun r =>
        { r with
          diagnosisTemplateId := templateId
          diagnosisTemplateVersion := version
          alarmCategory := category } })
  | .latestResult sessionId, x, s =>
      some (newest ResultRow.createdAt ResultRow.runId x.pick
        (s.results.filter fun r => r.sessionId = sessionId), s)
  | .getMemory sessionId, _, s => some (s.memory sessionId, s)
  | .saveMemory payload, _, s =>
      some ((), { s with memories := Table.upsert SessionMemory.sessionId s.memories payload })
  | .expireMemory sessionId, _, s =>
      some ((), { s with memories := Table.delete SessionMemory.sessionId s.memories sessionId })
  | .hit key, _, s =>
      let (found, s') := hit settings.window key s.clock s
      some ((found, s.clock), s')
  | .registered key, _, s => some ((s.dedupRow key).isSome, s)
  | .register key sessionId found, _, s =>
      some (register settings.window key sessionId found s.clock s)
  | .node n state toolData, x, s =>
      match rt.run n state toolData x.node with
      | .failed => some (.failed, s)
      | .done state' toolData' written =>
          some (.done state' toolData' written,
            match written with
            | some result => upsertResult state result s.clock s
            | none => s)

/-- A call; the clock has moved on. -/
def exec (op : Op rt) (x : CallInput rt) (s : Store) : Option (Ans rt op × Store) :=
  if x.now < s.clock then none else execNow settings op x { s with clock := x.now }

abbrev backend (rt : Runtime) : Backend where
  Op := Op rt
  Ans := Ans rt
  Store := Store
  Input := CallInput rt
  exec := exec settings

end EnergyAgent.Agent
