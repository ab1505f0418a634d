import EnergyAgent.Agent.Repository
import EnergyAgent.Core.Context
import EnergyAgent.Lib.Process
import EnergyAgent.Lib.Table

/-!
# The two writers of the timeline

`TimelineRepository.append` and `DiagnosisRunRepository.create` as programs of database calls. What
is between `begin` and `commit` is one transaction. `SELECT ... FOR UPDATE` of a session row waits
while another transaction holds the row. What a transaction inserts is seen by nobody before its
`commit`, and stands in that call here, with the constraints that may refuse it and roll the
transaction back. The database may roll back a transaction at any time (`kill`): a lost connection,
a deadlock.

A row has an autoincremented id, and the time at which its writer has read the clock: `append` reads it
when it holds the session, `create` before its transaction begins. The payload of an event is left open
(`π`).
-/

namespace EnergyAgent.Timeline

open EnergyAgent.Lib
open EnergyAgent.Agent (RunRow)

inductive TimelineEventType
  | userMessage | clarificationQuestion | clarificationAnswer | diagnosisResult | reviewSubmitted
  | caseCreated
  deriving DecidableEq, Repr

def TimelineEventType.value : TimelineEventType → String
  | .userMessage => "user_message"
  | .clarificationQuestion => "clarification_question"
  | .clarificationAnswer => "clarification_answer"
  | .diagnosisResult => "diagnosis_result"
  | .reviewSubmitted => "review_submitted"
  | .caseCreated => "case_created"

/-- `timeline_event_id`; `digest` is SHA-256. -/
def timelineEventId (digest : String → String) (sessionId : String) (eventType : TimelineEventType)
    (key : String) : String :=
  digest (sessionId ++ ":" ++ eventType.value ++ ":" ++ key)

structure TimelineEventCreate (π : Type) where
  eventId : String
  sessionId : String
  runId : Option String
  eventType : TimelineEventType
  actorId : Option String
  actorRole : Option Core.ActorRole
  payload : π
  deriving DecidableEq

structure TimelineEventRecord (π : Type) extends TimelineEventCreate π where
  id : Nat
  sequence : Nat
  createdAt : Nat
  deriving DecidableEq

/-- The arguments of `TimelineService.create`. -/
structure TimelineEvent (π : Type) where
  sessionId : String
  eventType : TimelineEventType
  key : String
  runId : Option String
  actor : Option Core.ActorContext
  payload : π

/-- `TimelineService.create`. -/
def TimelineEvent.create {π : Type} (digest : String → String) (event : TimelineEvent π) :
    TimelineEventCreate π where
  eventId := timelineEventId digest event.sessionId event.eventType event.key
  sessionId := event.sessionId
  runId := event.runId
  eventType := event.eventType
  actorId := event.actor.map (·.actorId)
  actorRole := event.actor.map (·.actorRole)
  payload := event.payload

/-! ## The database -/

/-- The committed rows, the transactions that are open and the session rows they hold. -/
structure Database (π : Type) where
  sessions : List String
  runs : List RunRow
  events : List (TimelineEventRecord π)
  /-- A session row with the transaction that has selected it for update. -/
  locks : List (String × Nat)
  active : List Nat
  begun : Nat
  autoincrement : Nat

namespace Database

variable {π : Type}

def maxSequence (db : Database π) (sessionId : String) : Nat :=
  Table.maxNumber (fun e : TimelineEventRecord π => e.sessionId) (·.sequence) db.events sessionId

/-- The transaction is over, its rows are free. -/
def release (db : Database π) (tx : Nat) : Database π :=
  { db with
    active := db.active.filter (· ≠ tx)
    locks := db.locks.filter (·.2 ≠ tx) }

/-- `INSERT` into `diagnosis_run`; `none` when a constraint refuses the row. -/
def insertRun (db : Database π) (run : RunRow) : Option (Database π) :=
  if run.sessionId ∉ db.sessions ∨ (∃ r ∈ db.runs, r.id = run.id ∨
      (r.sessionId = run.sessionId ∧ r.idempotencyKey.isSome ∧
        r.idempotencyKey = run.idempotencyKey)) then none
  else some { db with runs := db.runs ++ [run] }

/-- `INSERT` into `diagnosis_timeline_event`; `none` when a constraint refuses the row. -/
def insertEvent (db : Database π) (event : TimelineEventCreate π) (sequence createdAt : Nat) :
    Option (TimelineEventRecord π × Database π) :=
  if event.sessionId ∉ db.sessions ∨ (∃ e ∈ db.events, e.eventId = event.eventId ∨
      (e.sessionId = event.sessionId ∧ e.sequence = sequence)) then none
  else
    let record :=
      { event with id := db.autoincrement, sequence := sequence, createdAt := createdAt }
    some (record, { db with
      events := db.events ++ [record], autoincrement := db.autoincrement + 1 })

/-- The inserts of a transaction, one after the other. -/
def insert (db : Database π) (run : Option RunRow)
    (event : Option (TimelineEventCreate π × Nat × Nat)) :
    Option (Option (TimelineEventRecord π) × Database π) :=
  (match run with
    | some run => db.insertRun run
    | none => some db).bind fun db =>
      match event with
      | some (event, sequence, createdAt) =>
          (db.insertEvent event sequence createdAt).map fun (record, db) => (some record, db)
      | none => some (none, db)

end Database

inductive Op (π : Type)
  /-- `utc_now()` -/
  | utcNow
  | begin
  /-- `SELECT id FROM diagnosis_session WHERE id = ... FOR UPDATE` -/
  | lockSession (tx : Nat) (sessionId : String)
  | findEvent (tx : Nat) (eventId : String)
  | maxSequence (tx : Nat) (sessionId : String)
  /-- The inserts (an event with its number and time) and the `COMMIT`; `none` is the
  `IntegrityError` of a refused row. -/
  | commit (tx : Nat) (run : Option RunRow) (event : Option (TimelineEventCreate π × Nat × Nat))
  /-- The database rolls the transaction back. -/
  | kill (tx : Nat)

def Ans (π : Type) : Op π → Type
  | .utcNow => Nat
  | .begin => Nat
  | .lockSession _ _ => Unit
  | .findEvent _ _ => Option (TimelineEventRecord π)
  | .maxSequence _ _ => Nat
  | .commit _ _ _ => Option (Option (TimelineEventRecord π))
  | .kill _ => Unit

/-- The transaction of a call. -/
def Op.tx {π : Type} : Op π → Option Nat
  | .lockSession tx _ | .findEvent tx _ | .maxSequence tx _ | .commit tx _ _ => some tx
  | .utcNow | .begin | .kill _ => none

/-- One statement at time `now`. A lock that another transaction holds is waited for, and a
transaction that has been rolled back makes no call any more. -/
def exec {π : Type} : (op : Op π) → Nat → Database π → Option (Ans π op × Database π)
  | .utcNow, now, db => some (now, db)
  | .begin, _, db =>
      some (db.begun, { db with begun := db.begun + 1, active := db.begun :: db.active })
  | .lockSession tx sessionId, _, db =>
      if tx ∉ db.active ∨ (∃ lock ∈ db.locks, lock.1 = sessionId ∧ lock.2 ≠ tx) then none
      else some ((), if sessionId ∈ db.sessions then
        { db with locks := (sessionId, tx) :: db.locks } else db)
  | .findEvent tx eventId, _, db =>
      if tx ∉ db.active then none
      else some (db.events.find? fun e => e.eventId = eventId, db)
  | .maxSequence tx sessionId, _, db =>
      if tx ∉ db.active then none
      else some (db.maxSequence sessionId, db)
  | .commit tx run event, _, db =>
      if tx ∉ db.active then none
      else match (db.release tx).insert run event with
        | some (record, db') => some (some record, db')
        | none => some (none, db.release tx)
  | .kill tx, _, db => some ((), db.release tx)

def database (π : Type) : Backend where
  Op := Op π
  Ans := Ans π
  Store := Database π
  Input := Nat
  exec := exec

/-! ## The writers -/

inductive TimelineError
  | integrityError | dependencyUnavailable
  deriving DecidableEq, Repr

abbrev Call (π : Type) := Proc (database π) TimelineError

section programs

variable {π : Type}

def ask (op : Op π) : Call π (Ans π op) := Proc.call (B := database π) op .ret

def orRaise {α : Type} (e : TimelineError) : Option α → Call π α
  | some a => .ret a
  | none => .raise e

/-- `TimelineRepository.append` -/
def append (payload : TimelineEventCreate π) : Call π (TimelineEventRecord π) := do
  let tx ← ask .begin
  ask (.lockSession tx payload.sessionId)
  match ← ask (.findEvent tx payload.eventId) with
  | some existing => do
      let _committed ← ask (.commit tx none none)
      return existing
  | none => do
      let highest : Nat ← ask (.maxSequence tx payload.sessionId)
      let now : Nat ← ask .utcNow
      let committed ← ask (.commit tx none (some (payload, highest + 1, now)))
      orRaise .integrityError committed.join

/-- `DiagnosisRunRepository.create` -/
def createRun (run : RunRow) (timelineEvent : Option (TimelineEventCreate π)) :
    Call π RunRow := do
  let now : Nat ← ask .utcNow
  let tx ← ask .begin
  match timelineEvent with
  | none => do
      let _committed ← orRaise .dependencyUnavailable (← ask (.commit tx (some run) none))
      return run
  | some event => do
      ask (.lockSession tx event.sessionId)
      let highest : Nat ← ask (.maxSequence tx event.sessionId)
      let _committed ← orRaise .dependencyUnavailable
        (← ask (.commit tx (some run) (some (event, highest + 1, now))))
      return run

inductive Request (π : Type)
  | append (event : TimelineEvent π)
  | createRun (run : RunRow) (timelineEvent : Option (TimelineEvent π))
  | kill (tx : Nat)

inductive Reply (π : Type)
  | event (record : TimelineEventRecord π)
  | run (run : RunRow)
  | unit

variable (digest : String → String)

def serve : Request π → Call π (Reply π)
  | .append event => append (event.create digest) >>= fun record => .ret (.event record)
  | .createRun run timelineEvent =>
      createRun run (timelineEvent.map (·.create digest)) >>= fun run => .ret (.run run)
  | .kill tx => ask (.kill tx) >>= fun _ => .ret .unit

/-- An empty timeline of these sessions; nobody has begun. -/
def Empty (sessions : List String) (db : Database π) : Prop :=
  db.sessions = sessions ∧ db.events = [] ∧ db.locks = [] ∧ db.active = [] ∧ db.begun = 0

/-- All interleavings of the writers. -/
def system (sessions : List String) :
    TransitionSystem (Pool (database π) (Request π) TimelineError (Reply π))
      (Move (database π) (Request π)) :=
  Pool.system (Empty sessions) (serve digest)

end programs

end EnergyAgent.Timeline
