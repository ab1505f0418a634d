import EnergyAgent.Lib.Json
import EnergyAgent.Lib.Keyset
import EnergyAgent.Timeline.GapFree
import Mathlib.Data.Prod.Lex
import Mathlib.Data.String.Basic

/-!
# The timeline that is shown

`TimelineService.get` puts the events of a session together with its steps, and with its result, reviews
and cases as far as no event tells of them, and sorts everything by the time, then by the number of an
event. The numbers are given under the lock of the session, the times are not: `create` reads the clock
before it waits for the lock. The order shown is the order of the numbers as long as every writer that
gets the row of a session is on time.
-/

namespace EnergyAgent.Timeline

open EnergyAgent.Lib

/-! ## `TimelineService.get` -/

abbrev Payload := List (String × Json)

structure TimelineItem where
  timelineId : String
  sequence : Nat
  kind : String
  runId : Option String
  timestamp : Nat
  status : Option String := none
  title : Option String := none
  payload : Payload

structure TimelineResponse where
  sessionId : String
  historyComplete : Bool
  items : List TimelineItem

structure StepLogRecord where
  id : Nat
  runId : Option String
  stepName : String
  stepStatus : String
  outputSnapshot : Option Payload
  errorCode : Option String
  startedAt : Nat

structure DiagnosisResultRecord where
  runId : String
  summary : String
  riskLevel : String
  evidence : List String
  createdAt : Nat

structure TimelineReviewRecord where
  reviewId : String
  runId : String
  reviewResult : String
  comments : Option String
  evidenceRefs : List String
  createdAt : Nat

structure DiagnosisCase where
  caseId : String
  sourceRunId : String
  reviewStatus : String
  caseVersion : Nat
  createdAt : Nat

/-- What the other ports return for the session. -/
structure SessionRecords where
  steps : List StepLogRecord
  latestResult : Option DiagnosisResultRecord
  reviews : List TimelineReviewRecord
  cases : List DiagnosisCase

inductive TimelineQueryError
  | resourceNotFound
  deriving DecidableEq, Repr

/-- `TimelineRepository.list` -/
def list (db : Database Payload) (sessionId : String) : List (TimelineEventRecord Payload) :=
  Keyset.orderBy (·.sequence) (db.events.filter fun e => e.sessionId = sessionId)

def eventKind : TimelineEventType → String
  | .reviewSubmitted => "review"
  | .caseCreated => "case_event"
  | type => type.value

def eventItem (event : TimelineEventRecord Payload) : TimelineItem where
  timelineId := event.eventId
  sequence := event.sequence * 100
  kind := eventKind event.eventType
  runId := event.runId
  timestamp := event.createdAt
  payload := event.payload

/-- The `index`-th step, from 1. -/
def stepItem (step : StepLogRecord) (index : Nat) : TimelineItem where
  timelineId := "step:" ++ toString step.id
  sequence := index * 100 + 50
  kind := if step.stepStatus = "FAILED" then "error"
    else if "tool.".isPrefixOf step.stepName then "tool_result"
    else "agent_progress"
  runId := step.runId
  timestamp := step.startedAt
  status := some step.stepStatus
  title := some step.stepName
  payload := [("output", .obj (step.outputSnapshot.getD [])),
    ("error_code", .str (step.errorCode.getD ""))]

def resultItem (result : DiagnosisResultRecord) : TimelineItem where
  timelineId := "result:" ++ result.runId
  sequence := 0
  kind := "diagnosis_result"
  runId := some result.runId
  timestamp := result.createdAt
  payload := [("summary", .str result.summary), ("risk_level", .str result.riskLevel),
    ("evidence_refs", .arr (result.evidence.map .str))]

def reviewItem (review : TimelineReviewRecord) : TimelineItem where
  timelineId := "review:" ++ review.reviewId
  sequence := 0
  kind := "review"
  runId := some review.runId
  timestamp := review.createdAt
  payload := [("review_id", .str review.reviewId), ("review_result", .str review.reviewResult),
    ("comments", .str (review.comments.getD "")),
    ("evidence_refs", .arr (review.evidenceRefs.map .str))]

def caseItem (case : DiagnosisCase) : TimelineItem where
  timelineId := "case:" ++ case.caseId
  sequence := 0
  kind := "case_event"
  runId := some case.sourceRunId
  timestamp := case.createdAt
  payload := [("case_id", .str case.caseId), ("case_status", .str case.reviewStatus),
    ("case_version", .int case.caseVersion)]

section get

variable (str : Json → String)

/-- `str(event.payload.get(key))` of the events of a type; `str` is Python's. -/
def persistedIds (events : List (TimelineEventRecord Payload)) (type : TimelineEventType)
    (key : String) : List String :=
  (events.filter fun e => e.eventType = type).map fun e =>
    str ((Json.field e.payload key).getD .null)

/-- The items as they are collected. -/
def collect (events : List (TimelineEventRecord Payload)) (records : SessionRecords) :
    List TimelineItem :=
  let resultRuns := (events.filter fun e => e.eventType = .diagnosisResult).map (·.runId)
  events.map eventItem ++
    (records.steps.zipIdx 1).map (fun (step, index) => stepItem step index) ++
    ((records.latestResult.filter fun r => some r.runId ∉ resultRuns).map resultItem).toList ++
    (records.reviews.filter fun r =>
      r.reviewId ∉ persistedIds str events .reviewSubmitted "review_id").map reviewItem ++
    (records.cases.filter fun c =>
      c.caseId ∉ persistedIds str events .caseCreated "case_id").map caseItem

/-- `(item.timestamp, item.sequence, item.timeline_id)` -/
def TimelineItem.sortKey (item : TimelineItem) : Nat ×ₗ Nat ×ₗ String :=
  toLex (item.timestamp, toLex (item.sequence, item.timelineId))

/-- The items get the numbers 1, 2, .... -/
def renumber (items : List TimelineItem) : List TimelineItem :=
  (items.zipIdx 1).map fun (item, index) => { item with sequence := index }

/-- `TimelineService.get` -/
def get (db : Database Payload) (records : SessionRecords) (sessionId : String) :
    Except TimelineQueryError TimelineResponse :=
  if sessionId ∉ db.sessions then .error .resourceNotFound
  else
    let events := list db sessionId
    .ok {
      sessionId
      historyComplete := events.any fun e => e.eventType = .userMessage
      items := renumber (Keyset.orderBy TimelineItem.sortKey (collect str events records)) }

end get

/-! ## The order of the events -/

/-- The event `e` is shown before the event `e'`. -/
def ShownBefore (items : List TimelineItem) (e e' : TimelineEventRecord Payload) : Prop :=
  ∃ n n', [{ eventItem e with sequence := n }, { eventItem e' with sequence := n' }].Sublist items

/-- Items keep their order when they are numbered. -/
theorem sublist_renumber {items : List TimelineItem} {x y : TimelineItem}
    (h : [x, y].Sublist items) : ∃ n n',
      [{ x with sequence := n }, { y with sequence := n' }].Sublist (renumber items) := by
  have hfst : (items.zipIdx 1).map Prod.fst = items := List.zipIdx_map_fst 1 items
  rw [← hfst] at h
  obtain ⟨numbered, hsub, heq⟩ := List.sublist_map_iff.mp h
  match numbered, heq with
  | [(x', n), (y', n')], heq =>
      cases heq
      have hmap := hsub.map fun (item, index) => { item with sequence := index }
      exact ⟨n, n', hmap⟩

section order

variable {str : Json → String} {db : Database Payload} {records : SessionRecords} {sessionId : String}
  {response : TimelineResponse} {e e' : TimelineEventRecord Payload}

/-- An event of the session is collected. -/
theorem eventItem_mem (he : e ∈ db.events) (hs : e.sessionId = sessionId) :
    eventItem e ∈ collect str (list db sessionId) records := by
  have hmem : e ∈ list db sessionId := by
    apply Keyset.mem_orderBy.mpr
    exact List.mem_filter.mpr ⟨he, decide_eq_true hs⟩
  simp only [collect, List.append_assoc]
  exact List.mem_append_left _ (List.mem_map_of_mem hmem)

/-- Of two events the one with the smaller number is shown first when its time is not later. -/
theorem shownBefore_of_times (hget : get str db records sessionId = .ok response)
    (he : e ∈ db.events) (he' : e' ∈ db.events) (hs : e.sessionId = sessionId)
    (hs' : e'.sessionId = sessionId) (hlt : e.sequence < e'.sequence)
    (htime : e.createdAt ≤ e'.createdAt) : ShownBefore response.items e e' := by
  have hkey : (eventItem e).sortKey < (eventItem e').sortKey := by
    show toLex (e.createdAt, toLex (e.sequence * 100, e.eventId)) <
      toLex (e'.createdAt, toLex (e'.sequence * 100, e'.eventId))
    rw [Prod.Lex.toLex_lt_toLex]
    rcases Nat.lt_or_eq_of_le htime with hearlier | hsame
    · exact Or.inl hearlier
    · right
      refine ⟨hsame, ?_⟩
      rw [Prod.Lex.toLex_lt_toLex]
      left
      show e.sequence * 100 < e'.sequence * 100
      omega
  unfold get at hget
  split at hget
  · cases hget
  · cases hget
    apply sublist_renumber
    exact Keyset.pair_sublist_orderBy (eventItem_mem he hs) (eventItem_mem he' hs') hkey

end order

/-! ## Every interleaving -/

section runs

variable {digest : String → String} {sessions : List String} {p : TimelinePool Payload}

/-- When the clock runs forward and the writers are on time, the times are in the order of the
numbers. -/
theorem times_of_reachable (h : (system digest sessions).ReachableVia Punctual p)
    (hclock : ClockRuns p.config.history) {e e' : TimelineEventRecord Payload}
    (he : e ∈ p.config.store.events) (he' : e' ∈ p.config.store.events)
    (hs : e.sessionId = e'.sessionId) (hlt : e.sequence < e'.sequence) :
    e.createdAt ≤ e'.createdAt := by
  have hkeeps : Keeps digest sessions True p.config :=
    (allSafe_of_reachable (h.mono fun _ _ hok _ => hok)).keeps
  have hincreasing := Table.Gapless.increasing hkeeps.sound.gapless
  have hordered := hincreasing.and (hkeeps.chronological trivial hclock)
  have hne : e ≠ e' := fun heq => absurd (heq ▸ hlt) (Nat.lt_irrefl _)
  rcases Keyset.rel_or_rel hordered he he' hne with ⟨-, htime⟩ | ⟨hnumber, -⟩
  · exact htime hs
  · exact absurd hlt (Nat.lt_asymm (hnumber hs.symm))

/-- **The timeline is shown in the order of its numbers** in every interleaving in which every writer
that gets the row of a session is on time. -/
theorem timeline_shown_in_order (h : (system digest sessions).ReachableVia Punctual p)
    (hclock : ClockRuns p.config.history) (str : Json → String) (records : SessionRecords)
    (sessionId : String) (response : TimelineResponse)
    (hget : get str p.config.store records sessionId = .ok response) :
    ∀ e ∈ p.config.store.events, ∀ e' ∈ p.config.store.events, e.sessionId = sessionId →
      e'.sessionId = sessionId → e.sequence < e'.sequence → ShownBefore response.items e e' := by
  intro e he e' he' hs hs' hlt
  exact shownBefore_of_times hget he he' hs hs' hlt
    (times_of_reachable h hclock he he' (hs.trans hs'.symm) hlt)

end runs

/-! ## Two runs -/

def emptyTimeline : TimelinePool Payload := ⟨⟨⟨["session-1"], [], [], [], [], 0, 0⟩, []⟩, []⟩

def noRecords : SessionRecords := ⟨[], none, [], []⟩

def answer : TimelineEvent Payload :=
  ⟨"session-1", .clarificationAnswer, "question-1", none, none, []⟩

def message : TimelineEvent Payload :=
  ⟨"session-1", .userMessage, "run-1", some "run-1", none, []⟩

/-- `create` with its message and an `append`: the steps with their writer and the time. -/
def moves (steps : List (Nat × Nat)) : List (Move (database Payload) (Request Payload)) :=
  [.start (.createRun sampleRun (some message)), .start (.append answer)] ++
    steps.map fun (i, now) => .step i now

theorem emptyTimeline_init : (system id ["session-1"]).init emptyTimeline :=
  ⟨⟨rfl, rfl, rfl, rfl, rfl⟩, rfl, rfl⟩

/-- All times that have been read are at least those of the events. -/
def checkPunctual (p : TimelinePool Payload) :
    Move (database Payload) (Request Payload) → Bool
  | .start _ => true
  | .step i _ =>
      match p.tasks[i]? with
      | some ⟨_, .call (.lockSession _ _) _⟩ =>
          (p.config.history.filterMap clockReading).all fun t =>
            p.config.store.events.all fun e => e.createdAt ≤ t
      | _ => true

theorem punctual_of_check (p : TimelinePool Payload) (m : Move (database Payload) (Request Payload))
    (h : checkPunctual p m = true) : Punctual p m := by
  cases m with
  | start r => trivial
  | step i now =>
      intro r op k htask
      cases op with
      | lockSession tx sessionId =>
          simp only [checkPunctual, htask] at h
          intro j t _ hread e he _
          obtain ⟨r', hmem⟩ := hread
          have hread' : t ∈ p.config.history.filterMap clockReading :=
            List.mem_filterMap.mpr ⟨_, hmem, rfl⟩
          have hall := List.all_eq_true.mp (List.all_eq_true.mp h t hread') e he
          exact of_decide_eq_true hall
      | _ => trivial

/-- `create` gets the session before the `append`. -/
def orderedMoves : List (Move (database Payload) (Request Payload)) :=
  moves [(0, 1), (0, 1), (0, 1), (0, 2), (0, 2), (1, 2), (1, 2), (1, 2), (1, 2), (1, 2), (1, 3)]

def orderedTimeline : TimelinePool Payload :=
  ((system id ["session-1"]).runChecked checkPunctual emptyTimeline orderedMoves).get
    (by decide +kernel)

theorem orderedTimeline_shown : ∃ response,
    get (fun _ => "") orderedTimeline.config.store noRecords "session-1" = .ok response ∧
    ∃ e ∈ orderedTimeline.config.store.events, ∃ e' ∈ orderedTimeline.config.store.events,
      e.sequence = 1 ∧ e'.sequence = 2 ∧ ShownBefore response.items e e' := by
  have hrun : (system id ["session-1"]).runChecked checkPunctual emptyTimeline orderedMoves =
      some orderedTimeline := (Option.some_get _).symm
  have hreached : (system id ["session-1"]).ReachableVia Punctual orderedTimeline :=
    .of_runChecked punctual_of_check (.init emptyTimeline_init) hrun
  have hclock : ClockRuns orderedTimeline.config.history := by
    unfold ClockRuns
    decide +kernel
  have hevents : ∃ e ∈ orderedTimeline.config.store.events,
      ∃ e' ∈ orderedTimeline.config.store.events, e.sequence = 1 ∧ e'.sequence = 2 ∧
        e.sessionId = "session-1" ∧ e'.sessionId = "session-1" := by
    decide +kernel
  obtain ⟨e, he, e', he', hone, htwo, hs, hs'⟩ := hevents
  refine ⟨_, rfl, e, he, e', he', hone, htwo, ?_⟩
  apply timeline_shown_in_order hreached hclock _ _ _ _ rfl e he e' he' hs hs'
  rw [hone, htwo]
  exact Nat.lt_succ_self 1

/-- The ids of the items shown are in the order of the events. -/
theorem ShownBefore.ids {items : List TimelineItem} {e e' : TimelineEventRecord Payload}
    (h : ShownBefore items e e') : [e.eventId, e'.eventId].Sublist (items.map (·.timelineId)) := by
  obtain ⟨n, n', hsub⟩ := h
  exact hsub.map (·.timelineId)

/-- `create` reads the clock and waits; the `append` gets the session and commits before it. -/
def overtakingMoves : List (Move (database Payload) (Request Payload)) :=
  moves [(0, 1), (1, 2), (1, 2), (1, 2), (1, 2), (1, 2), (1, 2), (0, 3), (0, 3), (0, 3), (0, 3)]

def overtakenTimeline : TimelinePool Payload :=
  ((system id ["session-1"]).run emptyTimeline overtakingMoves).get (by decide +kernel)

theorem overtakenTimeline_disordered : (system id ["session-1"]).Reachable overtakenTimeline ∧
    ClockRuns overtakenTimeline.config.history ∧ ∃ response,
      get (fun _ => "") overtakenTimeline.config.store noRecords "session-1" = .ok response ∧
      ∃ e ∈ overtakenTimeline.config.store.events,
        ∃ e' ∈ overtakenTimeline.config.store.events, e.sessionId = "session-1" ∧
          e'.sessionId = "session-1" ∧ e.sequence < e'.sequence ∧
          ¬ ShownBefore response.items e e' := by
  have hrun : (system id ["session-1"]).run emptyTimeline overtakingMoves = some overtakenTimeline :=
    (Option.some_get _).symm
  refine ⟨.of_run (.init emptyTimeline_init) hrun, ?_, _, rfl, ?_⟩
  · unfold ClockRuns
    decide +kernel
  have hevents : ∃ e ∈ overtakenTimeline.config.store.events,
      ∃ e' ∈ overtakenTimeline.config.store.events, e.sessionId = "session-1" ∧
        e'.sessionId = "session-1" ∧ e.sequence < e'.sequence ∧
        e.eventId = "session-1:clarification_answer:question-1" ∧
        e'.eventId = "session-1:user_message:run-1" := by
    decide +kernel
  obtain ⟨e, he, e', he', hs, hs', hlt, hid, hid'⟩ := hevents
  refine ⟨e, he, e', he', hs, hs', hlt, fun hshown => ?_⟩
  have hids := hshown.ids
  rw [hid, hid'] at hids
  revert hids
  decide +kernel

end EnergyAgent.Timeline
