import EnergyAgent.Cases.Acceptance
import EnergyAgent.Cases.Queueing
import EnergyAgent.Indexing.Concurrent
import EnergyAgent.Indexing.DrainAgreement

/-!
# Consumers side by side

Any number of consumers, each somewhere in `IndexConsumer.consume`, beside the case API, the
publisher, the operator and the ingestion. A message that was sent can be handed out at any time and any
number of times, and a consumer can die at any point.

`start` leaves a finished job alone, but `finish` and `fail` look at nothing: a consumer that started
before another one finished writes the job once more. If a job is only started while no one else is at
work on it, and the acknowledgement after `finish` does not raise, then a finished job stays as it is.
-/

namespace EnergyAgent.Cases

open EnergyAgent.Lib EnergyAgent.Persistence EnergyAgent.Indexing

variable {γ : Type}

/-! ## The system -/

/-- A message that was handed out. Without a stage its consumer has returned, raised or died. -/
structure Delivery where
  event : IndexJobMessage
  stage : Option Stage

/-- The store and all deliveries so far. -/
structure Consumers (γ : Type) where
  world : World γ
  deliveries : List Delivery

inductive ConsumerMove (γ : Type)
  /-- A step of the life cycle that no worker takes. -/
  | elsewhere (label : Label γ)
  /-- The broker hands out a message, for the first time or once more. -/
  | deliver (event : IndexJobMessage)
  /-- Delivery `i` takes one step. -/
  | advance (i : Nat) (ports : ConsumerPorts γ)
  /-- The consumer of delivery `i` dies. -/
  | die (i : Nat)

def Label.ofWorker : Label γ → Bool
  | .consume _ _ | .drain _ _ => true
  | _ => false

namespace Consumers

/-- Delivery `i` has come to `next`, and has left `w` behind. -/
def moveOn (p : Consumers γ) (i : Nat) (event : IndexJobMessage) (next : Next) (w : World γ) :
    Consumers γ :=
  ⟨next.close event w, p.deliveries.set i ⟨event, next.stage⟩⟩

def step (settings : CaseSettings) (p : Consumers γ) : ConsumerMove γ → Option (Consumers γ)
  | .elsewhere label =>
      if label.ofWorker then none
      else (Cases.step settings p.world label).map fun w => { p with world := w }
  | .deliver event =>
      if event ∈ p.world.queue ∨ event ∈ p.deliveries.map (·.event) then
        some ⟨receive event p.world, p.deliveries ++ [⟨event, some .delivered⟩]⟩
      else none
  | .advance i ports =>
      match p.deliveries[i]? with
      | some ⟨event, some stage⟩ =>
          let result := advance ports event stage p.world
          some (p.moveOn i event result.1 result.2)
      | _ => none
  | .die i =>
      match p.deliveries[i]? with
      | some ⟨event, some _⟩ => some (p.moveOn i event .back p.world)
      | _ => none

end Consumers

/-- The system, from empty case, job and message tables. -/
def consumers (settings : CaseSettings) : TransitionSystem (Consumers γ) (ConsumerMove γ) where
  init p := (lifecycle settings).init p.world ∧ p.deliveries = []
  step := Consumers.step settings

/-! ## Requests and the jobs -/

/-- A property of the jobs and of the messages that wait for a consumer, which a new job does not
take away. -/
structure JobInvariant (I : World γ → Prop) : Prop where
  congr : ∀ {w w' : World γ}, I w → w'.jobs = w.jobs → w'.outbox = w.outbox → w'.queue = w.queue →
    I w'
  addJob : ∀ {w w' : World γ} {request : IndexJobCreate} {jobId : String} {rec : IndexJobRecord},
    I w → addJob request jobId w = .ok (rec, w') → I w'

section requests

variable {I : World γ → Prop}

theorem JobInvariant.core (hI : JobInvariant I) {w w' : World γ} (h : SameCore w w') (hw : I w) :
    I w' :=
  hI.congr hw h.jobs h.outbox h.queue

theorem JobInvariant.fetch {caseId : String} :
    Prog.Keeps I (fetch caseId : Service γ DiagnosisCase) := by
  refine .bind (keeps_get caseId) fun found => ?_
  cases found with
  | none => exact .raise _
  | some case => exact .pure _

theorem JobInvariant.create (hI : JobInvariant I) {values : Option DiagnosisCaseModel} :
    Prog.Keeps I (create values : Service γ DiagnosisCase) := by
  refine .bind (.transaction fun w row w' hw h => ?_) fun _ => .lift _
  obtain ⟨-, -, rfl⟩ := insertCase_eq_ok h
  exact hI.congr hw rfl rfl rfl

theorem JobInvariant.appendEvent (hI : JobInvariant I) {event : CaseReviewEventModel} :
    Prog.Keeps I (appendEvent event : Service γ Unit) := by
  refine .transaction fun w _ w' hw h => ?_
  obtain ⟨w₁, hadd, hpair⟩ := Prog.except_map_eq_ok h
  cases hpair
  rw [addEvent_eq_ok hadd]
  exact hI.congr hw rfl rfl rfl

theorem JobInvariant.updateDraft (hI : JobInvariant I) {caseId actorId : String}
    {patch : CasePatchRequest} {privileged : Bool} :
    Prog.Keeps I (updateDraft caseId patch actorId privileged : Service γ DiagnosisCase) := by
  refine .bind (.transaction fun w row w' hw h => ?_) fun _ => .lift _
  obtain ⟨_, _, _, _, _, rfl⟩ := writeDraft_eq_ok h
  exact hI.congr hw rfl rfl rfl

theorem JobInvariant.transition (hI : JobInvariant I) {indexRepository : Bool} {t : CaseTransition}
    {jobId : String} :
    Prog.Keeps I (transition indexRepository t jobId : Service γ CaseTransitionResult) := by
  refine .bind (.transaction fun w result w' hw h => ?_) fun _ => .bind (.lift _) fun _ => .pure _
  obtain ⟨row, replayed⟩ := result
  rcases applyTransition_eq_ok h with ⟨-, rfl, -⟩ | ⟨-, model, -, -, -, -, hjob⟩
  · exact hw
  · rcases addIndexJob_eq_ok hjob with ⟨-, rfl⟩ | ⟨r, rec, -, hadd⟩
    · exact hI.congr hw rfl rfl rfl
    · refine hI.addJob ?_ hadd
      exact hI.congr hw rfl rfl rfl

theorem JobInvariant.queueIndex (hI : JobInvariant I) {indexRepository : Bool} {caseId jobId : String}
    {request : IndexJobCreate} {event : CaseStatus → CaseReviewEventModel} :
    Prog.Keeps I
      (queueIndex indexRepository caseId request event jobId : Service γ DiagnosisCase) := by
  refine .bind .raiseIf fun _ => .bind (.transaction fun w row w' hw h => ?_) fun _ => .lift _
  obtain ⟨model, rec, -, -, hadd⟩ := applyQueueIndex_eq_ok h
  refine hI.addJob ?_ hadd
  exact hI.congr hw rfl rfl rfl

theorem JobInvariant.index (hI : JobInvariant I) {call : CaseCall} {case : DiagnosisCase} :
    Prog.Keeps I (index call case : Service γ DiagnosisCase) :=
  keeps_index hI.core fun _ _ _ _ _ h => hI.congr h rfl rfl rfl

theorem JobInvariant.tombstone (hI : JobInvariant I) {call : CaseCall} {case : DiagnosisCase} :
    Prog.Keeps I (tombstone call case : Service γ DiagnosisCase) := by
  have hset : ∀ {status : CaseIndexStatus} {errorCode text : Option String} {active : Bool},
      Prog.Keeps I (setIndex case.row.caseId status errorCode text active :
        Service γ DiagnosisCase) := keeps_setIndex fun _ h => hI.congr h rfl rfl rfl
  refine .handle (.bind ?_ fun _ => hset) fun _ => hset
  unfold deleteCaseVector
  cases call.milvus with
  | none => exact .pure _
  | some milvus =>
      refine keeps_vectorCall (fun _ h => ?_) _
      exact hI.congr h rfl rfl rfl

variable {settings : CaseSettings} {call : CaseCall}

theorem JobInvariant.supersede (hI : JobInvariant I) {caseId : String} :
    Prog.Keeps I (supersede settings call caseId : Service γ Unit) := by
  refine .bind JobInvariant.fetch fun _ => .bind hI.transition fun result => ?_
  cases settings.indexExecutionMode with
  | sync => exact .bind hI.tombstone fun _ => .pure _
  | rabbitmq => exact .pure _

theorem JobInvariant.submit (hI : JobInvariant I) {caseId : String} :
    Prog.Keeps I (submit settings call caseId : Service γ DiagnosisCase) := by
  refine .bind JobInvariant.fetch fun _ => .bind .raiseIf fun _ => .bind .raiseIf fun _ => ?_
  exact .bind hI.transition fun _ => .pure _

theorem JobInvariant.afterApproval (hI : JobInvariant I) {approved : DiagnosisCase} :
    Prog.Keeps I (afterApproval settings call approved : Service γ DiagnosisCase) := by
  refine .bind ?_ fun updated => ?_
  · unfold indexApproved
    cases settings.indexExecutionMode with
    | sync => exact hI.index
    | rabbitmq => exact .pure _
  · unfold supersedeReplaced
    split
    · exact .bind hI.supersede fun _ => .pure _
    · exact .pure _

theorem JobInvariant.reviewCase (hI : JobInvariant I) {caseId : String}
    {payload : CaseReviewRequest} : Prog.Keeps I (reviewCase settings call caseId payload : Service γ DiagnosisCase) := by
  refine .bind JobInvariant.fetch fun _ => .bind .raiseIf fun _ => ?_
  refine .bind hI.transition fun result => ?_
  split
  · exact .pure _
  · exact hI.afterApproval

theorem JobInvariant.disable (hI : JobInvariant I) {caseId : String} {payload : CaseDisableRequest} :
    Prog.Keeps I (disable settings call caseId payload : Service γ DiagnosisCase) := by
  refine .bind JobInvariant.fetch fun _ => .bind hI.transition fun _ => ?_
  cases settings.indexExecutionMode with
  | sync => exact hI.tombstone
  | rabbitmq => exact .pure _

theorem JobInvariant.revision (hI : JobInvariant I) {caseId : String}
    {payload : CaseRevisionRequest} : Prog.Keeps I (revision settings call caseId payload : Service γ DiagnosisCase) := by
  refine .bind JobInvariant.fetch fun _ => .bind keeps_revisionReplay fun replay => ?_
  cases replay with
  | some existing => exact .pure _
  | none =>
      refine .bind .raiseIf fun _ => .bind (.read _) fun _ => .bind hI.create fun _ => ?_
      refine .bind hI.appendEvent fun _ => ?_
      split
      · exact hI.submit
      · exact .pure _

theorem JobInvariant.reindex (hI : JobInvariant I) {caseId : String} :
    Prog.Keeps I (reindex settings call caseId : Service γ DiagnosisCase) := by
  refine .bind JobInvariant.fetch fun case => .bind (.read _) fun event => ?_
  cases event with
  | some event => exact .bind .raiseIf fun _ => JobInvariant.fetch
  | none =>
      simp only [runReindex]
      cases reindexOperation case.row with
      | none => exact .raise _
      | some operation =>
          cases settings.indexExecutionMode with
          | rabbitmq => exact hI.queueIndex
          | sync =>
              refine .bind hI.appendEvent fun _ => ?_
              split
              · exact hI.tombstone
              · exact hI.index

/-- **Requests add jobs, and do nothing else to them.** -/
theorem JobInvariant.run (hI : JobInvariant I) (request : CaseRequest) :
    Prog.Keeps I (request.run settings call : Service γ DiagnosisCase) := by
  cases request with
  | createDraft draft => exact .bind (.read _) fun _ => hI.create
  | patch caseId payload => exact hI.updateDraft
  | submit caseId => exact hI.submit
  | review caseId payload => exact hI.reviewCase
  | disable caseId payload => exact hI.disable
  | revision caseId payload => exact hI.revision
  | reindex caseId => exact hI.reindex

end requests

theorem getJob_addJob {w w' : World γ} {request : IndexJobCreate} {jobId : String}
    {rec : IndexJobRecord} {k : String} {job : IndexJobModel}
    (hadd : addJob request jobId w = .ok (rec, w')) (h : w.getJob k = some job) :
    w'.getJob k = some job := by
  rcases addJob_cases hadd with ⟨-, rfl⟩ | ⟨-, -, -, rfl⟩
  · exact h
  · exact Table.get_append_of_some h

theorem jobInvariant_getJob (k : String) (job : IndexJobModel) :
    JobInvariant fun w : World γ => w.getJob k = some job where
  congr h hjobs _ _ := (World.getJob_congr hjobs).trans h
  addJob h hadd := getJob_addJob hadd h

/-- Whoever is no worker leaves a job alone that is neither pending nor failed. -/
theorem getJob_elsewhere {settings : CaseSettings} {label : Label γ} {w w' : World γ} {k : String}
    {job : IndexJobModel} (hlabel : label.ofWorker = false)
    (hstep : Cases.step settings w label = some w') (h : w.getJob k = some job)
    (hpending : job.status ≠ .pending) (hfailed : job.status ≠ .failed) : w'.getJob k = some job := by
  cases label with
  | consume ports event => cases hlabel
  | drain ports events => cases hlabel
  | api call request =>
      cases hstep
      exact ((jobInvariant_getJob k job).run request).snd h
  | ingest tickets documents chunks =>
      cases hstep
      exact h
  | requestIndex request jobId =>
      simp only [Cases.step] at hstep
      split at hstep
      · cases hstep
      · split at hstep
        · next hadd =>
            cases hstep
            exact getJob_addJob hadd h
        · cases hstep
  | retry jobId traceId =>
      cases hstep
      unfold Indexing.retry
      cases hjob : w.getJob jobId with
      | none => exact h
      | some failed =>
          simp only
          split
          · next hstatus =>
              have hne : k ≠ jobId := by
                rintro rfl
                rw [h] at hjob
                cases hjob
                exact hfailed hstatus
              exact (World.getJob_updateJob_ne (f := retriedJob) (fun _ => rfl) hne).trans h
          · exact h
  | publish outboxId outcome =>
      simp only [Cases.step] at hstep
      split at hstep
      · cases hstep
      · next row _ =>
          split at hstep
          · cases hstep
            cases outcome with
            | failed => exact h
            | unmarked => exact h
            | published =>
                by_cases hk : k = row.jobId
                · subst hk
                  have hsame : queuedJob job = job := if_neg hpending
                  refine (World.getJob_updateJob_self (f := queuedJob) fun r => ?_).trans ?_
                  · unfold queuedJob
                    split <;> rfl
                  · exact (congrArg (Option.map queuedJob) h).trans (congrArg some hsame)
                · refine (World.getJob_updateJob_ne (f := queuedJob) (fun r => ?_) hk).trans h
                  unfold queuedJob
                  split <;> rfl
          · cases hstep

/-! ## One step of a delivery -/

def Delivery.atWork (d : Delivery) : Bool := d.stage.any Stage.atWork

section advance

variable {ports : ConsumerPorts γ} {event : IndexJobMessage} {w : World γ} {k : String}
  {job : IndexJobModel}

/-- **Handlers add jobs, and do nothing else to them.** -/
theorem JobInvariant.handlerStep {I : World γ → Prop} (hI : JobInvariant I) (point : HandlerPoint) :
    Prog.Keeps I (handlerStep ports.handlers event point) := by
  have hgraph : ∀ {α : Type} {x : Handler γ α}, (∀ s, Prog.Keeps (SameButGraph s) x) →
      Prog.Keeps I x := fun hx =>
    .of_snd fun s hs => hI.core (.of_graph ((hx s).snd (SameButGraph.refl s))) hs
  have hsupersede : ∀ {e : IndexJobMessage} {jobId old : String} {s s' : World γ}, I s →
      supersedeOld e jobId old s = .ok ((), s') → I s' := by
    intro e jobId old s s' hs hold
    rcases supersedeOld_cases hold with ⟨rfl, -⟩ | ⟨row, rec, -, -, hadd⟩
    · exact hs
    · refine hI.addJob ?_ hadd
      exact hI.congr hs rfl rfl rfl
  have hhandler : HandlerInvariant (fun _ => True) I := by
    refine ⟨hI.core, fun hs => ?_, hsupersede⟩
    intros
    exact hI.congr hs rfl rfl rfl
  cases point with
  | begin =>
      by_cases htype : event.entityType = .diagnosisCase
      · simp only [Indexing.handlerStep, if_pos htype]
        exact .bind (.read _) fun _ => .bind (.lift _) fun _ => .pure _
      · simp only [Indexing.handlerStep, if_neg htype]
        refine .bind ?_ fun _ => .pure _
        exact .weaken (hhandler.handle trivial) (fun _ hs => hs) (fun _ _ hs => hs.1)
          fun _ _ hs => hs.1
  | checked case => exact .bind (.lift _) fun _ => .bind (.lift _) fun _ => .pure _
  | embedded case text vector =>
      exact .bind (keeps_vectorUpsert fun _ hs => hI.core (.upsertCollection _ _) hs) fun _ => .pure _
  | stored case text => exact .bind (hgraph fun _ => keeps_projectCase) fun _ => .pure _
  | projected case text degraded =>
      exact .bind (.write fun _ hs => hI.congr hs rfl rfl rfl) fun _ => .pure _
  | activated case degraded =>
      refine .bind ?_ fun _ => .pure _
      unfold supersedeOriginal
      cases case.supersededId with
      | none => exact .pure _
      | some old => exact .bind .raiseIf fun _ => .transaction fun _ _ _ hs hold => hsupersede hs hold
  | removing case =>
      exact .bind (keeps_callOutcome (fun _ hs => hI.core (.dropCaseVector _) hs) _) fun _ => .pure _
  | removed case => exact .bind (hgraph fun _ => keeps_unprojectCase) fun _ => .pure _
  | unprojected degraded =>
      exact .bind (.write fun _ hs => hI.congr hs rfl rfl rfl) fun _ => .pure _
  | returned result => exact .pure _
  | raised e => exact .pure _

theorem JobInvariant.handleStep {I : World γ → Prop} (hI : JobInvariant I) {rec : IndexJobRecord}
    {point : HandlerPoint} (h : I w) : I (handleStep ports event rec point w).2 := by
  have hkept : I (Indexing.handlerStep ports.handlers event point w).2 :=
    (hI.handlerStep point).snd h
  unfold Indexing.handleStep
  cases hstep : Indexing.handlerStep ports.handlers event point w with
  | mk r w' =>
      rw [hstep] at hkept
      cases r <;> exact hkept

theorem getJob_finish_ne {jobId : String} {status : IndexJobStatus} (hk : k ≠ jobId) :
    (finish jobId status w).getJob k = w.getJob k :=
  World.getJob_updateJob_ne (f := finishedJob status) (fun _ => rfl) hk

theorem getJob_fail_ne {jobId code message : String} {retry : Bool} (hk : k ≠ jobId) :
    (fail jobId code message retry w).getJob k = w.getJob k := by
  have hjob : (w.updateJob jobId (failedJob code message retry)).getJob k = w.getJob k :=
    World.getJob_updateJob_ne (f := failedJob code message retry) (fun _ => rfl) hk
  unfold fail
  cases w.getJob jobId with
  | none => rfl
  | some failed =>
      cases retry with
      | true => exact hjob
      | false => exact (World.getJob_congr (failEntity_jobs _ _ _)).trans hjob

theorem publishFailed_frame (outcome : CallOutcome) (dead : Bool) (event : IndexJobMessage)
    (w : World γ) : (publishFailed outcome dead event w).2.jobs = w.jobs ∧
      (publishFailed outcome dead event w).2.cases = w.cases := by
  unfold publishFailed callOutcome
  cases outcome <;> cases dead <;> exact ⟨rfl, rfl⟩

/-- What one step of a delivery can do, unless the acknowledgement after `finish` raises: it starts
the job; it works on it, and writes its row only when that is its last write; or it does neither. -/
theorem advance_cases (ports : ConsumerPorts γ) (event : IndexJobMessage) (stage : Stage)
    (w : World γ) (hack : ∀ rec, stage = .finished rec →
      ∀ e, ports.ack event = .error e → e.val = .cancelled) :
    (∃ row rec, stage = .delivered ∧ w.getJob event.jobId = some row ∧
      row.status.finished = false ∧
      advance ports event stage w =
        (.stay (.handling rec .begin), w.updateJob event.jobId startedJob)) ∨
    (stage.atWork = true ∧ ∀ k job, w.getJob k = some job →
      k ≠ event.jobId ∨ (advance ports event stage w).1.atWork = true →
      (advance ports event stage w).2.getJob k = some job) ∨
    (stage.atWork = false ∧ (advance ports event stage w).1.atWork = false ∧
      (advance ports event stage w).2.jobs = w.jobs ∧
      (advance ports event stage w).2.cases = w.cases) := by
  cases stage with
  | delivered =>
      rw [advance]
      cases hstart : start event.jobId w with
      | error e => exact Or.inr (Or.inr ⟨rfl, rfl, rfl, rfl⟩)
      | ok result =>
          obtain ⟨rec, w'⟩ := result
          rcases start_cases hstart with
            ⟨-, rfl, rfl⟩ | ⟨row, rec, hrow, rfl, ⟨hfinished, hrec, rfl⟩ | ⟨hopen, hrec, rfl⟩⟩
          · exact Or.inr (Or.inr ⟨rfl, rfl, rfl, rfl⟩)
          · rw [← hrec] at hfinished
            dsimp only
            rw [if_pos hfinished]
            exact Or.inr (Or.inr ⟨rfl, rfl, rfl, rfl⟩)
          · have hrunning : ¬ rec.row.status.finished = true := by
              rw [hrec]
              exact Bool.false_ne_true
            dsimp only
            rw [if_neg hrunning]
            exact Or.inl ⟨row, rec, rfl, hrow, hopen, rfl⟩
  | handling rec point =>
      cases point with
      | returned result =>
          refine Or.inr (Or.inl ⟨rfl, fun k job hjob hk => ?_⟩)
          rcases hk with hne | hwork
          · exact (getJob_finish_ne hne).trans hjob
          · cases hwork
      | raised e =>
          cases e with
          | cancelled => exact Or.inr (Or.inr ⟨rfl, rfl, rfl, rfl⟩)
          | stale =>
              refine Or.inr (Or.inl ⟨rfl, fun k job hjob hk => ?_⟩)
              rcases hk with hne | hwork
              · exact (getJob_finish_ne hne).trans hjob
              · cases hwork
          | permanent code =>
              refine Or.inr (Or.inl ⟨rfl, fun k job hjob hk => ?_⟩)
              rcases hk with hne | hwork
              · exact (getJob_fail_ne hne).trans hjob
              · cases hwork
          | failure code typeName =>
              refine Or.inr (Or.inl ⟨rfl, fun k job hjob hk => ?_⟩)
              rcases hk with hne | hwork
              · exact (getJob_fail_ne hne).trans hjob
              · cases hwork
      | _ => exact Or.inr (Or.inl ⟨rfl, fun k job hjob _ =>
          (jobInvariant_getJob k job).handleStep hjob⟩)
  | finished rec =>
      rw [advance]
      cases hanswer : ports.ack event with
      | ok u => exact Or.inr (Or.inr ⟨rfl, rfl, rfl, rfl⟩)
      | error e =>
          have hcancelled := hack rec rfl e hanswer
          dsimp only
          rw [hcancelled]
          exact Or.inr (Or.inr ⟨rfl, rfl, rfl, rfl⟩)
  | publishing dead =>
      obtain ⟨hjobs, hcases⟩ := publishFailed_frame (ports.publish event) dead event w
      rw [advance]
      cases hpublish : publishFailed (ports.publish event) dead event w with
      | mk r w' =>
          rw [hpublish] at hjobs hcases
          cases r with
          | ok u => exact Or.inr (Or.inr ⟨rfl, rfl, hjobs, hcases⟩)
          | error e => exact Or.inr (Or.inr ⟨rfl, rfl, hjobs, hcases⟩)
  | acking =>
      rw [advance]
      cases ports.lastAck event <;> exact Or.inr (Or.inr ⟨rfl, rfl, rfl, rfl⟩)

end advance

/-! ## One consumer at a time -/

/-- The condition on a step: no delivery of a job passes `start` while another one is at work on the
job, and the acknowledgement after `finish` does not raise (a cancellation apart). -/
structure Exclusive (p : Consumers γ) (move : ConsumerMove γ) : Prop where
  start : ∀ i ports event, move = .advance i ports →
    p.deliveries[i]? = some ⟨event, some .delivered⟩ →
    ∀ d ∈ p.deliveries, d.atWork = true → d.event.jobId ≠ event.jobId
  ack : ∀ i ports event rec, move = .advance i ports →
    p.deliveries[i]? = some ⟨event, some (.finished rec)⟩ →
    ∀ e, ports.ack event = .error e → e.val = .cancelled

/-- Who is at work on a job is alone with it, and the job is running. -/
structure Orderly (p : Consumers γ) : Prop where
  alone : ∀ (i j : Nat) (d d' : Delivery), p.deliveries[i]? = some d → p.deliveries[j]? = some d' →
    d.atWork = true → d'.atWork = true → d.event.jobId = d'.event.jobId → i = j
  running : ∀ d ∈ p.deliveries, d.atWork = true →
    ∃ job, p.world.getJob d.event.jobId = some job ∧ job.status = .running

/-- Delivery `i` moves on. The others at work must find their jobs as they were. -/
theorem Orderly.moveOn {p : Consumers γ} (h : Orderly p) {i : Nat} {event : IndexJobMessage}
    {stage : Stage} (hd : p.deliveries[i]? = some ⟨event, some stage⟩) {next : Next} {w : World γ}
    (halone : next.atWork = true → stage.atWork = true ∨
      ∀ d ∈ p.deliveries, d.atWork = true → d.event.jobId ≠ event.jobId)
    (hrunning : next.atWork = true → ∃ job, w.getJob event.jobId = some job ∧ job.status = .running)
    (hothers : ∀ (j : Nat) (d : Delivery) job, j ≠ i → p.deliveries[j]? = some d → d.atWork = true →
      p.world.getJob d.event.jobId = some job → w.getJob d.event.jobId = some job) :
    Orderly (p.moveOn i event next w) := by
  have hget : ∀ (j : Nat) (d : Delivery), (p.moveOn i event next w).deliveries[j]? = some d →
      (j = i ∧ d = ⟨event, next.stage⟩) ∨ (j ≠ i ∧ p.deliveries[j]? = some d) := by
    intro j d hj
    by_cases hij : i = j
    · subst hij
      refine Or.inl ⟨rfl, ?_⟩
      rw [Consumers.moveOn, List.getElem?_set_self (List.getElem?_eq_some_iff.mp hd).1] at hj
      exact (Option.some.inj hj).symm
    · rw [Consumers.moveOn, List.getElem?_set_ne hij] at hj
      exact Or.inr ⟨Ne.symm hij, hj⟩
  -- another delivery of the same job at work contradicts what is known of delivery `i`
  have hnot : ∀ (j : Nat) (d : Delivery), j ≠ i → p.deliveries[j]? = some d → d.atWork = true →
      next.atWork = true → d.event.jobId ≠ event.jobId := by
    intro j d hj hdj hwork hnext
    rcases halone hnext with hold | hfree
    · exact fun heq => hj (h.alone j i d _ hdj hd hwork hold heq)
    · exact hfree d (List.mem_of_getElem? hdj) hwork
  constructor
  · intro j k d d' hdj hdk hwork hwork' hsame
    rcases hget j d hdj with ⟨rfl, rfl⟩ | ⟨hj, hj'⟩ <;>
      rcases hget k d' hdk with ⟨rfl, rfl⟩ | ⟨hk, hk'⟩
    · rfl
    · exact absurd hsame.symm (hnot k d' hk hk' hwork' hwork)
    · exact absurd hsame (hnot j d hj hj' hwork hwork')
    · exact h.alone j k d d' hj' hk' hwork hwork' hsame
  · intro d hdmem hwork
    obtain ⟨j, hdj⟩ := List.getElem?_of_mem hdmem
    rcases hget j d hdj with ⟨rfl, rfl⟩ | ⟨hj, hj'⟩
    · obtain ⟨job, hjob, hstatus⟩ := hrunning hwork
      exact ⟨job, (Next.close_getJob ..).trans hjob, hstatus⟩
    · obtain ⟨job, hjob, hstatus⟩ := h.running d (List.mem_of_getElem? hj') hwork
      exact ⟨job, (Next.close_getJob ..).trans (hothers j d job hj hj' hwork hjob), hstatus⟩

/-- A delivery goes on that touches no job. -/
theorem Orderly.pass {p : Consumers γ} (h : Orderly p) {i : Nat} {event : IndexJobMessage}
    {stage : Stage} (hd : p.deliveries[i]? = some ⟨event, some stage⟩) {next : Next} {w : World γ}
    (hnext : next.atWork = false) (hjobs : w.jobs = p.world.jobs) :
    Orderly (p.moveOn i event next w) := by
  refine h.moveOn hd (fun hwork => ?_) (fun hwork => ?_) fun j d job _ _ _ hjob => ?_
  · rw [hnext] at hwork
    cases hwork
  · rw [hnext] at hwork
    cases hwork
  · rw [World.getJob_congr hjobs]
    exact hjob

section

variable {settings : CaseSettings} {p p' : Consumers γ} {move : ConsumerMove γ}

theorem orderly_advance (h : Orderly p) {i : Nat} {ports : ConsumerPorts γ}
    (hok : Exclusive p (.advance i ports)) {event : IndexJobMessage} {stage : Stage}
    (hd : p.deliveries[i]? = some ⟨event, some stage⟩) :
    Orderly (p.moveOn i event (advance ports event stage p.world).1
      (advance ports event stage p.world).2) := by
  rcases advance_cases ports event stage p.world (by
      rintro rec rfl
      exact hok.ack i ports event rec rfl hd) with
    ⟨row, rec, rfl, hrow, -, hstarts⟩ | ⟨hwork, hkept⟩ | ⟨-, hnext, hjobs, -⟩
  · have hfree := hok.start i ports event rfl hd
    rw [hstarts]
    refine h.moveOn hd (fun _ => Or.inr hfree) (fun _ => ?_) fun j d job _ hdj hwork hjob => ?_
    · refine ⟨startedJob row, ?_, rfl⟩
      rw [World.getJob_updateJob_self (f := startedJob) fun _ => rfl, hrow]
      rfl
    · rw [World.getJob_updateJob_ne (f := startedJob) (fun _ => rfl)
        (hfree d (List.mem_of_getElem? hdj) hwork)]
      exact hjob
  · refine h.moveOn hd (fun _ => Or.inl hwork) (fun hnext => ?_) fun j d job hj hdj hwork' hjob => ?_
    · obtain ⟨job, hjob, hstatus⟩ := h.running _ (List.mem_of_getElem? hd) hwork
      exact ⟨job, hkept _ job hjob (Or.inr hnext), hstatus⟩
    · refine hkept _ job hjob (Or.inl fun heq => hj ?_)
      exact h.alone j i d _ hdj hd hwork' hwork heq
  · exact h.pass hd hnext hjobs

/-- **The step lemma.** -/
theorem orderly_step (h : Orderly p) (hok : Exclusive p move)
    (hstep : p.step settings move = some p') : Orderly p' := by
  cases move with
  | elsewhere label =>
      simp only [Consumers.step] at hstep
      split at hstep
      · cases hstep
      · next hlabel =>
          obtain ⟨w, hw, rfl⟩ := Option.map_eq_some_iff.mp hstep
          refine ⟨h.alone, fun d hd hwork => ?_⟩
          obtain ⟨job, hjob, hstatus⟩ := h.running d hd hwork
          exact ⟨job, getJob_elsewhere (by simpa using hlabel) hw hjob (by simp [hstatus])
            (by simp [hstatus]), hstatus⟩
  | deliver event =>
      simp only [Consumers.step] at hstep
      split at hstep
      · cases hstep
        have hget : ∀ (j : Nat) (d : Delivery),
            (p.deliveries ++ [⟨event, some .delivered⟩])[j]? = some d → d.atWork = true →
              p.deliveries[j]? = some d := by
          intro j d hj hwork
          rw [List.getElem?_append] at hj
          split at hj
          · exact hj
          · rw [List.mem_singleton.mp (List.mem_of_getElem? hj)] at hwork
            cases hwork
        refine ⟨fun i j d d' hi hj hwork hwork' => ?_, fun d hd hwork => ?_⟩
        · exact h.alone i j d d' (hget i d hi hwork) (hget j d' hj hwork') hwork hwork'
        · rcases List.mem_append.mp hd with hold | hnew
          · exact h.running d hold hwork
          · rw [List.mem_singleton.mp hnew] at hwork
            cases hwork
      · cases hstep
  | advance i ports =>
      simp only [Consumers.step] at hstep
      split at hstep
      · next event stage hd =>
          cases hstep
          exact orderly_advance h hok hd
      · cases hstep
  | die i =>
      simp only [Consumers.step] at hstep
      split at hstep
      · next event stage hd =>
          cases hstep
          exact h.pass hd rfl rfl
      · cases hstep

theorem orderly_of_reachable (h : (consumers settings).ReachableVia Exclusive p) : Orderly p := by
  refine h.invariant (fun p hinit => ?_) fun p move p' hp hok hstep => orderly_step hp hok hstep
  constructor
  · intro i j d d' hd
    rw [hinit.2] at hd
    cases hd
  · intro d hd
    rw [hinit.2] at hd
    cases hd

/-! ## A finished job stays finished -/

/-- The move is a step of job `k`: its message is sent or handed out, the operator asks for it again,
or a delivery of it moves. -/
def OfJob (k : String) (p : Consumers γ) : ConsumerMove γ → Prop
  | .elsewhere (.publish outboxId _) => ∃ row, p.world.getOutbox outboxId = some row ∧ row.jobId = k
  | .elsewhere (.retry jobId _) => jobId = k
  | .elsewhere _ => False
  | .deliver event => event.jobId = k
  | .advance i _ | .die i => ∃ d, p.deliveries[i]? = some d ∧ d.event.jobId = k

/-- No case is marked as failed, and none is taken out of use. -/
def HarmsNoCase (w w' : World γ) : Prop :=
  ∀ caseId row row', w.getCase caseId = some row → w'.getCase caseId = some row' →
    (row'.indexStatus = .failed → row.indexStatus = .failed) ∧
      (row'.isActive = false → row.isActive = false)

theorem HarmsNoCase.of_cases {w w' : World γ} (h : w'.cases = w.cases) : HarmsNoCase w w' := by
  intro caseId row row' hrow hrow'
  rw [World.getCase_congr h, hrow] at hrow'
  cases hrow'
  exact ⟨id, id⟩

/-- The runs that go on from `p`. -/
def onward (settings : CaseSettings) (p : Consumers γ) :
    TransitionSystem (Consumers γ) (ConsumerMove γ) where
  init q := q = p
  step := Consumers.step settings

/-- Whatever runs on from `p` under `ok`, job `k` keeps `status`, and no step of it harms a case. -/
structure Settled (settings : CaseSettings) (ok : Consumers γ → ConsumerMove γ → Prop)
    (p : Consumers γ) (k : String) (status : IndexJobStatus) : Prop where
  status : ∀ q, (onward settings p).ReachableVia ok q →
    ∃ job, q.world.getJob k = some job ∧ job.status = status
  cases : ∀ q move q', (onward settings p).ReachableVia ok q → ok q move → OfJob k q move →
    q.step settings move = some q' → HarmsNoCase q.world q'.world

/-- No one is at work on a finished job. -/
theorem Orderly.idle (h : Orderly p) {k : String} {job : IndexJobModel}
    (hjob : p.world.getJob k = some job) (hfinished : job.status.finished = true) {d : Delivery}
    (hd : d ∈ p.deliveries) (hk : d.event.jobId = k) : d.atWork = false := by
  by_contra hwork
  obtain ⟨running, hrunning, hstatus⟩ := h.running d hd (by simpa using hwork)
  rw [hk, hjob] at hrunning
  cases hrunning
  rw [hstatus] at hfinished
  cases hfinished

/-- **One step** leaves a finished job as it is, and a step of the job leaves the cases as they are. -/
theorem finished_step (h : Orderly p) (hok : Exclusive p move)
    (hstep : p.step settings move = some p') {k : String} {job : IndexJobModel}
    (hjob : p.world.getJob k = some job) (hfinished : job.status.finished = true) :
    p'.world.getJob k = some job ∧ (OfJob k p move → p'.world.cases = p.world.cases) := by
  cases move with
  | elsewhere label =>
      simp only [Consumers.step] at hstep
      split at hstep
      · cases hstep
      · next hlabel =>
          obtain ⟨w, hw, rfl⟩ := Option.map_eq_some_iff.mp hstep
          have hpending : job.status ≠ .pending := by
            intro hstatus
            rw [hstatus] at hfinished
            cases hfinished
          have hfailed : job.status ≠ .failed := by
            intro hstatus
            rw [hstatus] at hfinished
            cases hfinished
          refine ⟨getJob_elsewhere (by simpa using hlabel) hw hjob hpending hfailed, fun hof => ?_⟩
          cases label with
          | publish outboxId outcome =>
              obtain ⟨row, hrow, -⟩ := hof
              simp only [Cases.step, hrow] at hw
              split at hw
              · cases hw
                cases outcome <;> rfl
              · cases hw
          | retry jobId traceId =>
              obtain rfl : jobId = k := hof
              cases hw
              simp only [Indexing.retry, hjob, if_neg hfailed]
          | _ => cases hof
  | deliver event =>
      simp only [Consumers.step] at hstep
      split at hstep
      · cases hstep
        exact ⟨hjob, fun _ => rfl⟩
      · cases hstep
  | advance i ports =>
      simp only [Consumers.step] at hstep
      split at hstep
      · next event stage hd =>
          cases hstep
          have hmem := List.mem_of_getElem? hd
          simp only [Consumers.moveOn, Next.close_getJob, Next.close_cases, OfJob, hd]
          rcases advance_cases ports event stage p.world (by
              rintro rec rfl
              exact hok.ack i ports event rec rfl hd) with
            ⟨row, rec, rfl, hrow, hopen, hstarts⟩ | ⟨hwork, hkept⟩ | ⟨-, -, hjobs, hcases⟩
          · have hne : k ≠ event.jobId := by
              rintro rfl
              rw [hrow] at hjob
              cases hjob
              rw [hopen] at hfinished
              cases hfinished
            rw [hstarts]
            refine ⟨(World.getJob_updateJob_ne (f := startedJob) (fun _ => rfl) hne).trans hjob, ?_⟩
            rintro ⟨d, hd', hk⟩
            cases hd'
            exact absurd hk.symm hne
          · have hne : k ≠ event.jobId := by
              intro hk
              have hidle := h.idle hjob hfinished hmem hk.symm
              rw [show Delivery.atWork ⟨event, some stage⟩ = stage.atWork from rfl, hwork] at hidle
              cases hidle
            refine ⟨hkept k job hjob (Or.inl hne), ?_⟩
            rintro ⟨d, hd', hk⟩
            cases hd'
            exact absurd hk.symm hne
          · exact ⟨(World.getJob_congr hjobs).trans hjob, fun _ => hcases⟩
      · cases hstep
  | die i =>
      simp only [Consumers.step] at hstep
      split at hstep
      · next event stage hd =>
          cases hstep
          simp only [Consumers.moveOn, Next.close_getJob, Next.close_cases]
          exact ⟨hjob, fun _ => trivial⟩
      · cases hstep

/-- **A finished job stays finished**, and no step of it harms a case, as long as each job is only
started while no one else is at work on it. -/
theorem finished_job_settled (h : (consumers settings).ReachableVia Exclusive p) {k : String}
    {job : IndexJobModel} (hjob : p.world.getJob k = some job)
    (hfinished : job.status.finished = true) : Settled settings Exclusive p k job.status := by
  -- the invariant of the run that goes on: the job's row is as it was
  have hrun : ∀ q, (onward settings p).ReachableVia Exclusive q →
      Orderly q ∧ q.world.getJob k = some job := by
    intro q hq
    refine hq.invariant (I := fun q => Orderly q ∧ q.world.getJob k = some job) ?_ ?_
    · rintro s rfl
      exact ⟨orderly_of_reachable h, hjob⟩
    · rintro s move t ⟨horderly, hrow⟩ hok hstep
      exact ⟨orderly_step horderly hok hstep, (finished_step horderly hok hstep hrow hfinished).1⟩
  constructor
  · intro q hq
    exact ⟨job, (hrun q hq).2, rfl⟩
  · intro q move q' hq hok hof hstep
    obtain ⟨horderly, hrow⟩ := hrun q hq
    exact .of_cases ((finished_step horderly hok hstep hrow hfinished).2 hof)

end

/-! ## Three consumers -/

/-- `case-1` is approved, and `job-1` is sent. -/
def sentMoves : List (ConsumerMove Unit) := (indexedRun.take 4).map .elsewhere

def sentMessage : IndexJobMessage := caseMessage "job-1" "case-1" "1" .upsert

/-- The embedding service is down. -/
def embeddingDown : PortError := ⟨.uncoded "ConnectError", rfl⟩

def failingPorts : ConsumerPorts Unit :=
  { answeringPorts with handlers := { quietPorts with embed := fun _ => .error embeddingDown } }

/-- Delivery `i` takes `n` steps. -/
def advances (i n : Nat) (ports : ConsumerPorts Unit) : List (ConsumerMove Unit) :=
  List.replicate n (.advance i ports)

def sampleConsumers : TransitionSystem (Consumers Unit) (ConsumerMove Unit) :=
  consumers (sampleSettings .rabbitmq)

/-- Nothing has happened yet. -/
def noConsumers : Consumers Unit := ⟨World.empty (), []⟩

theorem sampleConsumers_init : sampleConsumers.init noConsumers :=
  ⟨⟨rfl, rfl, rfl, rfl, rfl, rfl⟩, rfl⟩

/-- Job `k` is there, and `check` holds of its status. -/
def jobHas (k : String) (check : IndexJobStatus → Bool) (p : Consumers Unit) : Bool :=
  (p.world.getJob k).any fun job => check job.status

/-- The message is handed out three times, the job is started three times, and the first consumer runs
to its end. -/
def threeStarts : List (ConsumerMove Unit) :=
  sentMoves ++ List.replicate 3 (.deliver sentMessage) ++ advances 0 1 answeringPorts ++
    advances 1 1 answeringPorts ++ advances 2 1 answeringPorts ++ advances 0 8 answeringPorts

/-- The first consumer has finished the job. The last one had no attempt left and fails: the job is
`FAILED` after all. -/
theorem finished_job_fails : ¬ ∀ (p : Consumers Unit) (k : String) (job : IndexJobModel),
    sampleConsumers.Reachable p → p.world.getJob k = some job → job.status.finished = true →
    Settled (sampleSettings .rabbitmq) (fun _ _ => True) p k job.status := by
  intro hclaim
  have hrun : (sampleConsumers.run noConsumers threeStarts).any
      (fun p => jobHas "job-1" (·.finished) p &&
        ((onward (sampleSettings .rabbitmq) p).run p (advances 2 3 failingPorts)).any
          (jobHas "job-1" (· = .failed))) = true := by decide +kernel
  obtain ⟨p, hp, hrest⟩ := (Option.any_eq_true _ _).mp hrun
  obtain ⟨hdone, hrest⟩ := Bool.and_eq_true_iff.mp hrest
  obtain ⟨job, hjob, hfinished⟩ := (Option.any_eq_true _ _).mp hdone
  obtain ⟨q, hq, hlate⟩ := (Option.any_eq_true _ _).mp hrest
  obtain ⟨job', hjob', hfailed⟩ := (Option.any_eq_true _ _).mp hlate
  have hreached : sampleConsumers.Reachable p := .of_run (.init sampleConsumers_init) hp
  have hlast : (onward (sampleSettings .rabbitmq) p).Reachable q := .of_run (.init rfl) hq
  obtain ⟨row, hrow, hstatus⟩ := (hclaim p "job-1" job hreached hjob hfinished).status q hlast
  rw [hjob'] at hrow
  cases hrow
  rw [← hstatus, of_decide_eq_true hfailed] at hfinished
  cases hfinished

/-- `Exclusive`, computed. -/
def checkExclusive (p : Consumers Unit) : ConsumerMove Unit → Bool
  | .advance i ports =>
      match p.deliveries[i]? with
      | some ⟨event, some .delivered⟩ =>
          p.deliveries.all fun d => !(d.atWork && d.event.jobId == event.jobId)
      | some ⟨event, some (.finished _)⟩ => (ports.ack event).isOk
      | _ => true
  | _ => true

theorem exclusive_of_check (p : Consumers Unit) (move : ConsumerMove Unit)
    (h : checkExclusive p move = true) : Exclusive p move := by
  constructor
  · rintro i ports event rfl hd d hmem hwork heq
    simp only [checkExclusive, hd] at h
    have hd' := List.all_eq_true.mp h d hmem
    rw [hwork, heq] at hd'
    simp at hd'
  · rintro i ports event rec rfl hd e hack
    simp only [checkExclusive, hd, hack] at h
    cases h

/-- One consumer runs to its end: from then on the job is `DEGRADED`. -/
theorem one_consumer_settles : ∃ (p : Consumers Unit) (job : IndexJobModel),
    p.world.getJob "job-1" = some job ∧ job.status = .degraded ∧
      Settled (sampleSettings .rabbitmq) Exclusive p "job-1" job.status := by
  have hrun : (sampleConsumers.runChecked checkExclusive noConsumers
      (sentMoves ++ .deliver sentMessage :: advances 0 9 answeringPorts)).any
        (jobHas "job-1" (· = .degraded)) = true := by decide +kernel
  obtain ⟨p, hp, hdone⟩ := (Option.any_eq_true _ _).mp hrun
  obtain ⟨job, hjob, hdegraded⟩ := (Option.any_eq_true _ _).mp hdone
  have hstatus : job.status = .degraded := of_decide_eq_true hdegraded
  have hreached : sampleConsumers.ReachableVia Exclusive p :=
    .of_runChecked exclusive_of_check (.init sampleConsumers_init) hp
  have hfinished : job.status.finished = true := by
    rw [hstatus]
    rfl
  exact ⟨p, job, hjob, hstatus, finished_job_settled hreached hjob hfinished⟩

end EnergyAgent.Cases
