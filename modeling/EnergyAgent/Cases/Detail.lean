import EnergyAgent.Cases.Authorship

/-!
# The page of a case

`CaseDetail` sends the actions on one case. An action gets an idempotency key when it is first sent and
keeps it until it has succeeded: after an error, or without an answer, it is sent again with the same
key. The workers, everybody else's requests and those whose answer got lost go on meanwhile.

`recorded_once` compares what the page knows with the history of the case: an action that has succeeded
`n` times is there `n` times, and once more at most, which is the action that the page has still to send
again.
-/

namespace EnergyAgent.Cases

open EnergyAgent.Core EnergyAgent.Lib EnergyAgent.Persistence EnergyAgent.Indexing

variable {γ : Type}

/-! ## Actions -/

deriving instance DecidableEq for CaseReviewRequest, CaseDisableRequest

/-- A path and a body; `fingerprint` tells two of them apart. -/
inductive CaseAction
  | submit
  | review (payload : CaseReviewRequest)
  | reindex
  | disable (payload : CaseDisableRequest)
  | revisions
  deriving DecidableEq

/-- `comment || fallback` -/
def commentOr (fallback : NewId) (comment : String) : NewId :=
  if h : comment = "" then fallback else ⟨comment, h⟩

theorem truthy_some {s : String} (h : s ≠ "") : Text.truthy (some s) = some s := if_neg h

theorem approve_ne_reject : ReviewDecision.approve ≠ .reject := by decide

theorem rejected_ne : "审核拒绝" ≠ "" := by decide

theorem disabled_ne : "人工停用" ≠ "" := by decide

/-- The buttons, with what they send; `comment` is the text of the input. -/
inductive CaseButton
  | submit | approve | reject | reindex | disable | revise
  deriving DecidableEq, Repr

def CaseButton.action (comment : String) : CaseButton → CaseAction
  | .submit => .submit
  | .approve => .review
      { decision := .approve
        comment := some comment
        valid := fun h => absurd h approve_ne_reject }
  | .reject => .review
      { decision := .reject
        comment := some (commentOr ⟨"审核拒绝", rejected_ne⟩ comment).val
        valid := fun _ => Option.isSome_iff_exists.mpr ⟨_, truthy_some (commentOr _ comment).property⟩ }
  | .reindex => .reindex
  | .disable => .disable
      { reason := (commentOr ⟨"人工停用", disabled_ne⟩ comment).val
        valid := (commentOr _ comment).property }
  | .revise => .revisions

namespace CaseAction

/-- What the backend is asked for. -/
def request (caseId : String) : CaseAction → CaseRequest
  | .submit => .submit caseId
  | .review payload => .review caseId payload
  | .reindex => .reindex caseId
  | .disable payload => .disable caseId payload
  | .revisions => .revision caseId ⟨emptyPatch, false⟩

/-- The hash that the backend stores with it. -/
def requestHash (caseId : String) : CaseAction → RequestFingerprint
  | .submit => .submit caseId
  | .review payload => .review caseId payload.decision.value payload.comment
  | .reindex => .reindex caseId
  | .disable payload => .disable caseId payload.reason
  | .revisions => .revision caseId emptyPatch.dump false

end CaseAction

/-! ## The page -/

/-- The action that the page waits for. -/
structure Pending (γ : Type) where
  action : CaseAction
  key : NewId
  rest : ServiceThread γ DiagnosisCase

structure CaseDetail (γ : Type) where
  /-- Everybody else. -/
  others : Threads Access (World γ) Empty Unit
  /-- `idempotencyKeys` -/
  keys : List (CaseAction × NewId)
  /-- `pendingRef` -/
  pending : Option (Pending γ)
  /-- The actions that have succeeded, with their keys. -/
  done : List (CaseAction × NewId)

inductive DetailMove (γ : Type)
  | others (move : Threads.Move (Label γ))
  /-- A button; `randomUUID` would draw `fresh`. -/
  | click (button : CaseButton) (comment : String) (call : CaseCall) (fresh : NewId)
  /-- The backend goes on with the action that the page waits for. -/
  | access
  | answered
  /-- The page gets an error, whatever becomes of the request. -/
  | lost

namespace CaseDetail

/-- `idempotencyKeys.current.get(fingerprint)` -/
def kept (p : CaseDetail γ) (action : CaseAction) : Option NewId :=
  (Table.get Prod.fst p.keys action).map Prod.snd

variable (settings : CaseSettings) (caseId : String)

/-- `action` -/
def click (p : CaseDetail γ) (action : CaseAction) (call : CaseCall) (fresh : NewId) : CaseDetail γ :=
  let key := (p.kept action).getD fresh
  let call' := { call with idempotencyKey := some key.val }
  { p with
    keys := Table.upsert Prod.fst p.keys (action, key)
    pending := some ⟨action, key, Interleaved.request settings call' (action.request caseId)⟩ }

def step (p : CaseDetail γ) : DetailMove γ → Option (CaseDetail γ)
  | .others move => ((interleaved settings).step p.others move).map fun others => { p with others := others }
  | .click button comment call fresh =>
      if p.pending.isSome then some p else some (p.click settings caseId (button.action comment) call fresh)
  | .access =>
      match p.pending with
      | some ⟨action, key, .step _ write next⟩ =>
          some { p with
            others := { p.others with store := write p.others.store }
            pending := some ⟨action, key, next p.others.store⟩ }
      | _ => none
  | .answered =>
      match p.pending with
      | some ⟨action, key, .ret _⟩ =>
          some { p with
            keys := Table.delete Prod.fst p.keys action
            pending := none
            done := p.done ++ [(action, key)] }
      | some ⟨_, _, .raise _⟩ => some { p with pending := none }
      | _ => none
  | .lost => p.pending.map fun flight =>
      { p with
        others := { p.others with threads := p.others.threads ++ [Interleaved.detached flight.rest] }
        pending := none }

end CaseDetail

/-- The page among everybody else, who may have been there before. -/
def detail (settings : CaseSettings) (caseId : String) :
    TransitionSystem (CaseDetail γ) (DetailMove γ) where
  init p := (interleaved settings).Reachable p.others ∧ p.keys = [] ∧ p.pending = none ∧ p.done = []
  step := CaseDetail.step settings caseId

/-- `randomUUID` draws a key that the page has not got. -/
def DrawsFresh (p : CaseDetail γ) : DetailMove γ → Prop
  | .click _ _ _ fresh => fresh ∉ (p.done ++ p.keys).map Prod.snd
  | _ => True

instance (p : CaseDetail γ) (move : DetailMove γ) : Decidable (DrawsFresh p move) :=
  match move with
  | .click _ _ _ fresh => inferInstanceAs (Decidable (fresh ∉ (p.done ++ p.keys).map Prod.snd))
  | .others _ => inferInstanceAs (Decidable True)
  | .access => inferInstanceAs (Decidable True)
  | .answered => inferInstanceAs (Decidable True)
  | .lost => inferInstanceAs (Decidable True)

/-! ## What a request leaves in the history -/

/-- The history of the case has an event with the key and the hash. -/
def HasEvent (caseId key : String) (hash : RequestFingerprint) (w : World γ) : Prop :=
  ∃ e ∈ w.caseEvents, e.caseId = caseId ∧ e.idempotencyKey = some key ∧ e.requestHash = hash

/-- No two events of a case have one key. -/
def UniqueKeys (w : World γ) : Prop :=
  w.caseEvents.Pairwise fun e f => e.caseId = f.caseId → e.idempotencyKey = f.idempotencyKey →
    e.idempotencyKey = none

/-- What everybody keeps to: events are only appended, one at a time, and no key is repeated. -/
def histories : Contract Access (World γ) where
  keeps := UniqueKeys
  guar _ w w' := Keyed w w'

theorem UniqueKeys.step {w w' : World γ} (h : UniqueKeys w) (hkeyed : Keyed w w') : UniqueKeys w' := by
  unfold UniqueKeys
  rcases hkeyed with hsame | ⟨event, hevents, hfree⟩
  · rw [hsame]
    exact h
  · rw [hevents, List.pairwise_append]
    refine ⟨h, List.pairwise_singleton _ _, ?_⟩
    intro e he f hf hcase hkey
    rw [List.mem_singleton.mp hf] at hcase hkey
    cases hnone : e.idempotencyKey with
    | none => rfl
    | some key =>
        -- the new event would have been refused
        rw [← hkey, hnone, ← hcase] at hfree
        have hnew := List.find?_eq_none.mp hfree e he
        simp [hnone] at hnew

theorem Keyed.mem {w w' : World γ} (h : Keyed w w') {e : CaseReviewEventModel} (he : e ∈ w.caseEvents) :
    e ∈ w'.caseEvents := by
  rcases h with hsame | ⟨event, hevents, -⟩
  · rw [hsame]
    exact he
  · rw [hevents]
    exact List.mem_append_left _ he

theorem stable_mem (e : CaseReviewEventModel) :
    histories.Stable fun w : World γ => e ∈ w.caseEvents := by
  rintro w w' ⟨-, ⟨mark, hkeyed⟩, -⟩ he
  exact hkeyed.mem he

theorem stable_hasEvent (caseId key : String) (hash : RequestFingerprint) :
    histories.Stable (HasEvent (γ := γ) caseId key hash) := by
  rintro w w' haccess ⟨e, he, hevent⟩
  exact ⟨e, stable_mem e w w' haccess he, hevent⟩

theorem mem_of_replayOf {w : World γ} {caseId key : String} (hkey : key ≠ "") {e : CaseReviewEventModel}
    (h : replayOf w caseId (some key) = some e) :
    e ∈ w.caseEvents ∧ e.caseId = caseId ∧ e.idempotencyKey = some key := by
  rw [replayOf, truthy_some hkey] at h
  have hfound := List.find?_some h
  simp only [decide_eq_true_eq] at hfound
  exact ⟨List.mem_of_find?_eq_some h, hfound⟩

section request

variable {ε α : Type} {s : World γ}

/-- A signed access keeps to it. -/
theorem keyed_safe {x : Thread Access (World γ) ε α} (h : x.Each (Logged fun _ => True))
    (hs : UniqueKeys s) : x.Safe histories (fun _ _ => True) s := by
  refine h.safe (fun mark w w' hw hlogged => ?_) hs
  exact ⟨hw.step hlogged.keyed, hlogged.keyed⟩

/-- And what has been established stays so meanwhile. -/
theorem keyed_frame {P : World γ → Prop} (hP : histories.Stable P) {x : Thread Access (World γ) ε α}
    (h : x.Each (Logged fun _ => True)) (hs : UniqueKeys s) (hPs : P s) :
    x.Safe histories (fun _ w => P w) s :=
  ((keyed_safe h hs).frame hP hs hPs).mono fun _ _ h => h.2

variable {settings : CaseSettings} {call : CaseCall} {caseId key : String}
  (hkey : call.idempotencyKey = some key) (hne : key ≠ "") (hs : UniqueKeys s)
include hkey hne hs

/-- A transition that succeeds is recorded: it appends its event, or it is a replay of it. -/
theorem records_transition {t : CaseTransition} {mark : Access} {indexRepository : Bool} {jobId : String}
    (hby : t.idempotencyKey = call.idempotencyKey)
    (h : (Thread.atomic mark (transition indexRepository t jobId : Service γ _)).Each
      (Logged fun _ => True)) :
    (Thread.atomic mark (transition indexRepository t jobId)).Safe histories
      (fun _ w => HasEvent t.caseId key t.requestHash w) s := by
  refine ((keyed_safe h hs).also (fun _ => stable_hasEvent _ _ _) ?_).mono fun _ _ h => h.2
  intro w result hok
  rcases transition_cases indexRepository t jobId w with
    ⟨e, hrun⟩ | ⟨row, replayed, w', happly, ⟨e, hrun⟩ | ⟨case, -, hrun⟩⟩
  · rw [hrun] at hok
    cases hok
  · rw [hrun] at hok
    cases hok
  · rw [hrun]
    show HasEvent t.caseId key t.requestHash w'
    rcases applyTransition_eq_ok happly with
      ⟨-, rfl, -, event, hreplay, hhash⟩ | ⟨-, model, -, -, -, -, hjob⟩
    · rw [hby, hkey] at hreplay
      obtain ⟨hmem, hcase, hevent⟩ := mem_of_replayOf hne hreplay
      exact ⟨event, hmem, hcase, hevent, hhash⟩
    · refine ⟨t.event model.reviewStatus, ?_, rfl, hby.trans hkey, rfl⟩
      rw [(addIndexJob_caseTables hjob).2]
      exact List.mem_append_right _ (List.mem_singleton_self _)

omit hkey hne in
theorem records_appendEvent {event : CaseReviewEventModel}
    (h : (Interleaved.appendEvent event : ServiceThread γ Unit).Each (Logged fun _ => True)) :
    (Interleaved.appendEvent event).Safe histories (fun _ w => event ∈ w.caseEvents) s := by
  refine (Thread.Safe.also (fun _ => stable_mem event) (keyed_safe h hs) ?_).mono fun _ _ h => h.2
  intro w a hok
  unfold Cases.appendEvent at hok ⊢
  rcases transaction_cases (fun w => (addEvent event w).map ((), ·)) w with
    ⟨e, hrun⟩ | ⟨b, w', hadd, hrun⟩
  · rw [hrun] at hok
    cases hok
  · rw [hrun]
    obtain ⟨w'', hadd', heq⟩ := Prog.except_map_eq_ok hadd
    cases heq
    rw [addEvent_eq_ok hadd']
    exact List.mem_append_right _ (List.mem_singleton_self _)

omit hne in
/-- `queue_index`, with the event of a reindex. -/
theorem records_queueIndex {action jobId : String} {request : IndexJobCreate} :
    (Interleaved.access (queueIndex settings.indexRepository caseId request
      (reindexEvent call caseId action) jobId)).Safe histories
      (fun _ w => HasEvent caseId key (.reindex caseId) w) s := by
  refine (Thread.Safe.also (fun _ => stable_hasEvent _ _ _) (keyed_safe (signs_queueIndex trivial) hs)
    ?_).mono fun _ _ h => h.2
  intro w result hok
  cases hrun : queueIndex settings.indexRepository caseId request (reindexEvent call caseId action) jobId w with
  | mk r w' =>
      rw [hrun] at hok
      unfold queueIndex at hrun
      rcases Prog.bind_cases hrun with ⟨e, -, rfl⟩ | ⟨_, w₁, hraise, hqueue⟩
      · cases hok
      · obtain ⟨rfl, -⟩ := Prog.raiseIf_cases hraise
        rcases validated_snd (applyQueueIndex caseId request (reindexEvent call caseId action)
          jobId) caseRecord w₁ with ⟨e, hend⟩ | ⟨row, w₂, happly, hend⟩
        · rw [hend] at hqueue
          cases hqueue
          cases hok
        · rw [hend] at hqueue
          cases hqueue
          obtain ⟨model, rec, -, -, hadd⟩ := applyQueueIndex_eq_ok happly
          refine ⟨reindexEvent call caseId action model.reviewStatus, ?_, rfl, hkey, rfl⟩
          rw [(addJob_caseTables hadd).2]
          exact List.mem_append_right _ (List.mem_singleton_self _)

/-- The event that the idempotency check of a request finds. -/
theorem reads_replay : (Interleaved.access (Prog.read fun w => replayOf w caseId call.idempotencyKey) :
    ServiceThread γ _).Safe histories (fun found w => ∀ event, found = some event →
      event ∈ w.caseEvents ∧ event.caseId = caseId ∧ event.idempotencyKey = some key) s := by
  refine (Thread.Safe.also ?_ (keyed_safe (signs_quiet (.read _)) hs) ?_).mono fun _ _ h => h.2
  · intro found w w' haccess h event hfound
    obtain ⟨hmem, hof⟩ := h event hfound
    exact ⟨stable_mem event w w' haccess hmem, hof⟩
  · intro w found hok event hfound
    cases hok
    rw [hkey] at hfound
    exact mem_of_replayOf hne hfound

theorem records_submit : (Interleaved.submit settings call caseId).Safe histories
    (fun _ w => HasEvent caseId key (.submit caseId) w) s := by
  refine (keyed_safe (signs_fetch caseId) hs).bind hs fun case t ht _ => ?_
  refine Thread.Safe.raiseIf.bind ht fun _ u hu _ => ?_
  refine Thread.Safe.raiseIf.bind hu fun _ v hv _ => ?_
  refine (records_transition (t := submitTransition call caseId) hkey hne hv rfl ?_).bind hv
    fun result w hw hevent => .pure fun _ hrely => (stable_hasEvent _ _ _).rely hrely hevent
  exact signs_transition trivial rfl rfl (fun _ => rfl) fun _ => Or.inl rfl

theorem records_reviewCase (payload : CaseReviewRequest) :
    (Interleaved.reviewCase settings call caseId payload).Safe histories
      (fun _ w => HasEvent caseId key (.review caseId payload.decision.value payload.comment) w) s := by
  refine (keyed_safe (signs_fetch caseId) hs).bind hs fun case t ht _ => ?_
  refine Thread.Safe.raiseIf.bind ht fun _ u hu _ => ?_
  refine (records_transition (t := reviewTransition settings call case caseId payload) hkey hne hu rfl
    ?_).bind hu fun result v hv hevent => ?_
  · refine signs_transition trivial rfl rfl (fun r => ?_) fun r => Or.inr ?_
    · exact (reviewedRow_same settings call payload _).1.createdBy
    · exact (reviewedRow_same settings call payload _).2.2.1
  · split
    · exact .pure fun _ hrely => (stable_hasEvent _ _ _).rely hrely hevent
    · exact keyed_frame (stable_hasEvent _ _ _) (signs_afterApproval trivial _) hv hevent

theorem records_disable (payload : CaseDisableRequest) :
    (Interleaved.disable settings call caseId payload).Safe histories
      (fun _ w => HasEvent caseId key (.disable caseId payload.reason) w) s := by
  refine (keyed_safe (signs_fetch caseId) hs).bind hs fun current t ht _ => ?_
  refine (records_transition (t := withdrawal settings call current caseId .disabled "case.disabled"
    (.disable caseId payload.reason) call.idempotencyKey (some payload.reason)) hkey hne ht rfl
    (signs_withdrawal trivial)).bind ht fun result u hu hevent => ?_
  cases settings.indexExecutionMode with
  | rabbitmq => exact .pure fun _ hrely => (stable_hasEvent _ _ _).rely hrely hevent
  | sync => exact keyed_frame (stable_hasEvent _ _ _) (signs_tombstone _) hu hevent

/-- `revisionReplay`: whoever finds a revision has found its event. -/
theorem records_revisionReplay (fingerprint : RequestFingerprint) :
    (Interleaved.revisionReplay call caseId fingerprint).Safe histories
      (fun found w => ∀ case, found = some case → HasEvent caseId key fingerprint w) s := by
  refine (reads_replay hkey hne hs).bind hs fun found t ht hfound => ?_
  cases found with
  | none => exact .pure fun _ _ case h => by cases h
  | some event =>
      obtain ⟨hmem, hcase, hevent⟩ := hfound event rfl
      refine (Thread.Safe.raiseIf.frame (stable_mem event) ht hmem).bind ht fun _ u hu hread => ?_
      obtain ⟨hhash, hmem⟩ := hread
      split
      · exact .pure fun _ _ case h => by cases h
      · next revisionId _ =>
          have hhas : HasEvent caseId key fingerprint u :=
            ⟨event, hmem, hcase, hevent, not_not.mp hhash⟩
          refine (keyed_frame (stable_hasEvent _ _ _) ?_ hu hhas).mono fun _ _ h _ _ => h
          exact signs_quiet (.of_keeps fun w => keeps_get _)

theorem records_revision (payload : CaseRevisionRequest) :
    (Interleaved.revision settings call caseId payload).Safe histories (fun _ w =>
      HasEvent caseId key (.revision caseId payload.patch.dump payload.submitForReview) w) s := by
  refine (keyed_safe (signs_fetch caseId) hs).bind hs fun original t ht _ => ?_
  refine (records_revisionReplay hkey hne ht _).bind ht fun replay u hu hreplay => ?_
  cases replay with
  | some existing => exact .pure fun _ hrely => (stable_hasEvent _ _ _).rely hrely (hreplay existing rfl)
  | none =>
      refine Thread.Safe.raiseIf.bind hu fun _ v hv _ => ?_
      refine (keyed_safe (signs_quiet (.read _)) hv).bind hv fun version x hx _ => ?_
      refine (keyed_safe (signs_create fun row hrow => ?_) hx).bind hx fun created y hy _ => ?_
      · obtain ⟨rootCause, -, rfl⟩ := Option.map_eq_some_iff.mp hrow
        exact ⟨rfl, call.actor, trivial, rfl⟩
      · refine (records_appendEvent hy (signs_appendEvent trivial ⟨rfl, rfl⟩)).bind hy
          fun _ z hz hmem => ?_
        have hevent : HasEvent caseId key
            (.revision caseId payload.patch.dump payload.submitForReview) z :=
          ⟨_, hmem, rfl, hkey, rfl⟩
        split
        · exact keyed_frame (stable_hasEvent _ _ _) (signs_submit trivial _) hz hevent
        · exact .pure fun _ hrely => (stable_hasEvent _ _ _).rely hrely hevent

theorem records_reindex : (Interleaved.reindex settings call caseId).Safe histories
    (fun _ w => HasEvent caseId key (.reindex caseId) w) s := by
  refine (keyed_safe (signs_fetch caseId) hs).bind hs fun case t ht _ => ?_
  refine (reads_replay hkey hne ht).bind ht fun found u hu hfound => ?_
  cases found with
  | some event =>
      obtain ⟨hmem, hcase, hevent⟩ := hfound event rfl
      refine (Thread.Safe.raiseIf.frame (stable_mem event) hu hmem).bind hu fun _ v hv hread => ?_
      obtain ⟨hhash, hmem⟩ := hread
      exact keyed_frame (stable_hasEvent _ _ _) (signs_fetch caseId) hv
        ⟨event, hmem, hcase, hevent, not_not.mp hhash⟩
  | none =>
      show (Interleaved.runReindex settings call caseId case).Safe _ _ _
      unfold Interleaved.runReindex
      cases reindexOperation case.row with
      | none => exact .raise
      | some operation =>
          cases settings.indexExecutionMode with
          | rabbitmq => exact records_queueIndex hkey hu
          | sync =>
              refine (records_appendEvent hu (signs_appendEvent trivial
                ⟨rfl, rfl⟩)).bind hu fun _ v hv hmem => ?_
              have hevent : HasEvent caseId key (.reindex caseId) v := ⟨_, hmem, rfl, hkey, rfl⟩
              split
              · exact keyed_frame (stable_hasEvent _ _ _) (signs_tombstone _) hv hevent
              · exact keyed_frame (stable_hasEvent _ _ _) (signs_index _) hv hevent

/-- **Whatever the page asks for is recorded by the time that it has succeeded.** -/
theorem records_request (action : CaseAction) :
    (Interleaved.request settings call (action.request caseId)).Safe histories
      (fun _ w => HasEvent caseId key (action.requestHash caseId) w) s := by
  cases action with
  | submit => exact records_submit hkey hne hs
  | review payload => exact records_reviewCase hkey hne hs payload
  | reindex => exact records_reindex hkey hne hs
  | disable payload => exact records_disable hkey hne hs payload
  | revisions => exact records_revision hkey hne hs ⟨emptyPatch, false⟩

end request

/-! ## What the page knows -/

namespace CaseDetail

/-- How often the action has succeeded. -/
def successes (p : CaseDetail γ) (action : CaseAction) : Nat :=
  (p.done.filter fun entry => entry.1 = action).length

/-- The keys that were drawn for the action. -/
def drawn (p : CaseDetail γ) (action : CaseAction) : List NewId :=
  ((p.done ++ p.keys).filter fun entry => entry.1 = action).map Prod.snd

/-- The events of the case with one of these keys. -/
def recorded (p : CaseDetail γ) (caseId : String) (action : CaseAction) : List CaseReviewEventModel :=
  p.others.store.caseEvents.filter fun e => e.caseId = caseId ∧
    ∃ key ∈ p.drawn action, e.idempotencyKey = some key.val

end CaseDetail

/-- No key is drawn twice or kept after a success, and whatever has succeeded is recorded. -/
structure Accounts (caseId : String) (p : CaseDetail γ) : Prop where
  others : Threads.AllSafe histories p.others
  actions : (p.keys.map Prod.fst).Nodup
  drawn : ((p.done ++ p.keys).map Prod.snd).Nodup
  done : ∀ entry ∈ p.done, HasEvent caseId entry.2.val (entry.1.requestHash caseId) p.others.store
  pending : ∀ flight ∈ p.pending, (flight.action, flight.key) ∈ p.keys ∧
    flight.rest.Safe histories
      (fun _ w => HasEvent caseId flight.key.val (flight.action.requestHash caseId) w) p.others.store

section accounts

variable {settings : CaseSettings} {caseId : String} {p q : CaseDetail γ}

theorem others_safe (label : Label γ) (s : World γ) (hs : histories.keeps s) :
    (Interleaved.activity settings label).Safe histories (fun _ _ => True) s :=
  keyed_safe (signs_activity settings fun _ _ _ => trivial) hs

/-- The others go on. -/
theorem Accounts.go (h : Accounts caseId p) {others : Threads Access (World γ) Empty Unit}
    (hothers : Threads.AllSafe histories others) (hrely : histories.rely p.others.store others.store) :
    Accounts caseId { p with others := others } where
  others := hothers
  actions := h.actions
  drawn := h.drawn
  done entry hentry := (stable_hasEvent _ _ _).rely hrely (h.done entry hentry)
  pending flight hflight :=
    ⟨(h.pending flight hflight).1, (h.pending flight hflight).2.rely hrely⟩

/-- An action is sent, with the key that it has kept or a new one. -/
theorem Accounts.click (h : Accounts caseId p) {action : CaseAction} {call : CaseCall} {fresh : NewId}
    (hfresh : fresh ∉ (p.done ++ p.keys).map Prod.snd) :
    Accounts caseId (p.click settings caseId action call fresh) := by
  have hsent : ∀ key : NewId, (Interleaved.request settings
      { call with idempotencyKey := some key.val } (action.request caseId)).Safe histories
        (fun _ w => HasEvent caseId key.val (action.requestHash caseId) w) p.others.store :=
    fun key => records_request rfl key.property h.others.keeps action
  have hpending : ∀ (keys : List (CaseAction × NewId)) (key : NewId), (action, key) ∈ keys →
      ∀ flight ∈ (some ⟨action, key, Interleaved.request settings
        { call with idempotencyKey := some key.val } (action.request caseId)⟩ : Option (Pending γ)),
      (flight.action, flight.key) ∈ keys ∧ flight.rest.Safe histories
        (fun _ w => HasEvent caseId flight.key.val (flight.action.requestHash caseId) w) p.others.store := by
    rintro keys key hkey flight ⟨⟩
    exact ⟨hkey, hsent key⟩
  unfold CaseDetail.click CaseDetail.kept
  cases hget : Table.get Prod.fst p.keys action with
  | some entry =>
      -- sent again
      obtain ⟨hmem, rfl⟩ := Table.get_eq_some hget
      refine ⟨h.others, ?_, ?_, h.done, hpending _ _ ?_⟩
      · show ((Table.upsert Prod.fst p.keys entry).map Prod.fst).Nodup
        rw [Table.upsert_of_mem h.actions hmem]
        exact h.actions
      · show ((p.done ++ Table.upsert Prod.fst p.keys entry).map Prod.snd).Nodup
        rw [Table.upsert_of_mem h.actions hmem]
        exact h.drawn
      · show entry ∈ Table.upsert Prod.fst p.keys entry
        rw [Table.upsert_of_mem h.actions hmem]
        exact hmem
  | none =>
      have hnew : Table.upsert Prod.fst p.keys (action, fresh) = p.keys ++ [(action, fresh)] :=
        Table.upsert_of_none hget
      refine ⟨h.others, ?_, ?_, h.done, hpending _ _ ?_⟩
      · show ((Table.upsert Prod.fst p.keys (action, fresh)).map Prod.fst).Nodup
        rw [hnew]
        exact Table.nodup_append h.actions hget
      · show ((p.done ++ Table.upsert Prod.fst p.keys (action, fresh)).map Prod.snd).Nodup
        rw [hnew, ← List.append_assoc, List.map_append]
        refine h.drawn.append (List.nodup_singleton _) ?_
        intro key hkey hkey'
        rw [List.mem_singleton.mp hkey'] at hkey
        exact hfresh hkey
      · show (action, fresh) ∈ Table.upsert Prod.fst p.keys (action, fresh)
        rw [hnew]
        exact List.mem_append_right _ (List.mem_singleton_self _)

/-- An action has succeeded, and its key is forgotten. -/
theorem Accounts.succeed (h : Accounts caseId p) {action : CaseAction} {key : NewId}
    (hkept : (action, key) ∈ p.keys)
    (hevent : HasEvent caseId key.val (action.requestHash caseId) p.others.store) :
    Accounts caseId { p with
      keys := Table.delete Prod.fst p.keys action
      pending := none
      done := p.done ++ [(action, key)] } where
  others := h.others
  actions := h.actions.sublist (List.filter_sublist.map _)
  drawn := by
    -- the key has moved from one list to the other
    have hmoved : (p.done ++ p.keys).Perm
        (p.done ++ [(action, key)] ++ Table.delete Prod.fst p.keys action) := by
      rw [List.append_assoc]
      exact (Table.perm_delete h.actions hkept).append_left p.done
    exact (hmoved.map Prod.snd).nodup h.drawn
  done entry hentry := by
    rcases List.mem_append.mp hentry with hold | hnew
    · exact h.done entry hold
    · rw [List.mem_singleton.mp hnew]
      exact hevent
  pending := by
    rintro flight ⟨⟩

/-- The page does not wait any more. -/
theorem Accounts.giveUp (h : Accounts caseId p) : Accounts caseId { p with pending := none } :=
  ⟨h.others, h.actions, h.drawn, h.done, by rintro flight ⟨⟩⟩

theorem Accounts.step (h : Accounts caseId p) {move : DetailMove γ} (hfresh : DrawsFresh p move)
    (hstep : p.step settings caseId move = some q) : Accounts caseId q := by
  cases move with
  | others move =>
      obtain ⟨others, hothers, rfl⟩ := Option.map_eq_some_iff.mp hstep
      obtain ⟨hsafe, hsame | ⟨mark, -, hguar⟩⟩ := h.others.step others_safe hothers
      · exact h.go hsafe (hsame ▸ .refl)
      · exact h.go hsafe (.single ⟨h.others.keeps, ⟨mark, hguar⟩, hsafe.keeps⟩)
  | click button comment call fresh =>
      simp only [CaseDetail.step] at hstep
      split at hstep
      · cases hstep
        exact h
      · cases hstep
        exact h.click hfresh
  | access =>
      simp only [CaseDetail.step] at hstep
      split at hstep
      · next action key mark write next hpending =>
          cases hstep
          obtain ⟨hkept, hsafe⟩ := h.pending _ hpending
          obtain ⟨hkeeps, hguar, hnext⟩ := hsafe p.others.store .refl
          have hrely : histories.rely p.others.store (write p.others.store) :=
            .single ⟨h.others.keeps, ⟨mark, hguar⟩, hkeeps⟩
          have hgo := h.go (h.others.interrupted hrely) hrely
          refine ⟨hgo.others, hgo.actions, hgo.drawn, hgo.done, ?_⟩
          rintro flight ⟨⟩
          exact ⟨hkept, hnext⟩
      · cases hstep
  | answered =>
      simp only [CaseDetail.step] at hstep
      split at hstep
      · next action key case hpending =>
          cases hstep
          obtain ⟨hkept, hsafe⟩ := h.pending _ hpending
          exact h.succeed hkept (hsafe p.others.store .refl)
      · cases hstep
        exact h.giveUp
      · cases hstep
  | lost =>
      obtain ⟨flight, hpending, rfl⟩ := Option.map_eq_some_iff.mp hstep
      obtain ⟨-, hsafe⟩ := h.pending flight hpending
      have hdetached : (Interleaved.detached flight.rest).Safe histories (fun _ _ => True)
          p.others.store :=
        .handle .true (hsafe.bind h.others.keeps fun _ _ _ _ => .pure fun _ _ => trivial) h.others.keeps
          trivial fun _ _ _ _ => .pure fun _ _ => trivial
      have hothers : Threads.AllSafe histories { p.others with
          threads := p.others.threads ++ [Interleaved.detached flight.rest] } := by
        refine ⟨h.others.keeps, fun t ht => ?_⟩
        rcases List.mem_append.mp ht with hold | hnew
        · exact h.others.safe t hold
        · rw [List.mem_singleton.mp hnew]
          exact hdetached
      exact (h.go hothers .refl).giveUp

theorem accounts_of_reachable (h : (detail settings caseId).ReachableVia DrawsFresh p) :
    Accounts caseId p := by
  refine h.invariant ?_ fun s move t hs hfresh hstep => hs.step hfresh hstep
  rintro s ⟨hreach, hkeys, hpending, hdone⟩
  have hempty : ∀ w : World γ, (lifecycle settings).init w → UniqueKeys w := by
    intro w hinit
    unfold UniqueKeys
    rw [hinit.2.1]
    exact .nil
  refine ⟨Threads.allSafe_of_reachable hempty others_safe hreach, ?_, ?_, ?_, ?_⟩
  · rw [hkeys]
    exact .nil
  · rw [hkeys, hdone]
    exact .nil
  · rw [hdone]
    intro entry hentry
    cases hentry
  · rw [hpending]
    rintro flight ⟨⟩

/-- No two of the recorded events have one key. -/
theorem nodup_recorded (h : Accounts caseId p) (action : CaseAction) :
    ((p.recorded caseId action).map (·.idempotencyKey)).Nodup := by
  have hunique : UniqueKeys p.others.store := h.others.keeps
  have hsub := hunique.sublist
    (List.filter_sublist (p := fun e => e.caseId = caseId ∧
      ∃ key ∈ p.drawn action, e.idempotencyKey = some key.val))
  rw [List.Nodup, List.pairwise_map]
  refine List.Pairwise.imp_of_mem ?_ hsub
  intro e f he hf hkeys heq
  obtain ⟨-, he⟩ := List.mem_filter.mp he
  obtain ⟨-, hf⟩ := List.mem_filter.mp hf
  rw [decide_eq_true_eq] at he hf
  obtain ⟨key, -, hkey⟩ := he.2
  rw [hkeys (he.1.trans hf.1.symm) heq] at hkey
  cases hkey

end accounts

/-- **Each action is recorded once.** What has succeeded is in the history with the hash of the action, and
there is nothing else of it but what the page has still to send again. -/
theorem recorded_once {settings : CaseSettings} {caseId : String} {p : CaseDetail γ}
    (h : (detail settings caseId).ReachableVia DrawsFresh p) (action : CaseAction) :
    p.successes action ≤
      ((p.recorded caseId action).filter fun e => e.requestHash = action.requestHash caseId).length ∧
    (p.recorded caseId action).length ≤
      p.successes action + if (p.kept action).isSome then 1 else 0 := by
  have haccounts := accounts_of_reachable h
  constructor
  · -- the keys of the successes are keys of such events
    have hnodup : (((p.done.filter fun entry => entry.1 = action).map Prod.snd).map
        fun key => some key.val).Nodup := by
      refine List.Nodup.map (fun key key' heq => Subtype.ext (Option.some.inj heq)) ?_
      have hdone : (p.done.map Prod.snd).Nodup := by
        have hdrawn := haccounts.drawn
        rw [List.map_append] at hdrawn
        exact hdrawn.of_append_left
      exact hdone.sublist (List.filter_sublist.map _)
    have hsub : ((p.done.filter fun entry => entry.1 = action).map Prod.snd).map
        (fun key => some key.val) ⊆ ((p.recorded caseId action).filter
          fun e => e.requestHash = action.requestHash caseId).map (·.idempotencyKey) := by
      intro k hk
      obtain ⟨key, hkey, rfl⟩ := List.mem_map.mp hk
      obtain ⟨entry, hentry, rfl⟩ := List.mem_map.mp hkey
      obtain ⟨hdone, haction⟩ := List.mem_filter.mp hentry
      rw [decide_eq_true_eq] at haction
      obtain ⟨e, he, hcase, hkey, hhash⟩ := haccounts.done entry hdone
      refine List.mem_map.mpr ⟨e, List.mem_filter.mpr ⟨List.mem_filter.mpr ⟨he, ?_⟩, ?_⟩, hkey⟩
      · rw [decide_eq_true_eq]
        refine ⟨hcase, entry.2, List.mem_map.mpr ⟨entry, ?_, rfl⟩, hkey⟩
        exact List.mem_filter.mpr ⟨List.mem_append_left _ hdone, decide_eq_true haction⟩
      · rw [decide_eq_true_eq, hhash, haction]
    have hlength := (hnodup.subperm hsub).length_le
    simpa [CaseDetail.successes] using hlength
  · have hsub : (p.recorded caseId action).map (·.idempotencyKey) ⊆
        (p.drawn action).map fun key => some key.val := by
      intro k hk
      obtain ⟨e, he, rfl⟩ := List.mem_map.mp hk
      obtain ⟨-, key, hkey, heq⟩ := of_decide_eq_true (List.mem_filter.mp he).2
      exact List.mem_map.mpr ⟨key, hkey, heq.symm⟩
    have hlength := ((nodup_recorded haccounts action).subperm hsub).length_le
    have hkept := Table.length_filter_le_one haccounts.actions action
    simp only [CaseDetail.drawn, List.length_map, List.filter_append, List.length_append] at hlength
    unfold CaseDetail.successes CaseDetail.kept
    rw [Option.isSome_map]
    omega

/-! ## A run -/

theorem keyOne_ne : "key-1" ≠ "" := by decide

theorem keyTwo_ne : "key-2" ≠ "" := by decide

def emptyDetail : CaseDetail Unit := ⟨⟨World.empty (), []⟩, [], none, []⟩

/-- A draft is submitted. The answer gets lost, the page submits again, and now it is answered. -/
def resubmission : List (DetailMove Unit) :=
  (undisturbed 0 2 (.api (engineer caseOne) (.createDraft (sampleDraft "session")))).map .others ++
  .click .submit "" (engineer noId) ⟨"key-1", keyOne_ne⟩ :: .access :: .access :: .lost ::
  .click .submit "" (engineer noId) ⟨"key-2", keyTwo_ne⟩ :: .access :: .access :: .answered :: []

theorem resubmission_recorded_once : ∃ p,
    (detail (sampleSettings .rabbitmq) "case-1").run emptyDetail resubmission = some p ∧
      p.successes .submit = 1 ∧ (p.recorded "case-1" .submit).length = 1 ∧
      1 ≤ ((p.recorded "case-1" .submit).filter
        fun e => e.requestHash = CaseAction.submit.requestHash "case-1").length := by
  have hchecked : ((detail (sampleSettings .rabbitmq) "case-1").runChecked
      (fun p move => decide (DrawsFresh p move)) emptyDetail resubmission).any
      (fun p => p.successes .submit = 1 && (p.kept .submit).isNone) = true := by
    decide +kernel
  obtain ⟨p, hp, hend⟩ := (Option.any_eq_true _ _).mp hchecked
  rw [Bool.and_eq_true, decide_eq_true_eq, Option.isNone_iff_eq_none] at hend
  obtain ⟨hone, hkept⟩ := hend
  have hreach : (detail (sampleSettings .rabbitmq) "case-1").ReachableVia DrawsFresh p :=
    .of_runChecked (fun _ _ h => of_decide_eq_true h)
      (.init ⟨.init ⟨⟨rfl, rfl, rfl, rfl, rfl, rfl⟩, rfl⟩, rfl, rfl, rfl⟩) hp
  obtain ⟨hlower, hupper⟩ := recorded_once hreach .submit
  rw [hone] at hlower hupper
  rw [hkept] at hupper
  refine ⟨p, TransitionSystem.run_of_runChecked hp, hone, Nat.le_antisymm hupper ?_, hlower⟩
  exact hlower.trans (List.length_filter_le _ _)

end EnergyAgent.Cases
