import EnergyAgent.Indexing.Consumer
import EnergyAgent.Indexing.HandlerRules
import EnergyAgent.Lib.Runs

/-!
# Bisection of failing batches

`EvaluationBatchDrainer._process` splits a batch that fails in two halves until single messages fail.
Here it is a program of the calls it makes (to the handlers, the repository, the broker and the
message itself), so that the calls of a run can be counted. Where the calls are those of the stored
state, it is `process`.
-/

namespace EnergyAgent.Indexing

open EnergyAgent.Lib EnergyAgent.Persistence

/-! ## The calls -/

/-- The calls of `_process` and `_fail`. An acknowledgement is the last thing done with a message,
after a success or after a failure. -/
inductive DrainCall
  | handleBatch (events : List IndexJobMessage)
  | finish (jobId : String) (status : IndexJobStatus)
  | fail (jobId errorCode errorMessage : String) (retry : Bool)
  | publish (event : IndexJobMessage) (dead : Bool)
  | ack (event : IndexJobMessage) (failed : Bool)
  deriving DecidableEq

/-- What a call returns, unless it raises. -/
def DrainCall.Answer : DrainCall → Type
  | .handleBatch _ => BatchResults
  | _ => Unit

/-- What the drainer is constructed with, over a store of any kind. `handle_batch` returns a result
for each of its messages. -/
structure DrainServices (σ : Type) where
  handleBatch : List IndexJobMessage → Prog σ HandlerError BatchResults
  finish : String → IndexJobStatus → Prog σ HandlerError Unit
  fail : String → String → String → Bool → Prog σ HandlerError Unit
  publish : IndexJobMessage → Bool → Prog σ HandlerError Unit
  ack : IndexJobMessage → Bool → Prog σ HandlerError Unit
  covers : ∀ events s results t, handleBatch events s = (.ok results, t) →
    ∀ event ∈ events, (resultOf results event.jobId).isSome

variable {σ : Type}

def DrainServices.answer (services : DrainServices σ) :
    (op : DrainCall) → Prog σ HandlerError op.Answer
  | .handleBatch events => services.handleBatch events
  | .finish jobId status => services.finish jobId status
  | .fail jobId errorCode errorMessage retry => services.fail jobId errorCode errorMessage retry
  | .publish event dead => services.publish event dead
  | .ack event failed => services.ack event failed

/-- The calls over the store of the services. -/
abbrev DrainServices.backend (services : DrainServices σ) : Backend where
  Op := DrainCall
  Ans op := Except HandlerError op.Answer
  Store := σ
  Input := Unit
  exec op _ s := some (services.answer op s)

/-- `self.completed` and `self.failed`, as a call of `_process` counts them up. -/
structure Tally where
  completed : Nat
  failed : Nat
  deriving DecidableEq, Repr

def Tally.add (a b : Tally) : Tally := ⟨a.completed + b.completed, a.failed + b.failed⟩

section programs

variable (services : DrainServices σ)

abbrev Drainer (α : Type) := Proc services.backend HandlerError α

/-- A call that is awaited: what it raises goes up. -/
def awaited (op : DrainCall) : Drainer services op.Answer :=
  .call op fun
    | .ok a => .ret a
    | .error e => .raise e

/-- The loop of `_process` over the results of a batch. -/
def finishEach (results : BatchResults) : List PendingMessage → Drainer services Tally
  | [] => .ret ⟨0, 0⟩
  | item :: items =>
      match resultOf results item.event.jobId with
      | none => .raise (.uncoded "KeyError")
      | some result => do
          let _finished ← awaited services (.finish item.event.jobId result.status)
          let _acked ← awaited services (.ack item.event false)
          let tally ← finishEach results items
          .ret (Tally.add ⟨1, 0⟩ tally)

/-- `_fail` -/
def failOne (item : PendingMessage) (e : HandlerError) : Drainer services Tally := do
  let dead := deadLettered item.attemptCount item.maxAttempts e
  let _failed ← awaited services (.fail item.event.jobId e.code e.typeName (!dead))
  let _published ← awaited services (.publish item.event dead)
  let _acked ← awaited services (.ack item.event true)
  .ret ⟨0, if dead then 1 else 0⟩

/-- `_process` -/
def processCalls (pending : List PendingMessage) : Drainer services Tally :=
  .call (.handleBatch (pending.map (·.event))) fun
    | .ok results => finishEach services results pending
    | .error e =>
        if e = .cancelled then .raise e
        else
          match pending with
          | [] => .raise (.uncoded "IndexError")
          | [item] => failOne services item e
          | item :: item' :: items => do
              let first ← processCalls ((item :: item' :: items).take ((items.length + 2) / 2))
              let second ← processCalls ((item :: item' :: items).drop ((items.length + 2) / 2))
              .ret (first.add second)
termination_by pending.length
decreasing_by
  · simp only [List.length_take, List.length_cons]
    omega
  · simp only [List.length_drop, List.length_cons]
    omega

end programs

/-! ## Counting calls -/

section counting

variable {services : DrainServices σ}

/-- The call finishes the job. -/
def finishes (jobId : String) (call : services.backend.Call) : Bool :=
  match call.1 with
  | .finish id _ => id = jobId
  | _ => false

/-- The call fails the job. -/
def fails (jobId : String) (call : services.backend.Call) : Bool :=
  match call.1 with
  | .fail id _ _ _ => id = jobId
  | _ => false

/-- The call acknowledges the message. -/
def acks (event : IndexJobMessage) (call : services.backend.Call) : Bool :=
  match call.1 with
  | .ack acked _ => acked = event
  | _ => false

/-- The call is a batch with the message that succeeds. -/
def handles (event : IndexJobMessage) : services.backend.Call → Bool
  | ⟨.handleBatch events, .ok _⟩ => event ∈ events
  | _ => false

/-- What the calls of a run come to: messages that are not in `bad` are finished, the others are
failed, all are acknowledged, and those not in `bad` are handled. -/
structure Accounted (bad : IndexJobMessage → Bool) (pending : List PendingMessage)
    (calls : List services.backend.Call) (tally : Tally) : Prop where
  finishes : ∀ jobId, calls.countP (finishes jobId) =
    pending.countP fun item => item.event.jobId = jobId ∧ bad item.event = false
  fails : ∀ jobId, calls.countP (fails jobId) =
    pending.countP fun item => item.event.jobId = jobId ∧ bad item.event = true
  acks : ∀ event, calls.countP (acks event) = pending.countP fun item => item.event = event
  handles : ∀ event, calls.countP (handles event) =
    pending.countP fun item => item.event = event ∧ bad item.event = false
  completed : tally.completed = pending.countP fun item => bad item.event = false

variable {bad : IndexJobMessage → Bool} {pending pending' : List PendingMessage}
  {calls calls' : List services.backend.Call} {tally tally' : Tally}

/-- Two halves, one after the other. -/
theorem Accounted.append (h : Accounted bad pending calls tally)
    (h' : Accounted bad pending' calls' tally') :
    Accounted bad (pending ++ pending') (calls ++ calls') (tally.add tally') where
  finishes jobId := by rw [List.countP_append, List.countP_append, h.finishes, h'.finishes]
  fails jobId := by rw [List.countP_append, List.countP_append, h.fails, h'.fails]
  acks event := by rw [List.countP_append, List.countP_append, h.acks, h'.acks]
  handles event := by rw [List.countP_append, List.countP_append, h.handles, h'.handles]
  completed := by
    rw [List.countP_append, ← h.completed, ← h'.completed]
    rfl

/-- A batch that fails counts for nothing. -/
theorem Accounted.afterFailure (h : Accounted bad pending calls tally)
    (events : List IndexJobMessage) (e : HandlerError) :
    Accounted bad pending (⟨.handleBatch events, .error e⟩ :: calls) tally where
  finishes jobId := by
    rw [← h.finishes]
    exact List.countP_cons_of_neg Bool.false_ne_true
  fails jobId := by
    rw [← h.fails]
    exact List.countP_cons_of_neg Bool.false_ne_true
  acks event := by
    rw [← h.acks]
    exact List.countP_cons_of_neg Bool.false_ne_true
  handles event := by
    rw [← h.handles]
    exact List.countP_cons_of_neg Bool.false_ne_true
  completed := h.completed

end counting

/-! ## Runs in which only batches fail -/

/-- The repository, the broker and the acknowledgements succeed. -/
def DrainServices.CallsSucceed (services : DrainServices σ) : Prop :=
  ∀ op, (∀ events, op ≠ .handleBatch events) → ∀ s, ∃ a t, services.answer op s = (.ok a, t)

/-- A batch raises exactly when it contains a message of `bad`. -/
def DrainServices.RaisesOn (services : DrainServices σ) (bad : IndexJobMessage → Bool) : Prop :=
  ∀ events s, (∃ e t, services.handleBatch events s = (.error e, t)) ↔
    ∃ event ∈ events, bad event = true

/-- What a batch raises is an `Exception`. -/
def DrainServices.RaisesExceptions (services : DrainServices σ) : Prop :=
  ∀ events s e t, services.handleBatch events s = (.error e, t) → e ≠ .cancelled

section run

variable {services : DrainServices σ} {bad : IndexJobMessage → Bool}

theorem trace_awaited (hcalls : services.CallsSucceed) (op : DrainCall)
    (hop : ∀ events, op ≠ .handleBatch events) (s : σ) :
    ∃ a t, (awaited services op).trace services.answer s = ([⟨op, .ok a⟩], .ok a, t) := by
  obtain ⟨a, t, hanswer⟩ := hcalls op hop s
  refine ⟨a, t, ?_⟩
  simp only [awaited, Proc.trace, hanswer]

/-- The calls after a batch that succeeded: each message is finished and acknowledged. -/
theorem trace_finishEach (hcalls : services.CallsSucceed) {results : BatchResults}
    (items : List PendingMessage)
    (hresults : ∀ item ∈ items, (resultOf results item.event.jobId).isSome) (s : σ) :
    ∃ calls t, (finishEach services results items).trace services.answer s =
        (calls, .ok ⟨items.length, 0⟩, t) ∧
      (∀ jobId, calls.countP (finishes jobId) = items.countP fun item => item.event.jobId = jobId) ∧
      (∀ jobId, calls.countP (fails jobId) = 0) ∧
      (∀ event, calls.countP (acks event) = items.countP fun item => item.event = event) ∧
      ∀ event, calls.countP (handles event) = 0 := by
  induction items generalizing s with
  | nil => exact ⟨[], s, rfl, by simp, by simp, by simp, by simp⟩
  | cons item items ih =>
      obtain ⟨result, hresult⟩ := Option.isSome_iff_exists.mp (hresults item (List.mem_cons_self ..))
      obtain ⟨finished, s₁, hfinish⟩ := trace_awaited hcalls
        (.finish item.event.jobId result.status) (by simp) s
      obtain ⟨acked, s₂, hack⟩ := trace_awaited hcalls (.ack item.event false) (by simp) s₁
      obtain ⟨calls, t, hrest, hfinishes, hfails, hacks, hhandles⟩ :=
        ih (fun other hother => hresults other (List.mem_cons_of_mem _ hother)) s₂
      have htally : (finishEach services results items >>= fun tally =>
          Proc.ret (Tally.add ⟨1, 0⟩ tally)).trace services.answer s₂ =
          (calls, .ok ⟨(item :: items).length, 0⟩, t) := by
        rw [← List.append_nil calls]
        refine Proc.trace_bind_ok hrest ?_
        simp [Proc.trace, Tally.add, Nat.add_comm]
      refine ⟨⟨.finish item.event.jobId result.status, .ok finished⟩ ::
        ⟨.ack item.event false, .ok acked⟩ :: calls, t, ?_, ?_, ?_, ?_, ?_⟩
      · unfold finishEach
        simp only [hresult]
        exact Proc.trace_bind_ok hfinish (Proc.trace_bind_ok hack htally)
      · intro jobId
        simp [List.countP_cons, finishes, hfinishes]
      · intro jobId
        simp [fails, hfails]
      · intro event
        simp [List.countP_cons, acks, hacks]
      · intro event
        simp [handles, hhandles]

/-- The calls after a single message that failed. -/
theorem trace_failOne (hcalls : services.CallsSucceed) {item : PendingMessage}
    (hbad : bad item.event = true) (e : HandlerError) (s : σ) :
    ∃ calls tally t, (failOne services item e).trace services.answer s = (calls, .ok tally, t) ∧
      Accounted bad [item] calls tally := by
  obtain ⟨failed, s₁, hfail⟩ := trace_awaited hcalls
    (.fail item.event.jobId e.code e.typeName
      (!deadLettered item.attemptCount item.maxAttempts e)) (by simp) s
  obtain ⟨published, s₂, hpublish⟩ := trace_awaited hcalls
    (.publish item.event (deadLettered item.attemptCount item.maxAttempts e)) (by simp) s₁
  obtain ⟨acked, t, hack⟩ := trace_awaited hcalls (.ack item.event true) (by simp) s₂
  refine ⟨_, _, t, Proc.trace_bind_ok hfail (Proc.trace_bind_ok hpublish
    (Proc.trace_bind_ok hack rfl)), ?_, ?_, ?_, ?_, ?_⟩
  · intro jobId
    simp [finishes, hbad]
  · intro jobId
    simp [List.countP_cons, fails, hbad]
  · intro event
    simp [List.countP_cons, acks]
  · intro event
    simp [handles, hbad]
  · simp [hbad]

/-- The calls of a batch that succeeds. -/
theorem accounted_of_ok (hcalls : services.CallsSucceed) (hraises : services.RaisesOn bad)
    {pending : List PendingMessage} (hdistinct : (pending.map (·.event)).Nodup) {s s₁ : σ}
    {results : BatchResults}
    (hbatch : services.handleBatch (pending.map (·.event)) s = (.ok results, s₁)) :
    ∃ calls tally t, (processCalls services pending).trace services.answer s =
      (calls, .ok tally, t) ∧ Accounted bad pending calls tally := by
  have hgood : ∀ item ∈ pending, bad item.event = false := by
    intro item hitem
    refine Bool.eq_false_iff.mpr fun hbad => ?_
    obtain ⟨e, t, herror⟩ := (hraises (pending.map (·.event)) s).mpr
      ⟨item.event, List.mem_map_of_mem hitem, hbad⟩
    rw [hbatch] at herror
    cases herror
  have hresults : ∀ item ∈ pending, (resultOf results item.event.jobId).isSome := fun item hitem =>
    services.covers _ _ _ _ hbatch item.event (List.mem_map_of_mem hitem)
  obtain ⟨calls, t, hrest, hfinishes, hfails, hacks, hhandles⟩ :=
    trace_finishEach hcalls pending hresults s₁
  refine ⟨⟨.handleBatch (pending.map (·.event)), .ok results⟩ :: calls, ⟨pending.length, 0⟩, t,
    ?_, ?_, ?_, ?_, ?_, ?_⟩
  · rw [processCalls]
    have hanswer : services.answer (.handleBatch (pending.map (·.event))) s = (.ok results, s₁) := hbatch
    simp only [Proc.trace, hanswer, hrest]
  · intro jobId
    rw [List.countP_cons_of_neg Bool.false_ne_true, hfinishes]
    refine List.countP_congr fun item hitem => ?_
    simp [hgood item hitem]
  · intro jobId
    rw [List.countP_cons_of_neg Bool.false_ne_true, hfails, eq_comm]
    refine List.countP_eq_zero.mpr fun item hitem => ?_
    simp [hgood item hitem]
  · intro event
    rw [List.countP_cons_of_neg Bool.false_ne_true, hacks]
  · intro event
    -- the batch is the only call that handles, and it contains the message once
    have hcount : (pending.countP fun item => item.event = event ∧ bad item.event = false) =
        (pending.map (·.event)).count event := by
      rw [List.count, List.countP_map]
      refine List.countP_congr fun item hitem => ?_
      simp [hgood item hitem]
    rw [List.countP_cons, hhandles, hcount, hdistinct.count, Nat.zero_add]
    simp only [handles, decide_eq_true_eq]
  · exact (List.countP_eq_length.mpr fun item hitem => by simp [hgood item hitem]).symm

/-- The element with a key, counted under a condition. -/
theorem countP_of_key {α κ : Type} [DecidableEq κ] {f : α → κ} {l : List α}
    (hdistinct : (l.map f).Nodup) {a : α} (ha : a ∈ l) (p : α → Prop) [DecidablePred p] :
    (l.countP fun b => f b = f a ∧ p b) = if p a then 1 else 0 := by
  induction l with
  | nil => exact absurd ha List.not_mem_nil
  | cons b l ih =>
      rw [List.map_cons, List.nodup_cons] at hdistinct
      rw [List.countP_cons]
      rcases List.mem_cons.mp ha with rfl | ha
      · have hrest : (l.countP fun b => f b = f a ∧ p b) = 0 := by
          refine List.countP_eq_zero.mpr fun c hc heq => ?_
          have hkey : f c = f a := (of_decide_eq_true heq).1
          exact hdistinct.1 (hkey ▸ List.mem_map_of_mem hc)
        rw [hrest]
        simp
      · have hne : f b ≠ f a := fun heq => hdistinct.1 (heq ▸ List.mem_map_of_mem ha)
        rw [ih hdistinct.2 ha]
        simp [hne]

/-- **What a run of `_process` comes to.** By induction on the number of messages: a batch that fails
is one message of `bad`, or two smaller batches. -/
theorem trace_processCalls (hcalls : services.CallsSucceed) (hraises : services.RaisesOn bad)
    (hexceptions : services.RaisesExceptions) {pending : List PendingMessage}
    (hdistinct : (pending.map (·.event)).Nodup) (hne : pending ≠ []) (s : σ) :
    ∃ calls tally t, (processCalls services pending).trace services.answer s =
      (calls, .ok tally, t) ∧ Accounted bad pending calls tally := by
  induction hlength : pending.length using Nat.strongRecOn generalizing pending s with
  | _ n ih =>
      cases hbatch : services.handleBatch (pending.map (·.event)) s with
      | mk outcome s₁ =>
          cases outcome with
          | ok results => exact accounted_of_ok hcalls hraises hdistinct hbatch
          | error e =>
              have hcancelled : e ≠ .cancelled := hexceptions _ _ _ _ hbatch
              have hanswer : services.answer (.handleBatch (pending.map (·.event))) s =
                  (.error e, s₁) := hbatch
              rcases pending with _ | ⟨item, _ | ⟨item', items⟩⟩
              · exact absurd rfl hne
              · -- a single message
                obtain ⟨event, hevent, hbad⟩ := (hraises [item.event] s).mp ⟨e, s₁, hbatch⟩
                rw [List.mem_singleton.mp hevent] at hbad
                obtain ⟨calls, tally, t, hfail, haccounted⟩ := trace_failOne hcalls hbad e s₁
                refine ⟨_, tally, t, ?_, haccounted.afterFailure [item.event] e⟩
                rw [processCalls]
                simp only [Proc.trace, hanswer, if_neg hcancelled, hfail]
                rfl
              · -- both halves are shorter and have a message
                obtain ⟨calls, tally, t, hfirst, haccounted⟩ := @ih _ (by
                    rw [← hlength, List.length_take, List.length_cons, List.length_cons]
                    omega)
                  ((item :: item' :: items).take ((items.length + 2) / 2))
                  (hdistinct.sublist ((List.take_sublist _ _).map _)) (by simp) s₁ rfl
                obtain ⟨calls', tally', t', hsecond, haccounted'⟩ := @ih _ (by
                    rw [← hlength, List.length_drop, List.length_cons, List.length_cons]
                    omega)
                  ((item :: item' :: items).drop ((items.length + 2) / 2))
                  (hdistinct.sublist ((List.drop_sublist _ _).map _)) (by
                    apply List.ne_nil_of_length_pos
                    rw [List.length_drop, List.length_cons, List.length_cons]
                    omega) t rfl
                have hboth := haccounted.append haccounted'
                rw [List.take_append_drop] at hboth
                refine ⟨_, _, t', ?_,
                  hboth.afterFailure ((item :: item' :: items).map (·.event)) e⟩
                have hrest := Proc.trace_bind_ok (f := fun first => processCalls services
                    ((item :: item' :: items).drop ((items.length + 2) / 2)) >>= fun second =>
                      Proc.ret (first.add second)) hfirst (Proc.trace_bind_ok hsecond rfl)
                rw [List.append_nil] at hrest
                rw [processCalls]
                simp only [Proc.trace, hanswer, if_neg hcancelled]
                rw [hrest]

/-- **Bisection isolates failures.** Where batches raise exactly when they contain a message of `bad`,
`_process` ends, and in its run each other message is finished, acknowledged and in a batch that
succeeds once, and never failed; each message of `bad` is failed and acknowledged once, and never
finished. -/
theorem bisection_isolates (services : DrainServices σ) (bad : IndexJobMessage → Bool)
    (hraises : services.RaisesOn bad) (hexceptions : services.RaisesExceptions)
    (hcalls : services.CallsSucceed) (pending : List PendingMessage) (hne : pending ≠ [])
    (hdistinct : (pending.map (·.event.jobId)).Nodup) (s : σ) :
    ∃ calls tally t, (processCalls services pending).trace services.answer s =
        (calls, .ok tally, t) ∧
      tally.completed = (pending.filter fun item => bad item.event = false).length ∧
      ∀ item ∈ pending, calls.countP (acks item.event) = 1 ∧
        if bad item.event then
          calls.countP (fails item.event.jobId) = 1 ∧ calls.countP (finishes item.event.jobId) = 0 ∧
            calls.countP (handles item.event) = 0
        else
          calls.countP (finishes item.event.jobId) = 1 ∧ calls.countP (fails item.event.jobId) = 0 ∧
            calls.countP (handles item.event) = 1 := by
  have hevents : (pending.map (·.event)).Nodup := by
    refine List.Nodup.of_map IndexJobMessage.jobId ?_
    rw [List.map_map]
    exact hdistinct
  obtain ⟨calls, tally, t, htrace, haccounted⟩ :=
    trace_processCalls hcalls hraises hexceptions hevents hne s
  refine ⟨calls, tally, t, htrace, ?_, fun item hitem => ?_⟩
  · rw [haccounted.completed, List.countP_eq_length_filter]
  · have hack := countP_of_key hevents hitem fun _ => True
    simp only [and_true, if_true] at hack
    refine ⟨(haccounted.acks item.event).trans hack, ?_⟩
    rw [haccounted.finishes, haccounted.fails, haccounted.handles,
      countP_of_key hdistinct hitem fun other => bad other.event = false,
      countP_of_key hdistinct hitem fun other => bad other.event = true,
      countP_of_key hevents hitem fun other => bad other.event = false]
    cases bad item.event <;> simp

end run

/-! ## The stored state -/

section stored

variable {γ : Type}

theorem orderTickets_events {w : World γ} : ∀ {events : List IndexJobMessage}
    {tasks : List TicketTask}, orderTickets w events = .ok tasks → tasks.map (·.event) = events
  | [], tasks, h => by
    cases h
    rfl
  | event :: events, tasks, h => by
    unfold orderTickets at h
    obtain ⟨ticket, -, h⟩ := Prog.except_bind_eq_ok h
    obtain ⟨rest, hrest, h⟩ := Prog.except_bind_eq_ok h
    cases h
    rw [List.map_cons, orderTickets_events hrest]

theorem indexCases_keys {ports : IndexPorts γ} : ∀ {tasks : List CaseTask} {w w' : World γ}
    {results : BatchResults}, indexCases ports tasks w = (.ok results, w') →
      results.map Prod.fst = tasks.map (·.event.jobId)
  | [], _, _, _, h => by
    cases h
    rfl
  | task :: tasks, w, w', results, h => by
    unfold indexCases at h
    obtain ⟨degraded, w₁, -, h⟩ := Prog.bind_eq_ok h
    obtain ⟨_, w₂, -, h⟩ := Prog.bind_eq_ok h
    obtain ⟨rest, w₃, hrest, h⟩ := Prog.bind_eq_ok h
    cases h
    rw [List.map_cons, List.map_cons, indexCases_keys hrest]

theorem handleEach_keys {ports : IndexPorts γ} : ∀ {events : List IndexJobMessage}
    {w w' : World γ} {results : BatchResults}, handleEach ports events w = (.ok results, w') →
      results.map Prod.fst = events.map (·.jobId)
  | [], _, _, _, h => by
    cases h
    rfl
  | event :: events, w, w', results, h => by
    obtain ⟨result, w₁, rest, -, hrest, rfl⟩ := handleEach_cons_eq_ok h
    rw [List.map_cons, List.map_cons, handleEach_keys hrest]

/-- The results of a batch are those of its messages. -/
theorem handleBatch_keys {ports : IndexPorts γ} {events : List IndexJobMessage} {w w' : World γ}
    {results : BatchResults} (h : handleBatch ports events w = (.ok results, w')) :
    results.map Prod.fst = events.map (·.jobId) := by
  rcases handleBatch_cases ports events with ⟨-, hbatch⟩ | ⟨-, hbatch⟩ | hbatch
  · rw [hbatch, ticketBatch, Prog.bind_read] at h
    obtain ⟨tasks, horder, h⟩ := Prog.bind_lift_eq_ok h
    obtain ⟨vectors, -, h⟩ := Prog.bind_lift_eq_ok h
    obtain ⟨_, w₁, -, h⟩ := Prog.bind_eq_ok h
    cases h
    rw [← orderTickets_events horder, ticketResults, List.map_map, List.map_map]
    rfl
  · rw [hbatch, caseBatch, Prog.bind_read] at h
    obtain ⟨tasks, horder, h⟩ := Prog.bind_lift_eq_ok h
    obtain ⟨vectors, -, h⟩ := Prog.bind_lift_eq_ok h
    obtain ⟨_, w₁, -, h⟩ := Prog.bind_eq_ok h
    rw [indexCases_keys h, ← orderCases_events horder, List.map_map]
    rfl
  · rw [hbatch] at h
    exact handleEach_keys h

theorem isSome_resultOf {results : BatchResults} {jobId : String}
    (h : jobId ∈ results.map Prod.fst) : (resultOf results jobId).isSome := by
  obtain ⟨entry, hentry, rfl⟩ := List.mem_map.mp h
  unfold resultOf
  rw [Option.isSome_map, List.find?_isSome]
  exact ⟨entry, List.mem_reverse.mpr hentry, by simp⟩

/-- The calls of the drainer on the stored state. -/
def worldServices (ports : ConsumerPorts γ) : DrainServices (World γ) where
  handleBatch := handleBatch ports.handlers
  finish jobId status := Prog.write (finish jobId status)
  fail jobId errorCode errorMessage retry := Prog.write (fail jobId errorCode errorMessage retry)
  publish event dead := publishFailed (ports.publish event) dead event
  ack event failed := ackMessage (if failed then ports.lastAck event else ports.ack event) event
  covers _ _ _ _ h event hevent := by
    apply isSome_resultOf
    rw [handleBatch_keys h]
    exact List.mem_map_of_mem hevent

/-- A program of calls as a program over the store. -/
def onStore {services : DrainServices σ} {α : Type} (x : Drainer services α) :
    Prog σ HandlerError α := fun s => (x.trace services.answer s).2

theorem onStore_bind {services : DrainServices σ} {α β : Type} (x : Drainer services α)
    (f : α → Drainer services β) :
    onStore (x >>= f) = onStore x >>= fun a => onStore (f a) := by
  funext s
  rcases hx : x.trace services.answer s with ⟨calls, e | a, t⟩
  · have hstop : onStore x s = (.error e, t) := congrArg Prod.snd hx
    rw [Prog.bind_of_error hstop]
    exact congrArg Prod.snd (Proc.trace_bind_error hx)
  · have hgo : onStore x s = (.ok a, t) := congrArg Prod.snd hx
    rw [Prog.bind_of_ok hgo]
    rcases hf : (f a).trace services.answer t with ⟨calls', r, u⟩
    exact (congrArg Prod.snd (Proc.trace_bind_ok hx hf)).trans (congrArg Prod.snd hf).symm

theorem onStore_awaited (services : DrainServices σ) (op : DrainCall) :
    onStore (awaited services op) = services.answer op := by
  funext s
  unfold onStore awaited
  simp only [Proc.trace]
  rcases services.answer op s with ⟨_ | a, t⟩ <;> rfl

/-- What a program does to the store, its result left aside. -/
def discarding {α : Type} (x : Prog σ HandlerError α) : Prog σ HandlerError Unit := do
  let _result ← x
  pure ()

theorem discarding_congr {α : Type} {x y : Prog σ HandlerError α} {s t : σ} (h : x s = y t) :
    discarding x s = discarding y t := by
  unfold discarding
  rw [Prog.bind_apply, h]
  rfl

theorem onStore_call {services : DrainServices σ} {op : DrainCall} {α : Type}
    (k : Except HandlerError op.Answer → Drainer services α) {s t : σ}
    {r : Except HandlerError op.Answer} (h : services.answer op s = (r, t)) :
    onStore (.call op k : Drainer services α) s = onStore (k r) t := by
  unfold onStore
  simp only [Proc.trace, h]

theorem finishAll_eq (ports : ConsumerPorts γ) (results : BatchResults)
    (items : List PendingMessage) : finishAll ports results items =
      discarding (onStore (finishEach (worldServices ports) results items)) := by
  induction items with
  | nil => rfl
  | cons item items ih =>
      unfold finishAll finishEach
      cases hresult : resultOf results item.event.jobId with
      | none => rfl
      | some result =>
          unfold discarding at ih ⊢
          simp only [onStore_bind, onStore_awaited, ih, Prog.bind_assoc]
          rfl

theorem failMessage_eq (ports : ConsumerPorts γ) (item : PendingMessage) (e : HandlerError) :
    failMessage ports item.event item.attemptCount item.maxAttempts e =
      discarding (onStore (failOne (worldServices ports) item e)) := by
  unfold failMessage failOne discarding
  simp only [onStore_bind, onStore_awaited, Prog.bind_assoc]
  have hlast : (ackMessage (ports.lastAck item.event) item.event : Handler γ Unit) =
      ackMessage (ports.lastAck item.event) item.event >>= pure := (Prog.bind_pure _).symm
  rw [hlast]
  rfl

/-- **The program of calls is `_process`.** On the stored state it does what `process` does. -/
theorem process_eq (ports : ConsumerPorts γ) (pending : List PendingMessage) :
    process ports pending = discarding (onStore (processCalls (worldServices ports) pending)) := by
  induction hlength : pending.length using Nat.strongRecOn generalizing pending with
  | _ n ih =>
      funext w
      rw [process, processCalls]
      rcases hbatch : handleBatch ports.handlers (pending.map (·.event)) w with ⟨e | results, w'⟩
      · have hanswer : (worldServices ports).answer (.handleBatch (pending.map (·.event))) w =
            (.error e, w') := hbatch
        refine Eq.trans ?_ (discarding_congr (onStore_call _ hanswer).symm)
        simp only [hbatch]
        by_cases hcancelled : e = .cancelled
        · simp only [if_pos hcancelled]
          rfl
        · simp only [if_neg hcancelled]
          rcases pending with _ | ⟨item, _ | ⟨item', items⟩⟩
          · -- the empty batch does not fail
            cases hbatch
          · exact congrFun (failMessage_eq ports item e) w'
          · have htake : ((item :: item' :: items).take ((items.length + 2) / 2)).length < n := by
              rw [← hlength, List.length_take, List.length_cons, List.length_cons]
              omega
            have hdrop : ((item :: item' :: items).drop ((items.length + 2) / 2)).length < n := by
              rw [← hlength, List.length_drop, List.length_cons, List.length_cons]
              omega
            dsimp only
            rw [ih _ htake _ rfl, ih _ hdrop _ rfl]
            unfold discarding
            simp only [onStore_bind, Prog.bind_assoc]
            rfl
      · have hanswer : (worldServices ports).answer (.handleBatch (pending.map (·.event))) w =
            (.ok results, w') := hbatch
        refine Eq.trans ?_ (discarding_congr (onStore_call _ hanswer).symm)
        simp only [hbatch]
        exact congrFun (finishAll_eq ports results pending) w'

end stored

/-! ### A batch of three with one bad message -/

/-- Handlers that raise for the job `job-2`, everything else succeeding. -/
def pickyServices : DrainServices Unit where
  handleBatch events :=
    if events.any (·.jobId = "job-2") then Prog.raise (.permanent "INDEX_ENTITY_NOT_FOUND")
    else pure (events.map fun event => (event.jobId, ⟨.indexed, false⟩))
  finish _ _ := pure ()
  fail _ _ _ _ := pure ()
  publish _ _ := pure ()
  ack _ _ := pure ()
  covers events s results t h event hevent := by
    split at h
    · cases h
    · cases h
      apply isSome_resultOf
      rw [List.map_map]
      exact List.mem_map_of_mem hevent

def pendingManual (jobId : String) : PendingMessage where
  event :=
    { jobId, entityType := .manualDocument, entityId := "doc", entityVersion := "1"
      operation := .upsert, traceId := "trace", correlationId := "doc", causationId := "import" }
  attemptCount := 1
  maxAttempts := defaultMaxAttempts

theorem pickyServices_raises : pickyServices.RaisesOn fun event => event.jobId = "job-2" := by
  intro events s
  simp only [pickyServices]
  split
  · next hbad => exact iff_of_true ⟨_, _, rfl⟩ (by simpa using hbad)
  · next hgood =>
      refine iff_of_false ?_ (by simpa using hgood)
      rintro ⟨e, t, h⟩
      cases h

theorem second_of_three_fails : ∃ calls tally t,
    (processCalls pickyServices
        [pendingManual "job-1", pendingManual "job-2", pendingManual "job-3"]).trace
          pickyServices.answer () = (calls, .ok tally, t) ∧
      tally.completed = 2 ∧ calls.countP (fails "job-2") = 1 := by
  obtain ⟨calls, tally, t, htrace, hcompleted, hitems⟩ :=
    bisection_isolates pickyServices (fun event => event.jobId = "job-2") pickyServices_raises
      (by
        intro events s e t h
        simp only [pickyServices] at h
        split at h
        · cases h
          simp
        · cases h)
      (by
        intro op hop s
        cases op with
        | handleBatch events => exact absurd rfl (hop events)
        | finish | fail | publish | ack => exact ⟨(), s, rfl⟩)
      [pendingManual "job-1", pendingManual "job-2", pendingManual "job-3"] (by simp) (by decide) ()
  refine ⟨calls, tally, t, htrace, hcompleted, ?_⟩
  exact (hitems (pendingManual "job-2") (by simp)).2.1

end EnergyAgent.Indexing
