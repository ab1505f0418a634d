import EnergyAgent.Cases.Application
import EnergyAgent.Indexing.HandlerRules
import EnergyAgent.Indexing.Consumer

/-!
# What every reachable state satisfies

Every write to a case, by the API or by a worker, is one of four kinds: a new draft is inserted, a
row evolves, a row is activated, or a row is queued together with an index job. `Evolves` says what
all of them have in common: the review status moves along the life cycle, and the identity of the
row stays. `Base` collects what follows from that alone, in both index execution modes and for every
behaviour of the providers; the claims about lost requests, readable rows and supersession are
proved on top of it.
-/

namespace EnergyAgent.Cases

open EnergyAgent.Lib EnergyAgent.Persistence EnergyAgent.Indexing

variable {γ : Type}

/-! ## The life cycle of a row -/

/-- The review statuses that may follow each other. -/
def statusStep : CaseStatus → CaseStatus → Bool
  | .draft, .pendingReview => true
  | .pendingReview, .approved => true
  | .pendingReview, .rejected => true
  | .approved, .disabled => true
  | .approved, .superseded => true
  | a, b => a = b

/-- Decided by a reviewer: neither `DRAFT` nor `PENDING_REVIEW`. -/
def decided (status : CaseStatus) : Bool := status ≠ .draft ∧ status ≠ .pendingReview

/-- Approved now, or approved once and withdrawn since. -/
def accepted (status : CaseStatus) : Bool := status = .approved ∨ status.withdrawn

theorem statusStep_refl (a : CaseStatus) : statusStep a a = true := by
  cases a <;> rfl

theorem statusStep_withdrawn {a b : CaseStatus} (h : statusStep a b = true)
    (ha : a.withdrawn = true) : b.withdrawn = true := by
  revert h ha
  cases a <;> cases b <;> decide

theorem statusStep_accepted {a b : CaseStatus} (h : statusStep a b = true)
    (ha : accepted a = true) : accepted b = true := by
  revert h ha
  cases a <;> cases b <;> decide

theorem statusStep_decided {a b : CaseStatus} (h : statusStep a b = true)
    (ha : decided a = true) : decided b = true := by
  revert h ha
  cases a <;> cases b <;> decide

/-- A decided case that is not approved never becomes approved. -/
theorem statusStep_not_approved {a b : CaseStatus} (h : statusStep a b = true)
    (ha : decided a = true) (hn : a ≠ .approved) : b ≠ .approved := by
  revert h ha hn
  cases a <;> cases b <;> decide

/-- What every write to a stored row keeps to. -/
structure Evolves (row row' : DiagnosisCaseModel) : Prop where
  caseId : row'.caseId = row.caseId
  caseVersion : row'.caseVersion = row.caseVersion
  supersedesCaseId : row'.supersedesCaseId = row.supersedesCaseId
  status : statusStep row.reviewStatus row'.reviewStatus = true
  active : row'.isActive = true → row'.reviewStatus = .approved
  readable : row'.reviewStatus ≠ .draft → Readable row'

/-! ## Messages and jobs -/

/-- The message speaks of the entity and operation of the job. -/
def Describes (m : IndexJobMessage) (job : IndexJobModel) : Prop :=
  m.jobId = job.jobId ∧ m.entityType = job.entityType ∧ m.entityId = job.entityId ∧
    m.entityVersion = job.entityVersion ∧ m.operation = job.operation

/-- The message belongs to a stored job. -/
def Belongs (w : World γ) (m : IndexJobMessage) : Prop :=
  ∃ job ∈ w.jobs, Describes m job

/-- The job has a `PENDING` outbox row, or a message that has not been settled. -/
def Live (w : World γ) (jobId : String) : Prop :=
  (∃ row ∈ w.outbox, row.jobId = jobId ∧ row.publishStatus = .pending) ∨
    ∃ m ∈ w.queue ++ w.unacked, m.jobId = jobId

/-- The review status a case must have for a job on it: a tombstone is only ever asked for a
withdrawn case, an upsert or reindex for an accepted one, and nothing asks for a graph projection. -/
def jobStatus : IndexOperation → CaseStatus → Bool
  | .tombstone, status => status.withdrawn
  | .upsert, status | .reindex, status => accepted status
  | .graphProject, _ => false

theorem statusStep_jobStatus {operation : IndexOperation} {a b : CaseStatus}
    (h : statusStep a b = true) (ha : jobStatus operation a = true) :
    jobStatus operation b = true := by
  cases operation with
  | tombstone => exact statusStep_withdrawn h ha
  | upsert => exact statusStep_accepted h ha
  | reindex => exact statusStep_accepted h ha
  | graphProject => cases ha

/-! ## The invariant -/

/-- What the tables satisfy in every reachable state, whatever the mode and the providers. -/
structure Tables (w : World γ) : Prop where
  caseIds : (w.cases.map (·.caseId)).Nodup
  jobIds : (w.jobs.map (·.jobId)).Nodup
  outboxIds : (w.outbox.map (·.id)).Nodup
  active : ∀ {k row}, w.getCase k = some row → row.isActive = true → row.reviewStatus = .approved
  readable : ∀ {k row}, w.getCase k = some row → row.reviewStatus ≠ .draft → Readable row
  nonempty : w.getCase "" = none
  original : ∀ {k row o}, w.getCase k = some row → row.supersedesCaseId = some o →
    ∃ orow, w.getCase o = some orow ∧ decided orow.reviewStatus = true
  caseJob : ∀ job ∈ w.jobs, job.entityType = .diagnosisCase → ∃ row,
    w.getCase job.entityId = some row ∧ toString row.caseVersion = job.entityVersion ∧
      jobStatus job.operation row.reviewStatus = true
  superseded : ∀ event ∈ w.caseEvents, ∀ c, event.requestHash = .supersede c →
    event.caseId = c ∧ ∃ row, w.getCase c = some row ∧ row.reviewStatus.withdrawn = true
  outboxPayload : ∀ row ∈ w.outbox, row.payload.jobId = row.jobId ∧ Belongs w row.payload

/-- What the tables and the messages satisfy when every step runs to its end. -/
structure Base (w : World γ) : Prop extends Tables w where
  messages : ∀ m ∈ w.queue ++ w.unacked, Belongs w m
  live : ∀ job ∈ w.jobs, job.status.terminal = false → Live w job.jobId

/-- The review events that a write may append: the record of a supersession comes with the
withdrawal of the case. -/
def EventsFit (events : List CaseReviewEventModel) (k : String) (row' : DiagnosisCaseModel) : Prop :=
  ∀ event ∈ events, ∀ c, event.requestHash = .supersede c →
    event.caseId = c ∧ c = k ∧ row'.reviewStatus.withdrawn = true

/-- A row rewritten, with the events of the write. -/
def rewriteCase (k : String) (f : DiagnosisCaseModel → DiagnosisCaseModel)
    (events : List CaseReviewEventModel) (w : World γ) : World γ :=
  { w.updateCase k f with caseEvents := w.caseEvents ++ events }

/-- The new row of `create`. -/
structure NewDraft (w : World γ) (row : DiagnosisCaseModel) : Prop where
  fresh : w.getCase row.caseId = none
  draft : row.reviewStatus = .draft
  inactive : row.isActive = false
  pending : row.indexStatus = .pending
  nonempty : row.caseId ≠ ""
  original : ∀ {o}, row.supersedesCaseId = some o →
    ∃ orow, w.getCase o = some orow ∧ decided orow.reviewStatus = true

/-- The job request fits the row. -/
structure RequestFits (request : IndexJobCreate) (row : DiagnosisCaseModel) : Prop where
  entityType : request.entityType = .diagnosisCase
  entityId : request.entityId = row.caseId
  entityVersion : request.entityVersion = toString row.caseVersion
  status : jobStatus request.operation row.reviewStatus = true

/-! ### Reading after a write -/

section

variable {w : World γ} {k : String} {f : DiagnosisCaseModel → DiagnosisCaseModel}
  {events : List CaseReviewEventModel} (hkey : ∀ r, (f r).caseId = r.caseId)
include hkey

theorem getCase_rewriteCase_self {row : DiagnosisCaseModel} (hrow : w.getCase k = some row) :
    (rewriteCase k f events w).getCase k = some (f row) := by
  show (w.updateCase k f).getCase k = _
  rw [World.getCase_updateCase_self hkey, hrow]
  rfl

theorem getCase_rewriteCase_ne {k' : String} (hk : k' ≠ k) :
    (rewriteCase k f events w).getCase k' = w.getCase k' :=
  World.getCase_updateCase_ne hkey hk

/-- A row read after the write is the row before it, rewritten if it is the one. -/
theorem getCase_rewriteCase {k' : String} {row' : DiagnosisCaseModel}
    (h : (rewriteCase k f events w).getCase k' = some row') :
    ∃ row, w.getCase k' = some row ∧ ((k' = k ∧ row' = f row) ∨ (k' ≠ k ∧ row' = row)) :=
  Table.get_update_eq_some (fun r hr => (hkey r).trans hr) h

/-- Every row is still there, at most one step further on. -/
theorem getCase_rewriteCase_of {row₀ : DiagnosisCaseModel} (hrow₀ : w.getCase k = some row₀)
    (hevolves : Evolves row₀ (f row₀)) {k' : String} {row : DiagnosisCaseModel}
    (hrow : w.getCase k' = some row) :
    ∃ row', (rewriteCase k f events w).getCase k' = some row' ∧
      row'.caseVersion = row.caseVersion ∧
      statusStep row.reviewStatus row'.reviewStatus = true := by
  by_cases hk : k' = k
  · subst hk
    obtain rfl : row₀ = row := Option.some.inj (hrow₀.symm.trans hrow)
    exact ⟨f row₀, getCase_rewriteCase_self hkey hrow₀, hevolves.caseVersion, hevolves.status⟩
  · exact ⟨row, (getCase_rewriteCase_ne hkey hk).trans hrow, rfl, statusStep_refl _⟩

end

/-! ### The invariant is kept: cases -/

theorem Tables.congr {w w' : World γ} (h : Tables w) (hcases : w'.cases = w.cases)
    (hevents : w'.caseEvents = w.caseEvents) (hjobs : w'.jobs = w.jobs)
    (houtbox : w'.outbox = w.outbox) : Tables w' := by
  have hget : ∀ k, w'.getCase k = w.getCase k := fun _ => World.getCase_congr hcases
  refine ⟨?_, ?_, ?_, ?_, ?_, ?_, ?_, ?_, ?_, ?_⟩
  · rw [hcases]
    exact h.caseIds
  · rw [hjobs]
    exact h.jobIds
  · rw [houtbox]
    exact h.outboxIds
  · simp only [hget]
    exact h.active
  · simp only [hget]
    exact h.readable
  · rw [hget]
    exact h.nonempty
  · simp only [hget]
    exact h.original
  · simp only [hget, hjobs]
    exact h.caseJob
  · simp only [hget, hevents]
    exact h.superseded
  · unfold Belongs
    simp only [hjobs, houtbox]
    exact h.outboxPayload

theorem Base.core {w w' : World γ} (h : Base w) (hc : SameCore w w') : Base w' where
  toTables := h.toTables.congr hc.cases hc.caseEvents hc.jobs hc.outbox
  messages := by unfold Belongs; simp only [hc.jobs, hc.queue, hc.unacked]; exact h.messages
  live := by
    unfold Live
    simp only [hc.jobs, hc.queue, hc.unacked, hc.outbox]
    exact h.live

/-- A write that follows the life cycle keeps the invariant. -/
theorem Tables.rewriteCase {w : World γ} (h : Tables w) {k : String}
    {f : DiagnosisCaseModel → DiagnosisCaseModel} {events : List CaseReviewEventModel}
    (hkey : ∀ r, (f r).caseId = r.caseId) {row₀ : DiagnosisCaseModel}
    (hrow₀ : w.getCase k = some row₀) (hevolves : Evolves row₀ (f row₀))
    (hfit : EventsFit events k (f row₀)) : Tables (rewriteCase k f events w) where
  caseIds := by
    show (List.map _ (Table.update DiagnosisCaseModel.caseId w.cases k f)).Nodup
    rw [Table.map_key_update (fun r hr => (hkey r).trans hr)]
    exact h.caseIds
  jobIds := h.jobIds
  outboxIds := h.outboxIds
  active := by
    intro k' row' hrow'
    obtain ⟨row, hrow, ⟨rfl, rfl⟩ | ⟨_, rfl⟩⟩ := getCase_rewriteCase hkey hrow'
    · obtain rfl : row₀ = row := Option.some.inj (hrow₀.symm.trans hrow)
      exact hevolves.active
    · exact h.active hrow
  readable := by
    intro k' row' hrow'
    obtain ⟨row, hrow, ⟨rfl, rfl⟩ | ⟨_, rfl⟩⟩ := getCase_rewriteCase hkey hrow'
    · obtain rfl : row₀ = row := Option.some.inj (hrow₀.symm.trans hrow)
      exact hevolves.readable
    · exact h.readable hrow
  nonempty := by
    by_cases hk : "" = k
    · rw [← hk, h.nonempty] at hrow₀
      cases hrow₀
    · exact (getCase_rewriteCase_ne hkey hk).trans h.nonempty
  original := by
    intro k' row' o hrow' ho
    obtain ⟨row, hrow, hrow'⟩ := getCase_rewriteCase hkey hrow'
    have ho' : row.supersedesCaseId = some o := by
      rcases hrow' with ⟨rfl, rfl⟩ | ⟨_, rfl⟩
      · obtain rfl : row₀ = row := Option.some.inj (hrow₀.symm.trans hrow)
        exact hevolves.supersedesCaseId.symm.trans ho
      · exact ho
    obtain ⟨orow, horow, hdecided⟩ := h.original hrow ho'
    obtain ⟨orow', horow', _, hstep⟩ := getCase_rewriteCase_of hkey hrow₀ hevolves horow
    exact ⟨orow', horow', statusStep_decided hstep hdecided⟩
  caseJob := by
    intro job hjob htype
    obtain ⟨row, hrow, hversion, hstatus⟩ := h.caseJob job hjob htype
    obtain ⟨row', hrow', hversion', hstep⟩ := getCase_rewriteCase_of hkey hrow₀ hevolves hrow
    exact ⟨row', hrow', by rw [hversion', hversion], statusStep_jobStatus hstep hstatus⟩
  superseded := by
    intro event hevent c hc
    rcases List.mem_append.mp hevent with hold | hnew
    · obtain ⟨hcase, row, hrow, hwithdrawn⟩ := h.superseded event hold c hc
      obtain ⟨row', hrow', _, hstep⟩ := getCase_rewriteCase_of hkey hrow₀ hevolves hrow
      exact ⟨hcase, row', hrow', statusStep_withdrawn hstep hwithdrawn⟩
    · obtain ⟨hcase, rfl, hwithdrawn⟩ := hfit event hnew c hc
      exact ⟨hcase, f row₀, getCase_rewriteCase_self hkey hrow₀, hwithdrawn⟩
  outboxPayload := h.outboxPayload

theorem Base.rewriteCase {w : World γ} (h : Base w) {k : String}
    {f : DiagnosisCaseModel → DiagnosisCaseModel} {events : List CaseReviewEventModel}
    (hkey : ∀ r, (f r).caseId = r.caseId) {row₀ : DiagnosisCaseModel}
    (hrow₀ : w.getCase k = some row₀) (hevolves : Evolves row₀ (f row₀))
    (hfit : EventsFit events k (f row₀)) : Base (rewriteCase k f events w) :=
  ⟨h.toTables.rewriteCase hkey hrow₀ hevolves hfit, h.messages, h.live⟩

theorem Tables.insert {w : World γ} (h : Tables w) {row : DiagnosisCaseModel} (hnew : NewDraft w row) :
    Tables { w with cases := w.cases ++ [row] } where
  caseIds := Table.nodup_append h.caseIds hnew.fresh
  jobIds := h.jobIds
  outboxIds := h.outboxIds
  active := by
    intro k row' hrow' hactive
    rcases Table.get_append_eq_some hrow' with hold | ⟨_, _, rfl⟩
    · exact h.active hold hactive
    · rw [hnew.inactive] at hactive
      cases hactive
  readable := by
    intro k row' hrow' hdraft
    rcases Table.get_append_eq_some hrow' with hold | ⟨_, _, rfl⟩
    · exact h.readable hold hdraft
    · exact absurd hnew.draft hdraft
  nonempty := by
    show Table.get _ _ _ = none
    rw [Table.get_append_ne hnew.nonempty]
    exact h.nonempty
  original := by
    intro k row' o hrow' ho
    have hold : ∃ orow, w.getCase o = some orow ∧ decided orow.reviewStatus = true := by
      rcases Table.get_append_eq_some hrow' with hold | ⟨_, _, rfl⟩
      · exact h.original hold ho
      · exact hnew.original ho
    obtain ⟨orow, horow, hdecided⟩ := hold
    exact ⟨orow, Table.get_append_of_some horow, hdecided⟩
  caseJob := by
    intro job hjob htype
    obtain ⟨row', hrow', hrest⟩ := h.caseJob job hjob htype
    exact ⟨row', Table.get_append_of_some hrow', hrest⟩
  superseded := by
    intro event hevent c hc
    obtain ⟨hcase, row', hrow', hwithdrawn⟩ := h.superseded event hevent c hc
    exact ⟨hcase, row', Table.get_append_of_some hrow', hwithdrawn⟩
  outboxPayload := h.outboxPayload

theorem Base.insert {w : World γ} (h : Base w) {row : DiagnosisCaseModel} (hnew : NewDraft w row) :
    Base { w with cases := w.cases ++ [row] } :=
  ⟨h.toTables.insert hnew, h.messages, h.live⟩

/-- An event that records no supersession. -/
theorem Tables.event {w : World γ} (h : Tables w) {event : CaseReviewEventModel}
    (hplain : ∀ c, event.requestHash ≠ .supersede c) :
    Tables { w with caseEvents := w.caseEvents ++ [event] } where
  caseIds := h.caseIds
  jobIds := h.jobIds
  outboxIds := h.outboxIds
  active := h.active
  readable := h.readable
  nonempty := h.nonempty
  original := h.original
  caseJob := h.caseJob
  superseded := by
    intro e he c hc
    rcases List.mem_append.mp he with hold | hnew
    · exact h.superseded e hold c hc
    · obtain rfl := List.mem_singleton.mp hnew
      exact absurd hc (hplain c)
  outboxPayload := h.outboxPayload

theorem Base.event {w : World γ} (h : Base w) {event : CaseReviewEventModel}
    (hplain : ∀ c, event.requestHash ≠ .supersede c) :
    Base { w with caseEvents := w.caseEvents ++ [event] } :=
  ⟨h.toTables.event hplain, h.messages, h.live⟩

/-! ### The invariant is kept: jobs -/

theorem Belongs.append {w : World γ} {m : IndexJobMessage} {job : IndexJobModel}
    {outbox : List IndexOutboxModel} (h : Belongs w m) :
    Belongs { w with jobs := w.jobs ++ [job], outbox := outbox } m := by
  obtain ⟨job', hjob', hdescribes⟩ := h
  exact ⟨job', List.mem_append_left _ hjob', hdescribes⟩

theorem describes_newJob (request : IndexJobCreate) (jobId : String) :
    Describes (request.message jobId) (newJob request jobId) :=
  ⟨rfl, rfl, rfl, rfl, rfl⟩

theorem Live.append {w : World γ} {jobId : String} {jobs : List IndexJobModel}
    {row : IndexOutboxModel} (h : Live w jobId) :
    Live { w with jobs := jobs, outbox := w.outbox ++ [row] } jobId := by
  rcases h with ⟨row', hrow', hpending⟩ | hmessage
  · exact Or.inl ⟨row', List.mem_append_left _ hrow', hpending⟩
  · exact Or.inr hmessage

theorem Tables.addJob {w w' : World γ} (h : Tables w) {request : IndexJobCreate} {jobId : String}
    {rec : IndexJobRecord}
    (hfit : request.entityType = .diagnosisCase → ∃ row, w.getCase request.entityId = some row ∧
      toString row.caseVersion = request.entityVersion ∧
      jobStatus request.operation row.reviewStatus = true)
    (hadd : addJob request jobId w = .ok (rec, w')) : Tables w' := by
  rcases addJob_cases hadd with ⟨_, rfl⟩ | ⟨_, hfree, _, rfl⟩
  · exact h
  · exact
      { caseIds := h.caseIds
        jobIds := Table.nodup_append h.jobIds hfree
        outboxIds := Table.nodup_append h.outboxIds (getOutbox_nextOutboxId w)
        active := h.active
        readable := h.readable
        nonempty := h.nonempty
        original := h.original
        caseJob := by
          intro job hjob htype
          rcases List.mem_append.mp hjob with hold | hnew
          · exact h.caseJob job hold htype
          · obtain rfl := List.mem_singleton.mp hnew
            exact hfit htype
        superseded := h.superseded
        outboxPayload := by
          intro row hrow
          rcases List.mem_append.mp hrow with hold | hnew
          · exact ⟨(h.outboxPayload row hold).1, (h.outboxPayload row hold).2.append⟩
          · obtain rfl := List.mem_singleton.mp hnew
            exact ⟨rfl, newJob request jobId, List.mem_append_right _ (List.mem_singleton_self _),
              describes_newJob request jobId⟩ }

/-- A new job comes with its pending outbox row. -/
theorem Base.addJob {w w' : World γ} (h : Base w) {request : IndexJobCreate} {jobId : String}
    {rec : IndexJobRecord}
    (hfit : request.entityType = .diagnosisCase → ∃ row, w.getCase request.entityId = some row ∧
      toString row.caseVersion = request.entityVersion ∧
      jobStatus request.operation row.reviewStatus = true)
    (hadd : addJob request jobId w = .ok (rec, w')) : Base w' := by
  have htables := h.toTables.addJob hfit hadd
  rcases addJob_cases hadd with ⟨_, rfl⟩ | ⟨_, _, _, rfl⟩
  · exact h
  · refine ⟨htables, fun m hm => (h.messages m hm).append, ?_⟩
    intro job hjob hterminal
    rcases List.mem_append.mp hjob with hold | hnew
    · exact (h.live job hold hterminal).append
    · obtain rfl := List.mem_singleton.mp hnew
      exact Or.inl ⟨_, List.mem_append_right _ (List.mem_singleton_self _), rfl, rfl⟩

/-- The same job, in whatever status. -/
def SameJob (job job' : IndexJobModel) : Prop :=
  job'.jobId = job.jobId ∧ job'.entityType = job.entityType ∧ job'.entityId = job.entityId ∧
    job'.entityVersion = job.entityVersion ∧ job'.operation = job.operation

theorem sameJob_queuedJob (job : IndexJobModel) : SameJob job (queuedJob job) := by
  unfold queuedJob
  split <;> exact ⟨rfl, rfl, rfl, rfl, rfl⟩

theorem Describes.of_sameJob {m : IndexJobMessage} {job job' : IndexJobModel}
    (h : Describes m job) (hs : SameJob job job') : Describes m job' :=
  ⟨h.1.trans hs.1.symm, h.2.1.trans hs.2.1.symm, h.2.2.1.trans hs.2.2.1.symm,
    h.2.2.2.1.trans hs.2.2.2.1.symm, h.2.2.2.2.trans hs.2.2.2.2.symm⟩

section

variable {w : World γ} {k : String} {g : IndexJobModel → IndexJobModel}

theorem mem_updateJob {job' : IndexJobModel} (h : job' ∈ (w.updateJob k g).jobs) :
    ∃ job ∈ w.jobs, (job.jobId = k ∧ job' = g job) ∨ (job.jobId ≠ k ∧ job' = job) := by
  obtain ⟨job, hjob, rfl⟩ := List.mem_map.mp h
  by_cases hk : job.jobId = k
  · exact ⟨job, hjob, Or.inl ⟨hk, if_pos hk⟩⟩
  · exact ⟨job, hjob, Or.inr ⟨hk, if_neg hk⟩⟩

theorem mem_updateJob_of_mem (hg : ∀ job, SameJob job (g job)) {job : IndexJobModel}
    (h : job ∈ w.jobs) : ∃ job' ∈ (w.updateJob k g).jobs, SameJob job job' := by
  refine ⟨if job.jobId = k then g job else job, List.mem_map_of_mem h, ?_⟩
  split
  · exact hg job
  · exact ⟨rfl, rfl, rfl, rfl, rfl⟩

theorem Belongs.updateJob (hg : ∀ job, SameJob job (g job)) {m : IndexJobMessage}
    (h : Belongs w m) : Belongs (w.updateJob k g) m := by
  obtain ⟨job, hjob, hdescribes⟩ := h
  obtain ⟨job', hjob', hsame⟩ := mem_updateJob_of_mem hg hjob
  exact ⟨job', hjob', hdescribes.of_sameJob hsame⟩

theorem Tables.updateJob (h : Tables w) (hg : ∀ job, SameJob job (g job)) :
    Tables (w.updateJob k g) where
  caseIds := h.caseIds
  jobIds := by
    show (List.map _ (Table.update IndexJobModel.jobId w.jobs k g)).Nodup
    rw [Table.map_key_update (fun r hr => (hg r).1.trans hr)]
    exact h.jobIds
  outboxIds := h.outboxIds
  active := h.active
  readable := h.readable
  nonempty := h.nonempty
  original := h.original
  caseJob := by
    intro job' hjob' htype
    obtain ⟨job, hjob, ⟨_, rfl⟩ | ⟨_, rfl⟩⟩ := mem_updateJob hjob'
    · obtain ⟨_, htype', hid, hversion, hop⟩ := hg job
      rw [hid, hversion, hop]
      exact h.caseJob job hjob (htype'.symm.trans htype)
    · exact h.caseJob job' hjob htype
  superseded := h.superseded
  outboxPayload := fun row hrow =>
    ⟨(h.outboxPayload row hrow).1, (h.outboxPayload row hrow).2.updateJob hg⟩

/-- Moving a job to another status keeps the invariant, as long as it stays live if it has to. -/
theorem Base.updateJob (h : Base w) (hg : ∀ job, SameJob job (g job))
    (hlive : ∀ job ∈ w.jobs, job.jobId = k → (g job).status.terminal = false → Live w k) :
    Base (w.updateJob k g) where
  toTables := h.toTables.updateJob hg
  messages := fun m hm => (h.messages m hm).updateJob hg
  live := by
    intro job' hjob' hterminal
    obtain ⟨job, hjob, ⟨rfl, rfl⟩ | ⟨_, rfl⟩⟩ := mem_updateJob hjob'
    · rw [(hg job).1]
      exact hlive job hjob rfl hterminal
    · exact h.live job' hjob hterminal

end

theorem Base.finish {w : World γ} (h : Base w) (jobId : String) {status : IndexJobStatus}
    (hterminal : status.terminal = true) : Base (finish jobId status w) := by
  refine h.updateJob (fun _ => ⟨rfl, rfl, rfl, rfl, rfl⟩) (fun job _ _ hnot => ?_)
  rw [show (finishedJob status job).status = status from rfl, hterminal] at hnot
  cases hnot

/-! ### The invariant is kept: messages -/

section

variable {w : World γ} {event : IndexJobMessage}

/-- Moving messages around keeps the invariant, as long as every job keeps one that needs it. -/
theorem Base.messagesOf (h : Base w) {queue unacked : List IndexJobMessage}
    (hbelongs : ∀ m ∈ queue ++ unacked, Belongs w m)
    (hlive : ∀ job ∈ w.jobs, job.status.terminal = false → (∃ m ∈ w.queue ++ w.unacked,
      m.jobId = job.jobId) → ∃ m ∈ queue ++ unacked, m.jobId = job.jobId) :
    Base { w with queue := queue, unacked := unacked } where
  toTables := h.toTables.congr rfl rfl rfl rfl
  messages := hbelongs
  live := by
    intro job hjob hterminal
    rcases h.live job hjob hterminal with hrow | hmessage
    · exact Or.inl hrow
    · exact Or.inr (hlive job hjob hterminal hmessage)

theorem Base.requeue (h : Base w) (hevent : Belongs w event) : Base (requeue event w) := by
  refine h.messagesOf ?_ ?_
  · intro m hm
    rcases List.mem_append.mp hm with hqueue | hunacked
    · rcases List.mem_append.mp hqueue with hold | hnew
      · exact h.messages m (List.mem_append_left _ hold)
      · obtain rfl := List.mem_singleton.mp hnew
        exact hevent
    · exact h.messages m (List.mem_append_right _ hunacked)
  · rintro job _ _ ⟨m, hm, hid⟩
    refine ⟨m, ?_, hid⟩
    simp only [List.mem_append] at hm ⊢
    tauto

theorem Base.requeueUnacked (h : Base w) : Base (requeueUnacked w) := by
  refine h.messagesOf ?_ ?_
  · intro m hm
    rw [List.append_nil] at hm
    exact h.messages m hm
  · rintro job _ _ ⟨m, hm, hid⟩
    exact ⟨m, by rw [List.append_nil]; exact hm, hid⟩

theorem Base.receive (h : Base w) (hevent : event ∈ w.queue) : Base (receive event w) := by
  have hperm : ∀ m, m ∈ w.queue.erase event ++ (w.unacked ++ [event]) ↔
      m ∈ w.queue ++ w.unacked := by
    intro m
    have hq := (List.perm_cons_erase hevent).mem_iff (a := m)
    simp only [List.mem_append, hq, List.mem_cons]
    tauto
  refine h.messagesOf ?_ ?_
  · intro m hm
    exact h.messages m ((hperm m).mp hm)
  · rintro job _ _ ⟨m, hm, hid⟩
    exact ⟨m, (hperm m).mpr hm, hid⟩

/-- A message may be settled once its job needs it no more, or once it is on the queue again. -/
theorem Base.settle (h : Base w)
    (hdone : (∀ job ∈ w.jobs, job.jobId = event.jobId → job.status.terminal = true) ∨
      event ∈ w.queue) : Base (settle event w) := by
  refine h.messagesOf ?_ ?_
  · intro m hm
    rcases List.mem_append.mp hm with hqueue | hunacked
    · exact h.messages m (List.mem_append_left _ hqueue)
    · exact h.messages m (List.mem_append_right _ (List.mem_of_mem_erase hunacked))
  · rintro job hjob hterminal ⟨m, hm, hid⟩
    by_cases hother : m = event
    · subst hother
      rcases hdone with hdone | hqueue
      · rw [hdone job hjob hid.symm] at hterminal
        cases hterminal
      · exact ⟨m, List.mem_append_left _ hqueue, hid⟩
    · rcases List.mem_append.mp hm with hqueue | hunacked
      · exact ⟨m, List.mem_append_left _ hqueue, hid⟩
      · exact ⟨m, List.mem_append_right _ ((List.mem_erase_of_ne hother).mpr hunacked), hid⟩

end

/-! ### The invariant is kept: the repository's transactions -/

theorem Belongs.congr {w w' : World γ} (hjobs : w'.jobs = w.jobs) {m : IndexJobMessage}
    (h : Belongs w m) : Belongs w' m := by
  unfold Belongs
  rw [hjobs]
  exact h

theorem Tables.updateOutbox {w : World γ} (h : Tables w) {id : Nat}
    {u : IndexOutboxModel → IndexOutboxModel}
    (hu : ∀ row, (u row).id = row.id ∧ (u row).jobId = row.jobId ∧ (u row).payload = row.payload) :
    Tables (w.updateOutbox id u) where
  caseIds := h.caseIds
  jobIds := h.jobIds
  outboxIds := by
    show (List.map _ (Table.update IndexOutboxModel.id w.outbox id u)).Nodup
    rw [Table.map_key_update (fun r hr => (hu r).1.trans hr)]
    exact h.outboxIds
  active := h.active
  readable := h.readable
  nonempty := h.nonempty
  original := h.original
  caseJob := h.caseJob
  superseded := h.superseded
  outboxPayload := by
    intro row' hrow'
    obtain ⟨row, hrow, rfl⟩ := List.mem_map.mp hrow'
    split
    · rw [(hu row).2.1, (hu row).2.2]
      exact h.outboxPayload row hrow
    · exact h.outboxPayload row hrow

/-- Rewriting an outbox row keeps the invariant, unless a pending row disappears whose job has no
message. -/
theorem Base.updateOutbox {w : World γ} (h : Base w) {id : Nat}
    {u : IndexOutboxModel → IndexOutboxModel}
    (hu : ∀ row, (u row).id = row.id ∧ (u row).jobId = row.jobId ∧ (u row).payload = row.payload)
    (hlive : ∀ row ∈ w.outbox, row.id = id → row.publishStatus = .pending →
      (u row).publishStatus = .pending ∨ ∃ m ∈ w.queue ++ w.unacked, m.jobId = row.jobId) :
    Base (w.updateOutbox id u) where
  toTables := h.toTables.updateOutbox hu
  messages := h.messages
  live := by
    intro job hjob hterminal
    rcases h.live job hjob hterminal with ⟨row, hrow, hid, hpending⟩ | hmessage
    · by_cases hrow' : row.id = id
      · rcases hlive row hrow hrow' hpending with hstill | ⟨m, hm, hmid⟩
        · refine Or.inl ⟨u row, ?_, (hu row).2.1.trans hid, hstill⟩
          exact List.mem_map.mpr ⟨row, hrow, if_pos hrow'⟩
        · exact Or.inr ⟨m, hm, hmid.trans hid⟩
      · exact Or.inl ⟨row, List.mem_map.mpr ⟨row, hrow, if_neg hrow'⟩, hid, hpending⟩
    · exact Or.inr hmessage

theorem publishedRow_same (row : IndexOutboxModel) :
    (publishedRow row).id = row.id ∧ (publishedRow row).jobId = row.jobId ∧
      (publishedRow row).payload = row.payload := by
  unfold publishedRow
  split <;> exact ⟨rfl, rfl, rfl⟩

/-- Publishing a row, however it ends. -/
theorem Base.publishRow {w : World γ} (h : Base w) {row : IndexOutboxModel} (hrow : row ∈ w.outbox)
    (outcome : PublishOutcome) : Base (publishRow row outcome w) := by
  obtain ⟨hid, hbelongs⟩ := h.outboxPayload row hrow
  have hsent := h.requeue hbelongs
  have hmessage : row.payload ∈ (Indexing.requeue row.payload w).queue :=
    List.mem_append_right _ (List.mem_singleton_self _)
  cases outcome with
  | published =>
      -- the pending row goes, but its message is on the queue now
      refine (hsent.updateOutbox publishedRow_same ?_).updateJob sameJob_queuedJob ?_
      · intro r hr hrid _
        obtain rfl : r = row := List.inj_on_of_nodup_map h.outboxIds hr hrow hrid
        exact Or.inr ⟨r.payload, List.mem_append_left _ hmessage, hid⟩
      · intro job _ _ _
        exact Or.inr ⟨row.payload, List.mem_append_left _ hmessage, hid⟩
  | failed => exact h.updateOutbox (fun _ => ⟨rfl, rfl, rfl⟩) (fun r _ _ hpending => Or.inl hpending)
  | unmarked =>
      exact hsent.updateOutbox (fun _ => ⟨rfl, rfl, rfl⟩) (fun r _ _ hpending => Or.inl hpending)

theorem mem_of_getJob {w : World γ} {jobId : String} {job : IndexJobModel}
    (h : w.getJob jobId = some job) : job ∈ w.jobs ∧ job.jobId = jobId :=
  Table.get_eq_some h

/-- A new outbox row with a message of a stored job. -/
theorem Tables.outbox {w : World γ} (h : Tables w) {eventType : String} {message : IndexJobMessage}
    (hbelongs : Belongs w message) :
    Tables { w with outbox := w.outbox ++ [newOutbox w.nextOutboxId eventType message] } where
  caseIds := h.caseIds
  jobIds := h.jobIds
  outboxIds := Table.nodup_append h.outboxIds (getOutbox_nextOutboxId w)
  active := h.active
  readable := h.readable
  nonempty := h.nonempty
  original := h.original
  caseJob := h.caseJob
  superseded := h.superseded
  outboxPayload := by
    intro row hrow
    rcases List.mem_append.mp hrow with hold | hnew
    · exact h.outboxPayload row hold
    · obtain rfl := List.mem_singleton.mp hnew
      exact ⟨rfl, hbelongs⟩

/-- What `retry` did: nothing, or it put a failed job back with a new outbox row. -/
theorem retry_cases (jobId traceId : String) (w : World γ) :
    retry jobId traceId w = w ∨ ∃ job, w.getJob jobId = some job ∧ job.status = .failed ∧
      retry jobId traceId w = { w.updateJob jobId retriedJob with
        outbox := w.outbox ++
          [newOutbox w.nextOutboxId "index.job.retried.v1" (retryMessage job traceId)] } := by
  unfold retry
  cases hjob : w.getJob jobId with
  | none => exact Or.inl rfl
  | some job =>
      simp only
      split
      · next hfailed => exact Or.inr ⟨job, rfl, hfailed, rfl⟩
      · exact Or.inl rfl

theorem belongs_retryMessage {w : World γ} {jobId : String} {job : IndexJobModel}
    (hjob : w.getJob jobId = some job) (traceId : String) : Belongs w (retryMessage job traceId) :=
  ⟨job, (mem_of_getJob hjob).1, rfl, rfl, rfl, rfl, rfl⟩

theorem Tables.retry {w : World γ} (h : Tables w) (jobId traceId : String) :
    Tables (retry jobId traceId w) := by
  rcases retry_cases jobId traceId w with hsame | ⟨job, hjob, _, hretry⟩
  · rw [hsame]
    exact h
  · rw [hretry]
    exact (h.outbox (belongs_retryMessage hjob traceId)).updateJob fun _ => ⟨rfl, rfl, rfl, rfl, rfl⟩

theorem Base.retry {w : World γ} (h : Base w) (jobId traceId : String) :
    Base (retry jobId traceId w) := by
  rcases retry_cases jobId traceId w with hsame | ⟨job, hjob, _, hretry⟩
  · rw [hsame]
    exact h
  · rw [hretry]
    -- the outbox row first, then the job that lives by it
    have hrow : Base { w with outbox := w.outbox ++
        [newOutbox w.nextOutboxId "index.job.retried.v1" (retryMessage job traceId)] } :=
      ⟨h.toTables.outbox (belongs_retryMessage hjob traceId), h.messages,
        fun job hjob hterminal => (h.live job hjob hterminal).append⟩
    refine hrow.updateJob (fun _ => ⟨rfl, rfl, rfl, rfl, rfl⟩) (fun _ _ _ _ => ?_)
    exact Or.inl ⟨_, List.mem_append_right _ (List.mem_singleton_self _), (mem_of_getJob hjob).2, rfl⟩

/-- `start` on a job that has a message or an outbox row. -/
theorem Base.start {w w' : World γ} (h : Base w) {jobId : String} {rec : Option IndexJobRecord}
    (hlive : Live w jobId) (hstart : start jobId w = .ok (rec, w')) : Base w' := by
  rcases start_cases hstart with ⟨_, _, rfl⟩ | ⟨job, r, _, _, ⟨_, _, rfl⟩ | ⟨_, _, rfl⟩⟩
  · exact h
  · exact h
  · exact h.updateJob (fun _ => ⟨rfl, rfl, rfl, rfl, rfl⟩) (fun _ _ _ _ => hlive)

theorem updateCase_eq_rewriteCase (w : World γ) (k : String)
    (f : DiagnosisCaseModel → DiagnosisCaseModel) : w.updateCase k f = rewriteCase k f [] w := by
  unfold rewriteCase
  rw [List.append_nil]
  rfl

theorem eventsFit_nil (k : String) (row : DiagnosisCaseModel) : EventsFit [] k row := by
  intro event hevent
  cases hevent

theorem evolves_failedCase {w : World γ} (h : Tables w) {k : String} {row : DiagnosisCaseModel}
    (hrow : w.getCase k = some row) (errorCode : String) : Evolves row (failedCase errorCode row) where
  caseId := rfl
  caseVersion := rfl
  supersedesCaseId := rfl
  status := statusStep_refl _
  active := fun hactive => by cases hactive
  readable := fun hdraft => show Readable row from h.readable hrow hdraft

theorem Tables.failEntity {w : World γ} (h : Tables w) {job : IndexJobModel}
    (hjob : job.entityType = .diagnosisCase → ∃ row, w.getCase job.entityId = some row)
    (errorCode : String) : Tables (failEntity job errorCode w) := by
  unfold Indexing.failEntity
  split
  · next htype =>
      obtain ⟨row, hrow⟩ := hjob htype
      rw [updateCase_eq_rewriteCase]
      exact h.rewriteCase (fun _ => rfl) hrow (evolves_failedCase h hrow errorCode) (eventsFit_nil _ _)
  · exact h.congr rfl rfl rfl rfl
  · exact h.congr rfl rfl rfl rfl
  · exact h

/-- `fail` marks an entity; the jobs and the messages stay. -/
theorem failEntity_frame (job : IndexJobModel) (errorCode : String) (w : World γ) :
    (failEntity job errorCode w).jobs = w.jobs ∧ (failEntity job errorCode w).outbox = w.outbox ∧
      (failEntity job errorCode w).queue = w.queue ∧
      (failEntity job errorCode w).unacked = w.unacked := by
  unfold failEntity
  split <;> exact ⟨rfl, rfl, rfl, rfl⟩

theorem Base.failEntity {w : World γ} (h : Base w) {job : IndexJobModel}
    (hjob : job.entityType = .diagnosisCase → ∃ row, w.getCase job.entityId = some row)
    (errorCode : String) : Base (failEntity job errorCode w) := by
  obtain ⟨hjobs, houtbox, hqueue, hunacked⟩ := failEntity_frame job errorCode w
  refine ⟨h.toTables.failEntity hjob errorCode, ?_, ?_⟩
  · unfold Belongs
    rw [hqueue, hunacked, hjobs]
    exact h.messages
  · unfold Live
    rw [hqueue, hunacked, hjobs, houtbox]
    exact h.live

theorem Tables.fail {w : World γ} (h : Tables w) (jobId errorCode errorMessage : String)
    (retry : Bool) : Tables (fail jobId errorCode errorMessage retry w) := by
  unfold Indexing.fail
  cases hjob : w.getJob jobId with
  | none => exact h
  | some job =>
      have hfailed : Tables (w.updateJob jobId (failedJob errorCode errorMessage retry)) :=
        h.updateJob fun _ => ⟨rfl, rfl, rfl, rfl, rfl⟩
      simp only
      split
      · exact hfailed
      · refine hfailed.failEntity (fun htype => ?_) errorCode
        obtain ⟨row, hrow, _⟩ := h.caseJob job (mem_of_getJob hjob).1 htype
        exact ⟨row, hrow⟩

/-- `fail`, while the message of the job has not been settled. -/
theorem Base.fail {w : World γ} (h : Base w) {jobId : String} (hlive : Live w jobId)
    (errorCode errorMessage : String) (retry : Bool) :
    Base (fail jobId errorCode errorMessage retry w) := by
  unfold Indexing.fail
  cases hjob : w.getJob jobId with
  | none => exact h
  | some job =>
      have hfailed : Base (w.updateJob jobId (failedJob errorCode errorMessage retry)) :=
        h.updateJob (fun _ => ⟨rfl, rfl, rfl, rfl, rfl⟩) (fun _ _ _ _ => hlive)
      simp only
      split
      · exact hfailed
      · refine hfailed.failEntity (fun htype => ?_) errorCode
        obtain ⟨row, hrow, _⟩ := h.caseJob job (mem_of_getJob hjob).1 htype
        exact ⟨row, hrow⟩

end EnergyAgent.Cases
