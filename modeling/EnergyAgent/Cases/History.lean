import EnergyAgent.Cases.Frozen

/-!
# The history of a case

The review events of a case, in the order of their insertion, lead from `DRAFT` to its status, unless a
worker supersedes the case, which records nothing, or an event with an outdated status is appended.
-/

namespace EnergyAgent.Cases

open EnergyAgent.Core EnergyAgent.Lib EnergyAgent.Persistence EnergyAgent.Indexing

variable {γ : Type}

/-! ## Chains of events -/

/-- The events lead from one status to the other, each beginning where the one before ended. -/
def Leads : CaseStatus → List CaseReviewEventModel → CaseStatus → Prop
  | status, [], last => status = last
  | status, event :: events, last => event.fromStatus = status ∧ Leads event.toStatus events last

instance : (status : CaseStatus) → (events : List CaseReviewEventModel) → (last : CaseStatus) →
    Decidable (Leads status events last)
  | status, [], last => inferInstanceAs (Decidable (status = last))
  | status, event :: events, last =>
      have := instDecidableLeads event.toStatus events last
      inferInstanceAs (Decidable (event.fromStatus = status ∧ _))

theorem Leads.append {first middle last : CaseStatus} {events events' : List CaseReviewEventModel}
    (h : Leads first events middle) (h' : Leads middle events' last) :
    Leads first (events ++ events') last := by
  induction events generalizing first with
  | nil =>
      cases h
      exact h'
  | cons event events ih => exact ⟨h.1, ih h.2⟩

theorem Records.leads {event : CaseReviewEventModel} {k : String} {a b : CaseStatus}
    (h : Records event k a b) : Leads a [event] b := ⟨h.fromStatus, h.toStatus⟩

/-- The events of a case. -/
def historyOf (w : World γ) (caseId : String) : List CaseReviewEventModel :=
  w.caseEvents.filter (·.caseId = caseId)

/-- The history of every case leads from `DRAFT` to its status; a case that is not there has none. -/
structure FaithfulHistory (w : World γ) : Prop where
  leads : ∀ {k row}, w.getCase k = some row → Leads .draft (historyOf w k) row.reviewStatus
  empty : ∀ {k}, w.getCase k = none → historyOf w k = []

theorem FaithfulHistory.congr {w w' : World γ} (h : FaithfulHistory w) (hcases : w'.cases = w.cases)
    (hevents : w'.caseEvents = w.caseEvents) : FaithfulHistory w' := by
  have hhistory : ∀ k, historyOf w' k = historyOf w k := fun k => by rw [historyOf, hevents]; rfl
  refine ⟨fun {k row} hrow => ?_, fun {k} hnone => ?_⟩
  · rw [hhistory]
    exact h.leads ((World.getCase_congr hcases).symm.trans hrow)
  · rw [hhistory]
    exact h.empty ((World.getCase_congr hcases).symm.trans hnone)

/-! ## The condition -/

/-- An access that does not break the chain: no worker supersedes an approved case, and an event that
keeps the status names the status which the case has. -/
def AccessKind.Recorded (w : World γ) : AccessKind → Prop
  | .supersession caseId => ∀ row, w.getCase caseId = some row → row.reviewStatus ≠ .approved
  | .event e => ∀ row, w.getCase e.caseId = some row → e.fromStatus = row.reviewStatus
  | _ => True

instance (w : World γ) : (kind : AccessKind) → Decidable (kind.Recorded w)
  | .supersession caseId =>
      inferInstanceAs (Decidable (∀ row ∈ w.getCase caseId, row.reviewStatus ≠ .approved))
  | .event e => inferInstanceAs (Decidable (∀ row ∈ w.getCase e.caseId,
      e.fromStatus = row.reviewStatus))
  | .draft _ | .submission _ | .activation _ | .start | .finish | .other => isTrue trivial

/-- The condition on a move. -/
def RecordsMoves (p : Threads Access (World γ) Empty Unit) (m : Threads.Move (Label γ)) : Prop :=
  ∀ mark, p.access m = some mark → mark.kind.Recorded p.store

instance (p : Threads Access (World γ) Empty Unit) (m : Threads.Move (Label γ)) :
    Decidable (RecordsMoves p m) :=
  inferInstanceAs (Decidable (∀ mark ∈ p.access m, mark.kind.Recorded p.store))

/-! ## The invariant -/

/-- The events of a write are those of its case, and record what it does. -/
theorem RowWrite.recorded {w : World γ} {k : String} {row row' : DiagnosisCaseModel}
    {events : List CaseReviewEventModel} {kind : AccessKind} (h : RowWrite row row' events kind)
    (hrow : w.getCase k = some row) (hrecorded : kind.Recorded w) :
    (∀ e ∈ events, e.caseId = k) ∧ Leads row.reviewStatus events row'.reviewStatus := by
  obtain rfl := getCase_caseId hrow
  have hone : ∀ {e : CaseReviewEventModel} {a b : CaseStatus}, Records e row.caseId a b →
      (∀ e' ∈ [e], e'.caseId = row.caseId) ∧ Leads a [e] b := fun he =>
    ⟨fun e' he' => List.mem_singleton.mp he' ▸ he.caseId, he.leads⟩
  have hnone : ∀ e ∈ ([] : List CaseReviewEventModel), e.caseId = row.caseId := fun e he => by cases he
  cases h with
  | draft changes h =>
      subst h
      exact ⟨hnone, rfl⟩
  | submission case valid e hid hcomplete hstatus h he =>
      subst h
      rw [hstatus]
      exact hone he
  | review e hstatus hdecided hreviewer hsame hactive he =>
      rw [hstatus]
      exact hone he
  | withdrawal e hstatus hwithdrawn hreviewer hsame hactive he =>
      rw [hstatus]
      exact hone he
  | supersession hstatus h => exact absurd hstatus (hrecorded row hrow)
  | queued e h he =>
      subst h
      exact hone he
  | index hstatus hreviewer hsame hactive => exact ⟨hnone, hstatus.symm⟩
  | event e h hid hkeeps =>
      subst h
      have hfrom : e.fromStatus = row'.reviewStatus := by
        refine hrecorded row' ?_
        rw [hid]
        exact hrow
      exact hone ⟨hid, hfrom, hkeeps.symm.trans hfrom⟩

/-- **The step lemma.** -/
theorem FaithfulHistory.step {w w' : World γ} {kind : AccessKind} (h : FaithfulHistory w)
    (hwrite : CaseWrite w w' kind) (hrecorded : kind.Recorded w) : FaithfulHistory w' := by
  cases hwrite with
  | quiet hcases hevents => exact h.congr hcases hevents
  | @insert row hnew hdraft hrewrites =>
      have hhistory : ∀ k, historyOf w' k = historyOf w k := fun k => by
        rw [historyOf, hrewrites.events, List.append_nil]
        rfl
      refine ⟨fun {k row'} hrow' => ?_, fun {k} hnone => ?_⟩
      · rw [hhistory]
        by_cases hk : k = row.caseId
        · subst hk
          obtain rfl : row = row' := Option.some.inj (hrewrites.self.symm.trans hrow')
          rw [h.empty hnew, hdraft.status]
          rfl
        · exact h.leads ((hrewrites.other k hk).symm.trans hrow')
      · rw [hhistory]
        by_cases hk : k = row.caseId
        · rw [hk, hrewrites.self] at hnone
          cases hnone
        · exact h.empty ((hrewrites.other k hk).symm.trans hnone)
  | @row k row row' events hrow hrowWrite hrewrites =>
      obtain ⟨hids, hleads⟩ := hrowWrite.recorded hrow hrecorded
      have hself : historyOf w' k = historyOf w k ++ events := by
        have hall : events.filter (fun e => decide (e.caseId = k)) = events :=
          List.filter_eq_self.mpr fun e he => decide_eq_true (hids e he)
        rw [historyOf, hrewrites.events, List.filter_append, hall]
        rfl
      have hother : ∀ k', k' ≠ k → historyOf w' k' = historyOf w k' := by
        intro k' hk'
        have hnone : events.filter (fun e => decide (e.caseId = k')) = [] :=
          List.filter_eq_nil_iff.mpr fun e he =>
            fun heq => hk' ((of_decide_eq_true heq).symm.trans (hids e he))
        rw [historyOf, hrewrites.events, List.filter_append, hnone, List.append_nil]
        rfl
      refine ⟨fun {k' row''} hrow'' => ?_, fun {k'} hnone => ?_⟩
      · by_cases hk : k' = k
        · subst hk
          obtain rfl : row' = row'' := Option.some.inj (hrewrites.self.symm.trans hrow'')
          rw [hself]
          exact (h.leads hrow).append hleads
        · rw [hother k' hk]
          exact h.leads ((hrewrites.other k' hk).symm.trans hrow'')
      · by_cases hk : k' = k
        · rw [hk, hrewrites.self] at hnone
          cases hnone
        · rw [hother k' hk]
          exact h.empty ((hrewrites.other k' hk).symm.trans hnone)

/-- **The history of every case is a faithful chain** in every run whose accesses are recorded. -/
theorem history_leads_to_status {settings : CaseSettings} {p : Threads Access (World γ) Empty Unit}
    (h : (interleaved settings).ReachableVia RecordsMoves p) :
    ∀ k row, p.store.getCase k = some row →
      Leads .draft (historyOf p.store k) row.reviewStatus := by
  have hfaithful : FaithfulHistory p.store := by
    induction h with
    | init hinit =>
        refine ⟨fun {k row} hrow => ?_, fun {k} _ => ?_⟩
        · simp [World.getCase, hinit.1.1, Table.get] at hrow
        · simp [historyOf, hinit.1.2.1]
    | @step p q m hreach hok hstep ih =>
        rcases writes_of_reachable hreach hstep with hsame | ⟨mark, haccess, hwrite⟩
        · rw [hsame]
          exact ih
        · exact ih.step hwrite (hok mark haccess)
  exact fun k row hrow => hfaithful.leads hrow

/-! ## Runs -/

/-- A case is approved, revised and disabled, through the service alone. -/
def disabledMoves : List (Threads.Move (Label Unit)) :=
  undisturbed 0 2 (.api (engineer caseOne) (.createDraft (sampleDraft "session"))) ++
  undisturbed 1 2 (.api (engineer noId) (.submit "case-1")) ++
  undisturbed 2 2 (.api (reviewer jobOne true) (.review "case-1" approval)) ++
  undisturbed 3 7 (.api (engineer caseTwo) (.revision "case-1" ⟨emptyPatch, true⟩)) ++
  undisturbed 4 2 (.api (reviewer jobTwo true) (.disable "case-1" outdated))

/-- A history of four events that is a chain. -/
theorem disabled_history : ∃ p row,
    (interleaved (sampleSettings .rabbitmq)).run ⟨World.empty (), []⟩ disabledMoves = some p ∧
      p.store.getCase "case-1" = some row ∧ row.reviewStatus = .disabled ∧
      (historyOf p.store "case-1").length = 4 ∧
      Leads .draft (historyOf p.store "case-1") row.reviewStatus := by
  have hchecked : ((interleaved (sampleSettings .rabbitmq)).runChecked
      (fun p m => decide (RecordsMoves p m)) ⟨World.empty (), []⟩ disabledMoves).any
      (fun p => (historyOf p.store "case-1").length = 4 &&
        (p.store.getCase "case-1").any (·.reviewStatus = .disabled)) = true := by
    decide +kernel
  obtain ⟨p, hp, hcase⟩ := (Option.any_eq_true _ _).mp hchecked
  rw [Bool.and_eq_true] at hcase
  obtain ⟨row, hrow, hdisabled⟩ := (Option.any_eq_true _ _).mp hcase.2
  have hreach : (interleaved (sampleSettings .rabbitmq)).ReachableVia RecordsMoves p :=
    .of_runChecked (fun _ _ h => of_decide_eq_true h)
      (.init ⟨⟨rfl, rfl, rfl, rfl, rfl, rfl⟩, rfl⟩) hp
  exact ⟨p, row, TransitionSystem.run_of_runChecked hp, hrow, of_decide_eq_true hdisabled,
    of_decide_eq_true hcase.1, history_leads_to_status hreach "case-1" row hrow⟩

/-- A case is approved and revised, and the worker handles the job of the revision. -/
def workedMoves : List (Threads.Move (Label Unit)) :=
  undisturbed 0 2 (.api (engineer caseOne) (.createDraft (sampleDraft "session"))) ++
  undisturbed 1 2 (.api (engineer noId) (.submit "case-1")) ++
  undisturbed 2 2 (.api (reviewer jobOne true) (.review "case-1" approval)) ++
  undisturbed 3 7 (.api (engineer caseTwo) (.revision "case-1" ⟨emptyPatch, true⟩)) ++
  undisturbed 4 2 (.api (reviewer jobTwo true) (.review "case-2" approval)) ++
  undisturbed 5 3 (.publish 2 .published) ++
  undisturbed 6 9 (.consume answeringPorts (caseMessage "job-2" "case-2" "2" .upsert))

/-- The worker supersedes the original, whose last event still says `APPROVED`. -/
theorem worker_supersedes_without_event :
    ¬ ∀ p : Threads Access (World Unit) Empty Unit,
      (interleaved (sampleSettings .rabbitmq)).Reachable p →
      ∀ k row, p.store.getCase k = some row →
        Leads .draft (historyOf p.store k) row.reviewStatus := by
  intro hclaim
  have hrun : ((interleaved (sampleSettings .rabbitmq)).run ⟨World.empty (), []⟩ workedMoves).any
      (fun p => (p.store.getCase "case-1").any fun row =>
        !decide (Leads .draft (historyOf p.store "case-1") row.reviewStatus)) = true := by
    decide +kernel
  obtain ⟨p, hp, hcase⟩ := (Option.any_eq_true _ _).mp hrun
  obtain ⟨row, hrow, hbroken⟩ := (Option.any_eq_true _ _).mp hcase
  have hreach : (interleaved (sampleSettings .rabbitmq)).Reachable p :=
    .of_run (.init ⟨⟨rfl, rfl, rfl, rfl, rfl, rfl⟩, rfl⟩) hp
  have hleads := decide_eq_true (hclaim p hreach "case-1" row hrow)
  rw [hleads] at hbroken
  cases hbroken

end EnergyAgent.Cases
