import EnergyAgent.Cases.Interleaved

/-!
# What an access does to the cases

Whoever makes it, and whatever has happened since it read the case: an access leaves the cases and
their history alone, creates a draft, or writes one row in one of the ways of `RowWrite`. Each says what
is known of the row in the very moment of the write. `writes_of_reachable` derives this once for
all steps of all threads; the results about interleavings rest on nothing else.
-/

namespace EnergyAgent.Cases

open EnergyAgent.Core EnergyAgent.Lib EnergyAgent.Persistence EnergyAgent.Indexing

variable {γ : Type}

/-! ## Writes -/

/-- The fields of a case that its authors write. -/
structure CaseContent where
  deviceType : Option String
  deviceModel : Option String
  manufacturer : Option String
  alarmName : Option String
  symptomSummary : Option String
  timeseriesFeatures : Option String
  rootCause : String
  resolutionSteps : Option (List String)
  safetyNotes : Option (List String)
  evidenceRefs : Option (List String)
  deriving DecidableEq

def caseContent (row : DiagnosisCaseModel) : CaseContent where
  deviceType := row.deviceType
  deviceModel := row.deviceModel
  manufacturer := row.manufacturer
  alarmName := row.alarmName
  symptomSummary := row.symptomSummary
  timeseriesFeatures := row.timeseriesFeatures
  rootCause := row.rootCause
  resolutionSteps := row.resolutionSteps
  safetyNotes := row.safetyNotes
  evidenceRefs := row.evidenceRefs

/-- One case by one author, with what the author has written. -/
structure SameWork (row row' : DiagnosisCaseModel) : Prop where
  caseId : row'.caseId = row.caseId
  createdBy : row'.createdBy = row.createdBy
  supersedes : row'.supersedesCaseId = row.supersedesCaseId
  sourceReviewId : row'.sourceReviewId = row.sourceReviewId
  content : caseContent row' = caseContent row

/-- The event records a move of the case. -/
structure Records (event : CaseReviewEventModel) (caseId : String) (fromStatus toStatus : CaseStatus) :
    Prop where
  caseId : event.caseId = caseId
  fromStatus : event.fromStatus = fromStatus
  toStatus : event.toStatus = toStatus

/-- The ways in which a row is written, with the events that are appended. -/
inductive RowWrite (row row' : DiagnosisCaseModel) : List CaseReviewEventModel → AccessKind → Prop
  /-- The `UPDATE` of a draft, whatever has become of the draft. -/
  | draft (changes : CasePatchRequest) (h : row' = changes.update row) :
      RowWrite row row' [] (.draft row.caseId)
  /-- A submission, of a case that was complete when it was read. -/
  | submission (case : DiagnosisCase) (valid : List String) (e : CaseReviewEventModel)
      (hid : case.row.caseId = row.caseId) (hcomplete : missingCaseFields case valid = [])
      (hstatus : row.reviewStatus = .draft) (h : row' = { row with reviewStatus := .pendingReview })
      (he : Records e row.caseId .draft .pendingReview) : RowWrite row row' [e] (.submission case)
  /-- A review, by another than the author. -/
  | review {kind : AccessKind} (e : CaseReviewEventModel)
      (hstatus : row.reviewStatus = .pendingReview)
      (hdecided : row'.reviewStatus = .approved ∨ row'.reviewStatus = .rejected)
      (hreviewer : ∃ r, row'.reviewer = some r ∧ r ≠ row.createdBy) (hsame : SameWork row row')
      (hactive : row'.isActive = true → row.isActive = true)
      (he : Records e row.caseId .pendingReview row'.reviewStatus) : RowWrite row row' [e] kind
  | withdrawal {kind : AccessKind} (e : CaseReviewEventModel)
      (hstatus : row.reviewStatus = .approved) (hwithdrawn : row'.reviewStatus.withdrawn = true)
      (hreviewer : row'.reviewer = row.reviewer) (hsame : SameWork row row')
      (hactive : row'.isActive = false)
      (he : Records e row.caseId .approved row'.reviewStatus) : RowWrite row row' [e] kind
  /-- A withdrawal by a worker, which appends no event. -/
  | supersession (hstatus : row.reviewStatus = .approved) (h : row' = supersededRow row) :
      RowWrite row row' [] (.supersession row.caseId)
  | queued {kind : AccessKind} (e : CaseReviewEventModel) (h : row' = queuedRow row)
      (he : Records e row.caseId row.reviewStatus row.reviewStatus) : RowWrite row row' [e] kind
  /-- The columns of the index; a case that is set active has been approved. -/
  | index {kind : AccessKind} (hstatus : row'.reviewStatus = row.reviewStatus)
      (hreviewer : row'.reviewer = row.reviewer) (hsame : SameWork row row')
      (hactive : row'.isActive = true →
        kind = .activation row.caseId ∧ accepted row.reviewStatus = true) :
      RowWrite row row' [] kind
  /-- An event that keeps the status, by what the writer has read of it. -/
  | event (e : CaseReviewEventModel) (h : row' = row) (hid : e.caseId = row.caseId)
      (hkeeps : e.fromStatus = e.toStatus) : RowWrite row row' [e] (.event e)

/-- The row of case `k` is `row'`, the other rows are as before, and the events are appended. -/
structure Rewrites (w w' : World γ) (k : String) (row' : DiagnosisCaseModel)
    (events : List CaseReviewEventModel) : Prop where
  self : w'.getCase k = some row'
  other : ∀ k', k' ≠ k → w'.getCase k' = w.getCase k'
  events : w'.caseEvents = w.caseEvents ++ events
  ids : (w.cases.map (·.caseId)).Nodup → (w'.cases.map (·.caseId)).Nodup

/-- A case that has just been created; a revision is of another case. -/
structure NewDraftRow (row : DiagnosisCaseModel) : Prop where
  status : row.reviewStatus = .draft
  inactive : row.isActive = false
  supersedes : row.supersedesCaseId ≠ some row.caseId

/-- What an access does to the cases and their history. -/
inductive CaseWrite (w w' : World γ) (kind : AccessKind) : Prop
  | quiet (hcases : w'.cases = w.cases) (hevents : w'.caseEvents = w.caseEvents) :
      CaseWrite w w' kind
  | insert {row : DiagnosisCaseModel} (hnew : w.getCase row.caseId = none) (hdraft : NewDraftRow row)
      (h : Rewrites w w' row.caseId row []) : CaseWrite w w' kind
  | row {k : String} {row row' : DiagnosisCaseModel} {events : List CaseReviewEventModel}
      (hrow : w.getCase k = some row) (hwrite : RowWrite row row' events kind)
      (h : Rewrites w w' k row' events) : CaseWrite w w' kind

/-! ## What stays -/

/-- A row moves along the life cycle, and its author stays. -/
structure Moves (row row' : DiagnosisCaseModel) : Prop where
  caseId : row'.caseId = row.caseId
  createdBy : row'.createdBy = row.createdBy
  supersedes : row'.supersedesCaseId = row.supersedesCaseId
  sourceReviewId : row'.sourceReviewId = row.sourceReviewId
  status : statusStep row.reviewStatus row'.reviewStatus = true

theorem Moves.refl (row : DiagnosisCaseModel) : Moves row row :=
  ⟨rfl, rfl, rfl, rfl, statusStep_refl _⟩

theorem RowWrite.moves {row row' : DiagnosisCaseModel} {events : List CaseReviewEventModel}
    {kind : AccessKind} (h : RowWrite row row' events kind) : Moves row row' := by
  cases h with
  | draft changes h =>
      subst h
      exact ⟨rfl, rfl, rfl, rfl, statusStep_refl _⟩
  | submission case valid e hid hcomplete hstatus h he =>
      subst h
      exact ⟨rfl, rfl, rfl, rfl, by rw [hstatus]; rfl⟩
  | review e hstatus hdecided hreviewer hsame hactive he =>
      refine ⟨hsame.caseId, hsame.createdBy, hsame.supersedes, hsame.sourceReviewId, ?_⟩
      rcases hdecided with hdecided | hdecided <;> rw [hstatus, hdecided] <;> rfl
  | withdrawal e hstatus hwithdrawn hreviewer hsame hactive he =>
      refine ⟨hsame.caseId, hsame.createdBy, hsame.supersedes, hsame.sourceReviewId, ?_⟩
      revert hwithdrawn
      rw [hstatus]
      cases row'.reviewStatus <;> decide
  | supersession hstatus h =>
      subst h
      exact ⟨rfl, rfl, rfl, rfl, by rw [hstatus]; rfl⟩
  | queued e h he =>
      subst h
      exact ⟨rfl, rfl, rfl, rfl, statusStep_refl _⟩
  | index hstatus hreviewer hsame hactive =>
      exact ⟨hsame.caseId, hsame.createdBy, hsame.supersedes, hsame.sourceReviewId, by rw [hstatus]; exact statusStep_refl _⟩
  | event e h hid hkeeps =>
      subst h
      exact Moves.refl _

/-- The row of a case after an access: as it was, or written. -/
theorem CaseWrite.getCase {w w' : World γ} {kind : AccessKind} (h : CaseWrite w w' kind)
    {k : String} {row : DiagnosisCaseModel} (hrow : w.getCase k = some row) :
    ∃ row', w'.getCase k = some row' ∧ (row' = row ∨ ∃ events, RowWrite row row' events kind) := by
  cases h with
  | quiet hcases hevents => exact ⟨row, (World.getCase_congr hcases).trans hrow, Or.inl rfl⟩
  | @insert new hnew hdraft h =>
      by_cases hk : k = new.caseId
      · rw [← hk, hrow] at hnew
        cases hnew
      · exact ⟨row, (h.other k hk).trans hrow, Or.inl rfl⟩
  | @row k' row₀ row' events hrow₀ hwrite h =>
      by_cases hk : k = k'
      · subst hk
        obtain rfl : row = row₀ := Option.some.inj (hrow.symm.trans hrow₀)
        exact ⟨row', h.self, Or.inr ⟨events, hwrite⟩⟩
      · exact ⟨row, (h.other k hk).trans hrow, Or.inl rfl⟩

/-- The row of a case before an access: none, and the case is a new draft; or what became of it. -/
theorem CaseWrite.getCase_of {w w' : World γ} {kind : AccessKind} (h : CaseWrite w w' kind)
    {k : String} {row' : DiagnosisCaseModel} (hrow' : w'.getCase k = some row') :
    (w.getCase k = none ∧ NewDraftRow row') ∨
      ∃ row, w.getCase k = some row ∧ (row' = row ∨ ∃ events, RowWrite row row' events kind) := by
  cases hrow : w.getCase k with
  | some row =>
      obtain ⟨row'', hrow'', hwrite⟩ := h.getCase hrow
      obtain rfl : row' = row'' := Option.some.inj (hrow'.symm.trans hrow'')
      exact Or.inr ⟨row, rfl, hwrite⟩
  | none =>
      left
      cases h with
      | quiet hcases hevents =>
          rw [World.getCase_congr hcases, hrow] at hrow'
          cases hrow'
      | @insert new hnew hdraft h =>
          by_cases hk : k = new.caseId
          · subst hk
            obtain rfl : new = row' := Option.some.inj (h.self.symm.trans hrow')
            exact ⟨rfl, hdraft⟩
          · rw [h.other k hk, hrow] at hrow'
            cases hrow'
      | @row k' row₀ row₀' events hrow₀ hwrite h =>
          by_cases hk : k = k'
          · subst hk
            rw [hrow] at hrow₀
            cases hrow₀
          · rw [h.other k hk, hrow] at hrow'
            cases hrow'

theorem CaseWrite.moves {w w' : World γ} {kind : AccessKind} (h : CaseWrite w w' kind)
    {k : String} {row : DiagnosisCaseModel} (hrow : w.getCase k = some row) :
    ∃ row', w'.getCase k = some row' ∧ Moves row row' := by
  obtain ⟨row', hrow', rfl | ⟨events, hwrite⟩⟩ := h.getCase hrow
  · exact ⟨row', hrow', Moves.refl _⟩
  · exact ⟨row', hrow', hwrite.moves⟩

theorem CaseWrite.ids {w w' : World γ} {kind : AccessKind} (h : CaseWrite w w' kind)
    (hids : (w.cases.map (·.caseId)).Nodup) : (w'.cases.map (·.caseId)).Nodup := by
  cases h with
  | quiet hcases hevents =>
      rw [hcases]
      exact hids
  | insert hnew hdraft h => exact h.ids hids
  | row hrow hwrite h => exact h.ids hids

/-! ## The contract -/

/-- Every access is a write of the kinds above. -/
def caseWrites : Contract Access (World γ) where
  keeps _ := True
  guar mark w w' := CaseWrite w w' mark.kind

/-- The case exists, and `author` has created it. -/
def CreatedBy (k author : String) (w : World γ) : Prop :=
  ∃ row, w.getCase k = some row ∧ row.createdBy = author

/-- The case exists, and has been approved at some time. -/
def WasApproved (k : String) (w : World γ) : Prop :=
  ∃ row, w.getCase k = some row ∧ accepted row.reviewStatus = true

theorem stable_createdBy (k author : String) : caseWrites.Stable (CreatedBy (γ := γ) k author) := by
  rintro w w' ⟨-, ⟨mark, hwrite⟩, -⟩ ⟨row, hrow, hauthor⟩
  obtain ⟨row', hrow', hmoves⟩ := hwrite.moves hrow
  exact ⟨row', hrow', hmoves.createdBy.trans hauthor⟩

theorem stable_wasApproved (k : String) : caseWrites.Stable (WasApproved (γ := γ) k) := by
  rintro w w' ⟨-, ⟨mark, hwrite⟩, -⟩ ⟨row, hrow, haccepted⟩
  obtain ⟨row', hrow', hmoves⟩ := hwrite.moves hrow
  exact ⟨row', hrow', statusStep_accepted hmoves.status haccepted⟩

/-! ## Accesses that leave the cases alone -/

/-- The cases and their history stay. -/
def LeavesCases {ε α : Type} (x : Prog (World γ) ε α) : Prop :=
  ∀ w, (x w).2.cases = w.cases ∧ (x w).2.caseEvents = w.caseEvents

section leaves

variable {ε α : Type}

theorem LeavesCases.read (f : World γ → α) : LeavesCases (Prog.read f : Prog (World γ) ε α) :=
  fun _ => ⟨rfl, rfl⟩

theorem LeavesCases.write {f : World γ → World γ}
    (h : ∀ w, (f w).cases = w.cases ∧ (f w).caseEvents = w.caseEvents) :
    LeavesCases (Prog.write f : Prog (World γ) ε Unit) := h

/-- A program that keeps every invariant of these two tables. -/
theorem LeavesCases.of_keeps {x : Prog (World γ) ε α}
    (h : ∀ w : World γ, Prog.Keeps (fun w' : World γ => w'.cases = w.cases ∧
      w'.caseEvents = w.caseEvents) x) :
    LeavesCases x := fun w => (h w).snd ⟨rfl, rfl⟩

/-- An access that leaves the cases alone is safe. -/
theorem safe_quiet {mark : Access} {x : Prog (World γ) ε α} (h : LeavesCases x) {s : World γ} :
    (Thread.atomic mark x).Safe caseWrites (fun _ _ => True) s := by
  refine .atomic .true (fun _ => .true) trivial trivial fun t _ _ => ?_
  exact ⟨trivial, .quiet (h t).1 (h t).2, fun _ _ => trivial⟩

theorem leavesCases_vectorCall {outcome : CallOutcome} {f : World γ → World γ}
    (h : ∀ w, (f w).cases = w.cases ∧ (f w).caseEvents = w.caseEvents) :
    LeavesCases (vectorCall outcome f) := by
  intro w
  unfold vectorCall
  cases outcome with
  | applied => exact h w
  | raised e => exact ⟨rfl, rfl⟩
  | appliedThenRaised e => exact h w

theorem leavesCases_callOutcome {outcome : CallOutcome} {f : World γ → World γ}
    (h : ∀ w, (f w).cases = w.cases ∧ (f w).caseEvents = w.caseEvents) :
    LeavesCases (callOutcome outcome f) := by
  intro w
  unfold callOutcome
  cases outcome with
  | applied => exact h w
  | raised e => exact ⟨rfl, rfl⟩
  | appliedThenRaised e => exact h w

theorem leavesCases_of_sameButGraph {x : Handler γ α}
    (h : ∀ w, Prog.Keeps (SameButGraph w) x) : LeavesCases x := by
  intro w
  obtain ⟨graph, projections, hsame⟩ := (h w).snd (SameButGraph.refl w)
  rw [hsame]
  exact ⟨rfl, rfl⟩

end leaves

theorem upsertCollection_caseTables (collection : Collection) (rows : List VectorRow) (w : World γ) :
    (upsertCollection collection rows w).cases = w.cases ∧
      (upsertCollection collection rows w).caseEvents = w.caseEvents := by
  cases collection <;> exact ⟨rfl, rfl⟩

/-! ## Reading -/

/-- What stays true of a row that was read. -/
structure HasRead (k : String) (row : DiagnosisCaseModel) (w : World γ) : Prop where
  caseId : row.caseId = k
  author : CreatedBy k row.createdBy w
  accepted : accepted row.reviewStatus = true → WasApproved k w

theorem hasRead_of_getCase {w : World γ} {k : String} {row : DiagnosisCaseModel}
    (h : w.getCase k = some row) : HasRead k row w :=
  ⟨getCase_caseId h, ⟨row, h, rfl⟩, fun haccepted => ⟨row, h, haccepted⟩⟩

theorem stable_hasRead (k : String) (row : DiagnosisCaseModel) :
    caseWrites.Stable (HasRead (γ := γ) k row) := by
  intro w w' haccess h
  exact ⟨h.caseId, stable_createdBy _ _ w w' haccess h.author, fun haccepted =>
    stable_wasApproved _ w w' haccess (h.accepted haccepted)⟩

theorem safe_fetch (caseId : String) {s : World γ} :
    (Interleaved.access (fetch caseId)).Safe caseWrites
      (fun case w => HasRead caseId case.row w) s := by
  refine .atomic .true (fun case => stable_hasRead caseId case.row) trivial trivial fun t _ _ => ?_
  cases hrun : fetch caseId t with
  | mk r t' =>
      obtain ⟨rfl, hr⟩ := fetch_cases hrun
      refine ⟨trivial, .quiet rfl rfl, ?_⟩
      rintro case rfl
      rcases hr with ⟨e, he⟩ | ⟨case', hcase, hrow⟩
      · cases he
      · cases hcase
        exact hasRead_of_getCase hrow

/-! ## Writing -/

section writing

variable {w w' : World γ} {k : String} {row : DiagnosisCaseModel}

/-- A row is rewritten. -/
theorem rewrites_of_update {f : DiagnosisCaseModel → DiagnosisCaseModel}
    {events : List CaseReviewEventModel} (hkey : ∀ r, (f r).caseId = r.caseId)
    (hrow : w.getCase k = some row) (hcases : w'.cases = (w.updateCase k f).cases)
    (hevents : w'.caseEvents = w.caseEvents ++ events) : Rewrites w w' k (f row) events where
  self := by
    rw [World.getCase_congr hcases, World.getCase_updateCase_self hkey, hrow]
    rfl
  other k' hk := by
    rw [World.getCase_congr hcases]
    exact World.getCase_updateCase_ne hkey hk
  events := hevents
  ids hids := by
    have hsame : w'.cases.map (·.caseId) = w.cases.map (·.caseId) := by
      rw [hcases]
      exact Table.map_key_update fun r hr => (hkey r).trans hr
    rw [hsame]
    exact hids

/-- An update of a case that is not there changes nothing. -/
theorem updateCase_of_none {f : DiagnosisCaseModel → DiagnosisCaseModel}
    (hrow : w.getCase k = none) : (w.updateCase k f).cases = w.cases := by
  have hnone := Table.get_eq_none.mp hrow
  show Table.update DiagnosisCaseModel.caseId w.cases k f = w.cases
  unfold Table.update
  conv_rhs => rw [← List.map_id w.cases]
  refine List.map_congr_left fun r hr => ?_
  rw [if_neg (hnone r hr)]
  rfl

/-- An update by case id, in one of the ways of `RowWrite` if it finds a row. -/
theorem write_of_update {f : DiagnosisCaseModel → DiagnosisCaseModel} {kind : AccessKind}
    (hkey : ∀ r, (f r).caseId = r.caseId) (hcases : w'.cases = (w.updateCase k f).cases)
    (hevents : w'.caseEvents = w.caseEvents)
    (hwrite : ∀ row, w.getCase k = some row → RowWrite row (f row) [] kind) :
    CaseWrite w w' kind := by
  cases hrow : w.getCase k with
  | none => exact .quiet (hcases.trans (updateCase_of_none hrow)) hevents
  | some row =>
      refine .row hrow (hwrite row hrow) (rewrites_of_update hkey hrow hcases ?_)
      rw [hevents, List.append_nil]

theorem addJob_caseTables {request : IndexJobCreate} {jobId : String} {rec : IndexJobRecord}
    (h : addJob request jobId w = .ok (rec, w')) :
    w'.cases = w.cases ∧ w'.caseEvents = w.caseEvents := by
  rcases addJob_cases h with ⟨_, rfl⟩ | ⟨_, _, _, rfl⟩ <;> exact ⟨rfl, rfl⟩

theorem addIndexJob_caseTables {indexRepository : Bool} {request : Option IndexJobCreate}
    {jobId : String} (h : addIndexJob indexRepository request jobId w = .ok w') :
    w'.cases = w.cases ∧ w'.caseEvents = w.caseEvents := by
  rcases addIndexJob_eq_ok h with ⟨_, rfl⟩ | ⟨r, rec, _, hadd⟩
  · exact ⟨rfl, rfl⟩
  · exact addJob_caseTables hadd

/-- An error of a transaction, or what it has committed. -/
theorem transaction_cases {ε α : Type} (t : World γ → Except ε (α × World γ)) (w : World γ) :
    (∃ e, Prog.transaction t w = (.error e, w)) ∨
      ∃ a w', t w = .ok (a, w') ∧ Prog.transaction t w = (.ok a, w') := by
  unfold Prog.transaction
  cases h : t w with
  | error e => exact Or.inl ⟨e, rfl⟩
  | ok p => exact Or.inr ⟨p.1, p.2, rfl, rfl⟩

/-- What a transaction leaves before the row that it returns is validated. -/
theorem validated_snd {β : Type} (t : World γ → Except CaseError (β × World γ))
    (f : β → Except CaseError DiagnosisCase) (w : World γ) :
    (∃ e, (Prog.transaction t >>= fun b => Prog.lift (f b)) w = (.error e, w)) ∨
      ∃ b w', t w = .ok (b, w') ∧
        (Prog.transaction t >>= fun b => Prog.lift (f b)) w = (f b, w') := by
  rcases transaction_cases t w with ⟨e, h⟩ | ⟨b, w', ht, h⟩
  · exact Or.inl ⟨e, Prog.bind_of_error h⟩
  · exact Or.inr ⟨b, w', ht, Prog.bind_of_ok h⟩

end writing

/-! ## The service keeps the contract -/

/-- What a transition has done, before and after the row that it returns is validated. -/
theorem transition_cases (indexRepository : Bool) (t : CaseTransition) (jobId : String)
    (w : World γ) :
    (∃ e, transition indexRepository t jobId w = (.error e, w)) ∨
      ∃ row replayed w', applyTransition indexRepository t jobId w = .ok ((row, replayed), w') ∧
        ((∃ e, transition indexRepository t jobId w = (.error e, w')) ∨
          ∃ case, case.row = row ∧
            transition indexRepository t jobId w = (.ok ⟨case, replayed⟩, w')) := by
  unfold transition
  rcases transaction_cases (applyTransition indexRepository t jobId) w with
    ⟨e, htx⟩ | ⟨⟨row, replayed⟩, w', happly, htx⟩
  · exact Or.inl ⟨e, Prog.bind_of_error htx⟩
  · refine Or.inr ⟨row, replayed, w', happly, ?_⟩
    rw [Prog.bind_of_ok htx]
    cases hrecord : caseRecord row with
    | error e => exact Or.inl ⟨e, rfl⟩
    | ok case => exact Or.inr ⟨case, (caseRecord_eq_ok hrecord).1, rfl⟩

/-- What stays true of the result of a transition. -/
structure Transitioned (t : CaseTransition) (result : CaseTransitionResult) (w : World γ) : Prop where
  read : HasRead t.caseId result.case.row w
  fresh : result.replayed = false → result.case.row.reviewStatus = t.target

theorem stable_transitioned (t : CaseTransition) (result : CaseTransitionResult) :
    caseWrites.Stable (Transitioned (γ := γ) t result) :=
  fun w w' haccess h => ⟨stable_hasRead _ _ w w' haccess h.read, h.fresh⟩

/-- `transition`: a replay that changes nothing, or a write of the row that it has locked. -/
theorem safe_transition {indexRepository : Bool} {t : CaseTransition} {jobId : String}
    {kind : AccessKind} {P : World γ → Prop} (hP : caseWrites.Stable P)
    (hkey : ∀ r, (t.rewrite r).caseId = r.caseId)
    (hstatus : ∀ r, (t.rewrite r).reviewStatus = t.target)
    (hwrite : ∀ w row, P w → w.getCase t.caseId = some row → row.reviewStatus = t.expected →
      RowWrite row (t.rewrite row) [t.event row.reviewStatus] kind)
    {s : World γ} (hs : P s) :
    (Thread.atomic { kind := kind } (transition indexRepository t jobId)).Safe caseWrites
      (fun result w => Transitioned t result w) s := by
  refine .atomic hP (stable_transitioned t) trivial hs ?_
  intro w _ hw
  rcases transition_cases indexRepository t jobId w with
    ⟨e, hrun⟩ | ⟨row', replayed, w', happly, hrun⟩
  · rw [hrun]
    refine ⟨trivial, .quiet rfl rfl, ?_⟩
    rintro a ⟨⟩
  · obtain ⟨hwritten, hrow', hfresh⟩ : CaseWrite w w' kind ∧ w'.getCase t.caseId = some row' ∧
        (replayed = false → row'.reviewStatus = t.target) := by
      rcases applyTransition_eq_ok happly with
        ⟨rfl, rfl, hrow, -⟩ | ⟨rfl, model, hmodel, hexpected, rfl, -, hjob⟩
      · exact ⟨.quiet rfl rfl, hrow, nofun⟩
      · obtain ⟨hcases, hevents⟩ := addIndexJob_caseTables hjob
        have hrewrites := rewrites_of_update hkey hmodel hcases hevents
        exact ⟨.row hmodel (hwrite w model hw hmodel hexpected) hrewrites, hrewrites.self,
          fun _ => hstatus model⟩
    rcases hrun with ⟨e, hrun⟩ | ⟨case, rfl, hrun⟩
    · rw [hrun]
      refine ⟨trivial, hwritten, ?_⟩
      rintro a ⟨⟩
    · rw [hrun]
      refine ⟨trivial, hwritten, ?_⟩
      rintro result ⟨⟩
      exact ⟨hasRead_of_getCase hrow', hfresh⟩

/-- `set_index`; a case that is set active has been approved. -/
theorem safe_setIndex {k : String} {status : CaseIndexStatus}
    {errorCode embeddingText : Option String} {active : Bool} {mark : Access} {s : World γ}
    (hactive : active = true → mark.kind = .activation k ∧ WasApproved k s) :
    (Thread.atomic mark (setIndex k status errorCode embeddingText active)).Safe caseWrites
      (fun _ _ => True) s := by
  have hstable : caseWrites.Stable (fun w : World γ => active = true → WasApproved k w) :=
    fun w w' haccess h ha => stable_wasApproved k w w' haccess (h ha)
  refine .atomic hstable (fun _ => .true) trivial (fun ha => (hactive ha).2) fun w _ hw => ?_
  refine ⟨trivial, ?_, fun _ _ => trivial⟩
  unfold setIndex
  rcases validated_snd (applySetIndex k status errorCode embeddingText active) caseRecord w with
    ⟨e, h⟩ | ⟨row', w', happly, h⟩
  · rw [h]
    exact .quiet rfl rfl
  · rw [h]
    obtain ⟨model, hmodel, rfl, rfl⟩ := applySetIndex_eq_ok happly
    have hkey := setIndexRow_caseId status errorCode embeddingText active
    refine .row hmodel ?_ (rewrites_of_update hkey hmodel rfl (List.append_nil _).symm)
    refine .index rfl rfl ⟨rfl, rfl, rfl, rfl, rfl⟩ fun ha => ?_
    obtain ⟨row, hrow, haccepted⟩ := hw ha
    obtain rfl : model = row := Option.some.inj (hmodel.symm.trans hrow)
    exact ⟨(hactive ha).1.trans (by rw [getCase_caseId hmodel]), haccepted⟩

section service

variable (settings : CaseSettings) (call : CaseCall) {s : World γ}

/-- `_index`, of a case that has been approved. -/
theorem safe_index {case : DiagnosisCase} (h : WasApproved case.row.caseId s) :
    (Interleaved.index call case).Safe caseWrites (fun _ _ => True) s := by
  unfold Interleaved.index
  refine .handle (stable_wasApproved case.row.caseId) ?_ trivial h fun e t _ _ => ?_
  · refine ((Thread.Safe.lift fun _ _ _ _ => trivial : Thread.Safe caseWrites (fun _ _ => True) _ s).frame
      (stable_wasApproved _) trivial h).bind trivial fun embedded t _ ht => ?_
    refine ((safe_quiet (leavesCases_vectorCall ?_)).frame (stable_wasApproved _) trivial ht.2).bind
      trivial fun _ u _ hu => ?_
    · exact upsertCollection_caseTables _ _
    · exact safe_setIndex fun _ => ⟨rfl, hu.2⟩
  · exact safe_setIndex nofun

/-- `_tombstone` -/
theorem safe_tombstone {case : DiagnosisCase} :
    (Interleaved.tombstone call case).Safe caseWrites (fun _ _ => True) s := by
  unfold Interleaved.tombstone
  refine .handle .true ?_ trivial trivial fun e t _ _ => safe_setIndex nofun
  refine (safe_quiet ?_).bind trivial fun _ t _ _ => safe_setIndex nofun
  intro w
  unfold deleteCaseVector
  cases call.milvus with
  | none => exact ⟨rfl, rfl⟩
  | some milvus =>
      exact leavesCases_vectorCall (f := dropCaseVector case.row.caseId) (fun _ => ⟨rfl, rfl⟩) w

/-- The transition of `disable` and `_supersede`. -/
theorem safe_withdrawal {current : DiagnosisCase} {caseId : String} {target : CaseStatus}
    {action : String} {requestHash : RequestFingerprint} {key comment : Option String}
    (htarget : target.withdrawn = true) :
    (Interleaved.access (transition settings.indexRepository
      (withdrawal settings call current caseId target action requestHash key comment)
      call.newJobId.val)).Safe caseWrites (fun _ _ => True) s := by
  refine (safe_transition .true (fun r => rfl) (fun r => rfl) ?_ trivial).mono fun _ _ _ => trivial
  intro w row _ hrow hexpected
  refine .withdrawal _ hexpected htarget rfl ⟨rfl, rfl, rfl, rfl, rfl⟩ rfl ?_
  exact ⟨(getCase_caseId hrow).symm, hexpected, rfl⟩

/-- `_supersede` -/
theorem safe_supersede {caseId : String} :
    (Interleaved.supersede settings call caseId).Safe caseWrites (fun _ _ => True) s := by
  unfold Interleaved.supersede
  refine (safe_fetch caseId).bind trivial fun current t _ _ => ?_
  refine (safe_withdrawal settings call rfl).bind trivial fun result u _ _ => ?_
  cases settings.indexExecutionMode with
  | rabbitmq => exact .pure fun _ _ => trivial
  | sync => exact (safe_tombstone call).bind trivial fun _ _ _ _ => .pure fun _ _ => trivial

/-- `patch` -/
theorem safe_patch {caseId : String} {payload : CasePatchRequest} :
    (Interleaved.patch call caseId payload).Safe caseWrites (fun _ _ => True) s := by
  unfold Interleaved.patch Interleaved.updateDraft
  refine (safe_quiet fun _ => ⟨rfl, rfl⟩).bind trivial fun model t _ _ => ?_
  split
  · exact .raise
  · refine Thread.Safe.seq .true ?_ trivial trivial fun _ _ _ _ =>
      .lift fun _ _ _ _ => trivial
    refine .atomic .true (fun _ => .true) trivial trivial fun w _ _ => ⟨trivial, ?_, fun _ _ => trivial⟩
    refine write_of_update (f := (payload.changes model).update) (fun r => rfl) rfl rfl
      fun row hrow => ?_
    rw [← getCase_caseId hrow]
    exact .draft _ rfl

/-- `submit` -/
theorem safe_submit {caseId : String} :
    (Interleaved.submit settings call caseId).Safe caseWrites (fun _ _ => True) s := by
  unfold Interleaved.submit
  refine (safe_fetch caseId).bind trivial fun case t _ hread => ?_
  refine (Thread.Safe.raiseIf.frame (stable_hasRead _ _) trivial hread).bind trivial
    fun _ u _ hu => ?_
  refine (Thread.Safe.raiseIf.frame (stable_hasRead _ _) trivial hu.2).bind trivial
    fun _ v _ hv => ?_
  obtain ⟨hcomplete, hv⟩ := hv
  refine (safe_transition (stable_hasRead caseId case.row) (fun r => rfl) (fun r => rfl) ?_ hv).bind
    trivial fun _ _ _ _ => .pure fun _ _ => trivial
  intro w row hw hrow hexpected
  have hid := getCase_caseId hrow
  refine .submission case _ _ (hw.caseId.trans hid.symm) (not_not.mp hcomplete) hexpected rfl ?_
  exact ⟨hid.symm, hexpected, rfl⟩

/-- What follows a fresh approval. -/
theorem safe_afterApproval {approved : DiagnosisCase} (h : WasApproved approved.row.caseId s) :
    (Interleaved.afterApproval settings call approved).Safe caseWrites (fun _ _ => True) s := by
  unfold Interleaved.afterApproval
  refine Thread.Safe.seq .true ?_ trivial trivial fun updated t _ _ => ?_
  · unfold Interleaved.indexApproved
    cases settings.indexExecutionMode with
    | rabbitmq => exact .pure fun _ _ => trivial
    | sync => exact safe_index call h
  · unfold Interleaved.supersedeReplaced
    split
    · exact (safe_supersede settings call).bind trivial fun _ _ _ _ => .pure fun _ _ => trivial
    · exact .pure fun _ _ => trivial

theorem reviewedRow_same (payload : CaseReviewRequest) (row : DiagnosisCaseModel) :
    SameWork row (reviewedRow settings call payload row) ∧
      (reviewedRow settings call payload row).reviewStatus = row.reviewStatus ∧
      (reviewedRow settings call payload row).reviewer = some call.actor.actorId ∧
      ((reviewedRow settings call payload row).isActive = true → row.isActive = true) := by
  unfold reviewedRow
  split <;> exact ⟨⟨rfl, rfl, rfl, rfl, rfl⟩, rfl, rfl, by simp⟩

/-- `review_case`: the author that it has read is the author for good. -/
theorem safe_reviewCase {caseId : String} {payload : CaseReviewRequest} :
    (Interleaved.reviewCase settings call caseId payload).Safe caseWrites (fun _ _ => True) s := by
  unfold Interleaved.reviewCase
  refine (safe_fetch caseId).bind trivial fun case t _ hread => ?_
  refine (Thread.Safe.raiseIf.frame (stable_hasRead _ _) trivial hread).bind trivial
    fun _ u _ hu => ?_
  obtain ⟨hother, hu⟩ := hu
  have htarget : (reviewTransition settings call case caseId payload).target =
      if payload.decision = .approve then .approved else .rejected := by
    cases hdecision : payload.decision <;> simp [reviewTransition, hdecision]
  refine (safe_transition (t := reviewTransition settings call case caseId payload)
    (stable_hasRead caseId case.row) (fun r => reviewedRow_caseId settings call payload _)
    (fun r => (reviewedRow_same settings call payload _).2.1) ?_ hu).bind trivial
    fun result v _ hv => ?_
  · -- the row that is locked has the author that was read before
    intro w row hw hrow hexpected
    obtain ⟨row', hrow', hauthor⟩ := hw.author
    obtain rfl : row = row' := Option.some.inj (hrow.symm.trans hrow')
    obtain ⟨hsame, hstatus, hreviewer, hactive⟩ := reviewedRow_same settings call payload
      { row with reviewStatus := (reviewTransition settings call case caseId payload).target }
    have hid : caseId = row.caseId := (getCase_caseId hrow).symm
    refine .review _ hexpected ?_ ⟨_, hreviewer, ?_⟩
      ⟨hsame.caseId, hsame.createdBy, hsame.supersedes, hsame.sourceReviewId, hsame.content⟩ hactive ⟨hid, hexpected, hstatus.symm⟩
    · have hdecided := hstatus.trans htarget
      split at hdecided
      · exact Or.inl hdecided
      · exact Or.inr hdecided
    · rw [hauthor]
      exact fun heq => hother heq.symm
  · split
    · exact .pure fun _ _ => trivial
    · next hgo =>
        rw [not_or] at hgo
        have happrove : payload.decision = .approve := by
          cases hdecision : payload.decision with
          | approve => rfl
          | reject => exact absurd hdecision hgo.2
        have happroved : result.case.row.reviewStatus = .approved := by
          rw [hv.fresh (by simpa using hgo.1), htarget, if_pos happrove]
        have hid : result.case.row.caseId = caseId := hv.read.caseId
        refine safe_afterApproval settings call ?_
        rw [hid]
        exact hv.read.accepted (by rw [happroved]; rfl)

/-- `disable` -/
theorem safe_disable {caseId : String} {payload : CaseDisableRequest} :
    (Interleaved.disable settings call caseId payload).Safe caseWrites (fun _ _ => True) s := by
  unfold Interleaved.disable
  refine (safe_fetch caseId).bind trivial fun current t _ _ => ?_
  refine (safe_withdrawal settings call rfl).bind trivial fun result u _ _ => ?_
  cases settings.indexExecutionMode with
  | rabbitmq => exact .pure fun _ _ => trivial
  | sync => exact safe_tombstone call

/-- `create`, of a draft; what it revises is there, so it is another case. -/
theorem safe_create {values : Option DiagnosisCaseModel} {P : World γ → Prop}
    (hP : caseWrites.Stable P) (hs : P s)
    (h : ∀ w row, P w → values = some row → w.getCase row.caseId = none → NewDraftRow row) :
    (Interleaved.access (create values)).Safe caseWrites (fun _ _ => True) s := by
  refine .atomic hP (fun _ => .true) trivial hs fun w _ hw => ⟨trivial, ?_, fun _ _ => trivial⟩
  unfold create
  rcases validated_snd (insertCase values) caseRecord w with ⟨e, hrun⟩ | ⟨row, w', hinsert, hrun⟩
  · rw [hrun]
    exact .quiet rfl rfl
  · rw [hrun]
    obtain ⟨hvalues, hnew, rfl⟩ := insertCase_eq_ok hinsert
    refine .insert hnew (h w row hw hvalues hnew)
      ⟨?_, fun k' hk' => ?_, (List.append_nil _).symm, fun hids => ?_⟩
    · exact Table.get_append_self hnew
    · exact Table.get_append_ne (Ne.symm hk')
    · exact Table.nodup_append hids hnew

/-- `append_event`, of an event that keeps the status of a case that was read. -/
theorem safe_appendEvent {event : CaseReviewEventModel} {row : DiagnosisCaseModel}
    (hkeeps : event.fromStatus = event.toStatus) (hs : HasRead event.caseId row s) :
    (Interleaved.appendEvent event).Safe caseWrites (fun _ _ => True) s := by
  refine .atomic (stable_hasRead _ row) (fun _ => .true) trivial hs fun w _ hw =>
    ⟨trivial, ?_, fun _ _ => trivial⟩
  unfold Cases.appendEvent
  rcases transaction_cases (fun w => (addEvent event w).map ((), ·)) w with
    ⟨e, hrun⟩ | ⟨a, w', hadd, hrun⟩
  · rw [hrun]
    exact .quiet rfl rfl
  · rw [hrun]
    obtain ⟨w'', hadd', heq⟩ := Prog.except_map_eq_ok hadd
    cases heq
    obtain ⟨row', hrow', -⟩ := hw.author
    rw [addEvent_eq_ok hadd']
    refine .row hrow' (.event event rfl (getCase_caseId hrow').symm hkeeps) ⟨hrow', fun _ _ => rfl, rfl, id⟩

/-- `revision` -/
theorem safe_revision {caseId : String} {payload : CaseRevisionRequest} :
    (Interleaved.revision settings call caseId payload).Safe caseWrites (fun _ _ => True) s := by
  unfold Interleaved.revision
  refine (safe_fetch caseId).bind trivial fun original t _ hread => ?_
  have hreplay : ∀ fingerprint, (Interleaved.revisionReplay call caseId fingerprint).Safe caseWrites
      (fun _ _ => True) t := by
    intro fingerprint
    unfold Interleaved.revisionReplay
    refine (safe_quiet (.read _)).bind trivial fun event u _ _ => ?_
    cases event with
    | none => exact .pure fun _ _ => trivial
    | some event =>
        refine Thread.Safe.raiseIf.bind trivial fun _ v _ _ => ?_
        split
        · exact .pure fun _ _ => trivial
        · refine safe_quiet fun w => ?_
          exact (keeps_get (J := fun w' => w'.cases = w.cases ∧ w'.caseEvents = w.caseEvents) _).snd
            ⟨rfl, rfl⟩
  refine ((hreplay _).frame (stable_hasRead _ _) trivial hread).bind trivial fun replay u _ hu => ?_
  obtain ⟨-, hu⟩ := hu
  cases replay with
  | some existing => exact .pure fun _ _ => trivial
  | none =>
      refine (Thread.Safe.raiseIf.frame (stable_hasRead _ _) trivial hu).bind trivial
        fun _ v _ hv => ?_
      refine ((safe_quiet (.read _)).frame (stable_hasRead _ _) trivial hv.2).bind trivial
        fun version x _ hx => ?_
      refine .seq (stable_hasRead _ _) (safe_create (stable_hasRead caseId original.row) hx.2 ?_) trivial
        hx.2 fun created y _ hy => ?_
      · intro w row hw hvalues hnew
        obtain ⟨rootCause, -, rfl⟩ := Option.map_eq_some_iff.mp hvalues
        refine ⟨rfl, rfl, fun hself => ?_⟩
        have hid : original.row.caseId = call.newCaseId.val := Option.some.inj hself
        obtain ⟨orow, horow, -⟩ := hw.author
        rw [← hw.caseId, hid] at horow
        exact absurd (horow.symm.trans hnew) nofun
      · have hevent : (Interleaved.appendEvent (Interleaved.revisionEvent call original created caseId
            (.revision caseId payload.patch.dump payload.submitForReview))).Safe caseWrites
              (fun _ _ => True) y := safe_appendEvent rfl hy
        refine hevent.bind trivial fun _ z _ _ => ?_
        split
        · exact safe_submit settings call
        · exact .pure fun _ _ => trivial

/-- `queue_index` -/
theorem safe_queueIndex {caseId action : String} {request : IndexJobCreate} :
    (Interleaved.access (queueIndex settings.indexRepository caseId request
      (reindexEvent call caseId action) call.newJobId.val)).Safe caseWrites (fun _ _ => True) s := by
  refine .atomic .true (fun _ => .true) trivial trivial fun w _ _ => ⟨trivial, ?_, fun _ _ => trivial⟩
  cases hrun : queueIndex settings.indexRepository caseId request (reindexEvent call caseId action)
    call.newJobId.val w with
  | mk r w' =>
      unfold queueIndex at hrun
      rcases Prog.bind_cases hrun with ⟨e, hraise, -⟩ | ⟨_, w₁, hraise, hqueue⟩
      · obtain ⟨rfl, -⟩ := Prog.raiseIf_cases hraise
        exact .quiet rfl rfl
      · obtain ⟨rfl, -⟩ := Prog.raiseIf_cases hraise
        rcases validated_snd (applyQueueIndex caseId request (reindexEvent call caseId action)
          call.newJobId.val) caseRecord w₁ with ⟨e, hend⟩ | ⟨row, w₂, happly, hend⟩
        · rw [hend] at hqueue
          cases hqueue
          exact .quiet rfl rfl
        · rw [hend] at hqueue
          cases hqueue
          obtain ⟨model, rec, hmodel, rfl, hadd⟩ := applyQueueIndex_eq_ok happly
          obtain ⟨hcases, hevents⟩ := addJob_caseTables hadd
          refine .row hmodel (.queued _ rfl ?_) (rewrites_of_update (fun r => rfl) hmodel hcases hevents)
          exact ⟨(getCase_caseId hmodel).symm, rfl, rfl⟩

/-- `reindex` -/
theorem safe_reindex {caseId : String} :
    (Interleaved.reindex settings call caseId).Safe caseWrites (fun _ _ => True) s := by
  unfold Interleaved.reindex
  refine (safe_fetch caseId).bind trivial fun case t _ hread => ?_
  refine ((safe_quiet (.read _)).frame (stable_hasRead _ _) trivial hread).bind trivial
    fun event u _ hu => ?_
  obtain ⟨-, hu⟩ := hu
  cases event with
  | some event =>
      exact Thread.Safe.raiseIf.bind trivial fun _ v _ _ => (safe_fetch caseId).mono fun _ _ _ => trivial
  | none =>
      show (Interleaved.runReindex settings call caseId case).Safe _ _ _
      unfold Interleaved.runReindex
      cases hoperation : reindexOperation case.row with
      | none => exact .raise
      | some operation =>
          cases settings.indexExecutionMode with
          | rabbitmq => exact safe_queueIndex settings call
          | sync =>
              have hevent : (Interleaved.appendEvent (reindexEvent call caseId "case.reindex_started"
                  case.row.reviewStatus)).Safe caseWrites (fun _ _ => True) u := safe_appendEvent rfl hu
              refine .seq (stable_hasRead _ _) hevent trivial hu fun _ v _ hv => ?_
              split
              · exact safe_tombstone call
              · next hop =>
                  rcases reindexOperation_cases hoperation with ⟨-, happroved⟩ | ⟨hfalse, -⟩
                  · refine safe_index call ?_
                    rw [hv.caseId]
                    exact hv.accepted (by rw [happroved]; rfl)
                  · exact absurd hfalse hop

/-- **Every request keeps the contract.** -/
theorem safe_request (r : CaseRequest) :
    (Interleaved.request settings call r).Safe caseWrites (fun _ _ => True) s := by
  cases r with
  | createDraft draft =>
      refine (safe_quiet (.read _)).bind trivial fun version t _ _ => safe_create .true trivial ?_
      rintro w row - ⟨⟩ -
      exact ⟨rfl, rfl, nofun⟩
  | patch caseId payload => exact safe_patch call
  | submit caseId => exact safe_submit settings call
  | review caseId payload => exact safe_reviewCase settings call
  | disable caseId payload => exact safe_disable settings call
  | revision caseId payload => exact safe_revision settings call
  | reindex caseId => exact safe_reindex settings call

end service

end EnergyAgent.Cases
