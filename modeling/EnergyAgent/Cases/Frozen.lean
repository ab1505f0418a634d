import EnergyAgent.Cases.FourEyes

/-!
# Reviewed content is complete and frozen

`submit` checks the case that it has read, and `update_draft` the status that it has read; neither is
looked at again when the write comes. As long as what they have read still holds by then, a case
that is reviewed is complete, and its content stays as it is.
-/

namespace EnergyAgent.Cases

open EnergyAgent.Core EnergyAgent.Lib EnergyAgent.Persistence EnergyAgent.Indexing

variable {γ : Type}

/-! ## The property -/

/-- The content that a review needs: none of these fields is empty. -/
structure CaseContent.Complete (content : CaseContent) : Prop where
  deviceType : (Text.truthy content.deviceType).isSome = true
  deviceModel : (Text.truthy content.deviceModel).isSome = true
  alarmName : (Text.truthy content.alarmName).isSome = true
  symptomSummary : (Text.truthy content.symptomSummary).isSome = true
  rootCause : content.rootCause ≠ ""
  resolutionSteps : content.resolutionSteps.getD [] ≠ []
  evidenceRefs : content.evidenceRefs.getD [] ≠ []

theorem complete_of_missingCaseFields {case : DiagnosisCase} {validEvidence : List String}
    (h : missingCaseFields case validEvidence = []) : (caseContent case.row).Complete := by
  have hmissing : List.map Prod.fst (List.filter (fun field : String × Bool => field.2 = false)
      [("device_type", (Text.truthy case.row.deviceType).isSome),
        ("device_model", (Text.truthy case.row.deviceModel).isSome),
        ("alarm_name", (Text.truthy case.row.alarmName).isSome),
        ("symptom_summary", (Text.truthy case.row.symptomSummary).isSome),
        ("root_cause", decide (case.row.rootCause ≠ "")),
        ("resolution_steps", decide (case.resolutionSteps ≠ [])),
        ("evidence_refs", decide (case.evidenceRefs ≠ [])),
        ("created_by", decide (case.row.createdBy ≠ ""))]) = [] := by
    unfold missingCaseFields at h
    split at h
    · exact (List.append_eq_nil_iff.mp h).1
    · exact h
  have hpresent := List.filter_eq_nil_iff.mp (List.map_eq_nil_iff.mp hmissing)
  simp only [List.forall_mem_cons, decide_eq_true_eq, Bool.not_eq_false, decide_eq_true_eq] at hpresent
  obtain ⟨htype, hmodel, halarm, hsummary, hcause, hsteps, hevidence, -⟩ := hpresent
  exact ⟨htype, hmodel, halarm, hsummary, hcause, hsteps, hevidence⟩

/-- A case that is under review or approved is complete. -/
def ReviewedComplete (row : DiagnosisCaseModel) : Prop :=
  row.reviewStatus = .pendingReview ∨ row.reviewStatus = .approved → (caseContent row).Complete

/-! ## The condition -/

/-- What an access rests on still holds when it comes: the `UPDATE` of a draft finds a draft, and a
submission the content that was read and checked. -/
def AccessKind.StillSo (w : World γ) : AccessKind → Prop
  | .draft caseId => ∀ row, w.getCase caseId = some row → row.reviewStatus = .draft
  | .submission case => ∀ row, w.getCase case.row.caseId = some row → row.reviewStatus = .draft →
      caseContent row = caseContent case.row
  | _ => True

/-- The condition on a move. -/
def ReadsStayTrue (p : Threads Access (World γ) Empty Unit) (m : Threads.Move (Label γ)) : Prop :=
  ∀ mark, p.access m = some mark → mark.kind.StillSo p.store

instance (w : World γ) : (kind : AccessKind) → Decidable (kind.StillSo w)
  | .draft caseId => inferInstanceAs (Decidable (∀ row ∈ w.getCase caseId, row.reviewStatus = .draft))
  | .submission case => inferInstanceAs (Decidable (∀ row ∈ w.getCase case.row.caseId,
      row.reviewStatus = .draft → caseContent row = caseContent case.row))
  | .event _ | .activation _ | .supersession _ | .start | .finish | .other => isTrue trivial

instance (p : Threads Access (World γ) Empty Unit) (m : Threads.Move (Label γ)) :
    Decidable (ReadsStayTrue p m) :=
  inferInstanceAs (Decidable (∀ mark ∈ p.access m, mark.kind.StillSo p.store))

/-- A write that rests on what still holds: a case in review keeps its content, and only a complete
one gets there. -/
theorem RowWrite.content {w : World γ} {k : String} {row row' : DiagnosisCaseModel}
    {events : List CaseReviewEventModel} {kind : AccessKind} (h : RowWrite row row' events kind)
    (hrow : w.getCase k = some row) (hstill : kind.StillSo w) :
    (row.reviewStatus ≠ .draft → caseContent row' = caseContent row) ∧
      (ReviewedComplete row → ReviewedComplete row') := by
  obtain rfl := getCase_caseId hrow
  have hsame : caseContent row' = caseContent row → row'.reviewStatus = row.reviewStatus →
      (row.reviewStatus ≠ .draft → caseContent row' = caseContent row) ∧
        (ReviewedComplete row → ReviewedComplete row') := by
    intro hcontent hstatus
    refine ⟨fun _ => hcontent, fun hcomplete hreviewed => ?_⟩
    rw [hcontent]
    exact hcomplete (hstatus ▸ hreviewed)
  cases h with
  | draft changes h =>
      subst h
      have hdraft : row.reviewStatus = .draft := hstill row hrow
      refine ⟨fun hleft => absurd hdraft hleft, fun _ hreviewed => ?_⟩
      have hstatus : (changes.update row).reviewStatus = .draft := hdraft
      rw [hstatus] at hreviewed
      rcases hreviewed with hreviewed | hreviewed <;> cases hreviewed
  | submission case valid e hid hcomplete hstatus h he =>
      subst h
      refine ⟨fun hleft => absurd hstatus hleft, fun _ _ => ?_⟩
      have hread : caseContent row = caseContent case.row := by
        refine hstill row ?_ hstatus
        rw [hid]
        exact hrow
      show (caseContent row).Complete
      rw [hread]
      exact complete_of_missingCaseFields hcomplete
  | review e hstatus hdecided hreviewer hsame hactive he =>
      refine ⟨fun _ => hsame.content, fun hcomplete _ => ?_⟩
      rw [hsame.content]
      exact hcomplete (Or.inl hstatus)
  | withdrawal e hstatus hwithdrawn hreviewer hsame hactive he =>
      refine ⟨fun _ => hsame.content, fun hcomplete _ => ?_⟩
      rw [hsame.content]
      exact hcomplete (Or.inr hstatus)
  | supersession hstatus h =>
      subst h
      exact ⟨fun _ => rfl, fun hcomplete _ => hcomplete (Or.inr hstatus)⟩
  | queued e h he =>
      subst h
      exact hsame rfl rfl
  | index hstatus hreviewer hwork hactive => exact hsame hwork.content hstatus
  | event e h hid hkeeps =>
      subst h
      exact hsame rfl rfl

/-- **Reviewed content is complete and frozen** in every run whose accesses find what they rest
on. -/
theorem reviewed_complete_and_frozen {settings : CaseSettings}
    {p : Threads Access (World γ) Empty Unit}
    (h : (interleaved settings).ReachableVia ReadsStayTrue p) :
    (∀ k row, p.store.getCase k = some row →
      row.reviewStatus = .pendingReview ∨ row.reviewStatus = .approved →
      (caseContent row).Complete) ∧
    ∀ m q, ReadsStayTrue p m → (interleaved settings).step p m = some q → ∀ k row row',
      p.store.getCase k = some row → row.reviewStatus ≠ .draft → q.store.getCase k = some row' →
      caseContent row' = caseContent row := by
  refine ⟨?_, fun m q hok hstep k row row' hrow hleft hrow' => ?_⟩
  · refine everyCase_of_reachable (P := ReviewedComplete) (fun row hnew hreviewed => ?_) ?_ h
    · rw [hnew.status] at hreviewed
      rcases hreviewed with hreviewed | hreviewed <;> cases hreviewed
    · intro p m mark k row row' events hok haccess hrow hcomplete hwrite
      exact (hwrite.content hrow (hok mark haccess)).2 hcomplete
  · rcases writes_of_reachable h hstep with hsame | ⟨mark, haccess, hcase⟩
    · rw [hsame, hrow] at hrow'
      cases hrow'
      rfl
    · obtain ⟨row'', hrow'', rfl | ⟨events, hwrite⟩⟩ := hcase.getCase hrow
      · obtain rfl : row' = row'' := Option.some.inj (hrow'.symm.trans hrow'')
        rfl
      · obtain rfl : row' = row'' := Option.some.inj (hrow'.symm.trans hrow'')
        exact (hwrite.content hrow (hok mark haccess)).1 hleft

/-! ## Runs -/

/-- A review that nothing disturbs meets the condition. -/
theorem approved_complete : ∃ p row,
    (interleaved (sampleSettings .sync)).run ⟨World.empty (), []⟩ approvedMoves = some p ∧
      p.store.getCase "case-1" = some row ∧ row.reviewStatus = .approved ∧
      (caseContent row).Complete := by
  have hchecked : ((interleaved (sampleSettings .sync)).runChecked
      (fun p m => decide (ReadsStayTrue p m)) ⟨World.empty (), []⟩ approvedMoves).any
      (fun p => (p.store.getCase "case-1").any (·.reviewStatus = .approved)) = true := by
    decide +kernel
  obtain ⟨p, hp, hcase⟩ := (Option.any_eq_true _ _).mp hchecked
  obtain ⟨row, hrow, happroved⟩ := (Option.any_eq_true _ _).mp hcase
  have hreach : (interleaved (sampleSettings .sync)).ReachableVia ReadsStayTrue p :=
    .of_runChecked (fun _ _ h => of_decide_eq_true h)
      (.init ⟨⟨rfl, rfl, rfl, rfl, rfl, rfl⟩, rfl⟩) hp
  have happroved := of_decide_eq_true happroved
  exact ⟨p, row, TransitionSystem.run_of_runChecked hp, hrow, happroved,
    (reviewed_complete_and_frozen hreach).1 "case-1" row hrow (Or.inr happroved)⟩

/-- `submit` and a patch both read the draft; the patch empties the evidence after the submission. -/
def patchedReviewMoves : List (Threads.Move (Label Unit)) :=
  undisturbed 0 2 (.api (engineer caseOne) (.createDraft (sampleDraft "session"))) ++
  undisturbed 1 1 (.api (engineer noId) (.submit "case-1")) ++
  undisturbed 2 1 (.api (engineer noId)
    (.patch "case-1" { emptyPatch with evidenceRefs := some (some []) })) ++
  [.step 1, .step 2]

/-- A case under review is left without evidence, by a write to it. -/
theorem patch_empties_reviewed_case :
    ¬ ∀ p : Threads Access (World Unit) Empty Unit,
      (interleaved (sampleSettings .sync)).Reachable p →
      (∀ k row, p.store.getCase k = some row →
        row.reviewStatus = .pendingReview ∨ row.reviewStatus = .approved →
        (caseContent row).Complete) ∧
      ∀ m q, (interleaved (sampleSettings .sync)).step p m = some q → ∀ k row row',
        p.store.getCase k = some row → row.reviewStatus ≠ .draft → q.store.getCase k = some row' →
        caseContent row' = caseContent row := by
  intro hclaim
  have hrun : ((interleaved (sampleSettings .sync)).run ⟨World.empty (), []⟩ patchedReviewMoves).any
      (fun p => (p.store.getCase "case-1").any fun row =>
        row.reviewStatus = .pendingReview && row.evidenceRefs = some []) = true := by
    decide +kernel
  obtain ⟨p, hp, hcase⟩ := (Option.any_eq_true _ _).mp hrun
  obtain ⟨row, hrow, hempty⟩ := (Option.any_eq_true _ _).mp hcase
  simp only [Bool.and_eq_true, decide_eq_true_eq] at hempty
  have hreach : (interleaved (sampleSettings .sync)).Reachable p :=
    .of_run (.init ⟨⟨rfl, rfl, rfl, rfl, rfl, rfl⟩, rfl⟩) hp
  refine ((hclaim p hreach).1 "case-1" row hrow (Or.inl hempty.1)).evidenceRefs ?_
  show row.evidenceRefs.getD [] = []
  rw [hempty.2]
  rfl

end EnergyAgent.Cases
