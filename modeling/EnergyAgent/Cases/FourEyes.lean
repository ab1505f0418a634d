import EnergyAgent.Cases.WorkerWrites

/-!
# The life cycle and the four eyes

Whatever interrupts what: a case moves along its life cycle only, its author stays, whoever decides on
it is another than its author, and a case is active only if it has been approved at some time.
-/

namespace EnergyAgent.Cases

open EnergyAgent.Core EnergyAgent.Lib EnergyAgent.Persistence EnergyAgent.Indexing

variable {γ : Type}

/-- A decided case has a reviewer other than its author; an active one has been approved. -/
structure FourEyes (row : DiagnosisCaseModel) : Prop where
  reviewer : decided row.reviewStatus = true → ∃ r, row.reviewer = some r ∧ r ≠ row.createdBy
  active : row.isActive = true → accepted row.reviewStatus = true

theorem NewDraftRow.fourEyes {row : DiagnosisCaseModel} (hnew : NewDraftRow row) : FourEyes row := by
  refine ⟨fun h => ?_, fun h => ?_⟩
  · rw [hnew.status] at h
    cases h
  · rw [hnew.inactive] at h
    cases h

/-- Every write keeps the four eyes: the reviewer comes with the decision, and stays. -/
theorem RowWrite.fourEyes {row row' : DiagnosisCaseModel} {events : List CaseReviewEventModel}
    {kind : AccessKind} (h : RowWrite row row' events kind) (hrow : FourEyes row) : FourEyes row' := by
  cases h with
  | draft changes h =>
      subst h
      exact ⟨hrow.reviewer, hrow.active⟩
  | submission case valid e hid hcomplete hstatus h he =>
      subst h
      refine ⟨nofun, fun hactive => ?_⟩
      have haccepted := hrow.active hactive
      rw [hstatus] at haccepted
      cases haccepted
  | review e hstatus hdecided hreviewer hsame hactive he =>
      refine ⟨fun _ => ?_, fun h => ?_⟩
      · rw [hsame.createdBy]
        exact hreviewer
      · have haccepted := hrow.active (hactive h)
        rw [hstatus] at haccepted
        cases haccepted
  | withdrawal e hstatus hwithdrawn hreviewer hsame hactive he =>
      refine ⟨fun _ => ?_, fun h => ?_⟩
      · rw [hreviewer, hsame.createdBy]
        exact hrow.reviewer (by rw [hstatus]; rfl)
      · rw [hactive] at h
        cases h
  | supersession hstatus h =>
      subst h
      exact ⟨fun _ => hrow.reviewer (by rw [hstatus]; rfl), nofun⟩
  | queued e h he =>
      subst h
      exact ⟨hrow.reviewer, nofun⟩
  | index hstatus hreviewer hsame hactive =>
      refine ⟨fun h => ?_, fun h => ?_⟩
      · rw [hreviewer, hsame.createdBy]
        exact hrow.reviewer (hstatus ▸ h)
      · rw [hstatus]
        exact (hactive h).2
  | event e h hid hkeeps =>
      subst h
      exact hrow

/-- A case is accepted because it was, or because it is approved now. -/
theorem statusStep_accepted_of {a b : CaseStatus} (h : statusStep a b = true)
    (hb : accepted b = true) : accepted a = true ∨ b = .approved := by
  revert h hb
  cases a <;> cases b <;> decide

/-- An accepted case has been approved at some time of the run. -/
theorem approved_past {settings : CaseSettings} {p₀ p : Threads Access (World γ) Empty Unit}
    {moves : List (Threads.Move (Label γ))} (hinit : (interleaved settings).init p₀)
    (hrun : (interleaved settings).run p₀ moves = some p) {k : String} (hk : WasApproved k p.store) :
    ∃ past future u, moves = past ++ future ∧ (interleaved settings).run p₀ past = some u ∧
      ∃ row, u.store.getCase k = some row ∧ row.reviewStatus = .approved := by
  refine TransitionSystem.exists_past (Q := fun p => WasApproved k p.store) ?_ ?_ hinit hrun hk
  · rintro q ⟨⟨hcases, -⟩, -⟩ ⟨row, hrow, -⟩
    simp [World.getCase, hcases, Table.get] at hrow
  · rintro q m q' hreach hstep ⟨row', hrow', haccepted⟩
    rcases writes_of_reachable hreach hstep with hsame | ⟨mark, -, hwrite⟩
    · rw [hsame] at hrow'
      exact Or.inl ⟨row', hrow', haccepted⟩
    · rcases hwrite.getCase_of hrow' with ⟨-, hnew⟩ | ⟨row, hrow, rfl | ⟨events, hwritten⟩⟩
      · rw [hnew.status] at haccepted
        cases haccepted
      · exact Or.inl ⟨_, hrow, haccepted⟩
      · rcases statusStep_accepted_of hwritten.moves.status haccepted with hbefore | hnow
        · exact Or.inl ⟨row, hrow, hbefore⟩
        · exact Or.inr ⟨row', hrow', hnow⟩

/-- **The life cycle and the four eyes**, in every run of requests and workers that interrupt each
other. -/
theorem lifecycle_and_four_eyes (settings : CaseSettings)
    (p₀ p : Threads Access (World γ) Empty Unit) (moves : List (Threads.Move (Label γ)))
    (hinit : (interleaved settings).init p₀)
    (hrun : (interleaved settings).run p₀ moves = some p) :
    (∀ m q, (interleaved settings).step p m = some q → ∀ k,
      (∀ row, p.store.getCase k = some row → ∃ row', q.store.getCase k = some row' ∧
        statusStep row.reviewStatus row'.reviewStatus = true ∧ row'.createdBy = row.createdBy) ∧
      ∀ row', p.store.getCase k = none → q.store.getCase k = some row' →
        row'.reviewStatus = .draft) ∧
    ∀ k row, p.store.getCase k = some row →
      (decided row.reviewStatus = true → ∃ r, row.reviewer = some r ∧ r ≠ row.createdBy) ∧
      (row.isActive = true → ∃ past future u, moves = past ++ future ∧
        (interleaved settings).run p₀ past = some u ∧
        ∃ row', u.store.getCase k = some row' ∧ row'.reviewStatus = .approved) := by
  have hreach : (interleaved settings).Reachable p := .of_run (.init hinit) hrun
  refine ⟨fun m q hstep k => ?_, fun k row hrow => ?_⟩
  · rcases writes_of_reachable hreach hstep with hsame | ⟨mark, -, hwrite⟩
    · rw [hsame]
      refine ⟨fun row hrow => ⟨row, hrow, statusStep_refl _, rfl⟩, fun row' hnone hrow' => ?_⟩
      rw [hnone] at hrow'
      cases hrow'
    · refine ⟨fun row hrow => ?_, fun row' hnone hrow' => ?_⟩
      · obtain ⟨row', hrow', hmoves⟩ := hwrite.moves hrow
        exact ⟨row', hrow', hmoves.status, hmoves.createdBy⟩
      · rcases hwrite.getCase_of hrow' with ⟨-, hnew⟩ | ⟨row, hrow, -⟩
        · exact hnew.status
        · rw [hnone] at hrow
          cases hrow
  · have heyes : FourEyes row := everyCase_of_reachable (P := FourEyes)
      (fun _ hnew => hnew.fourEyes)
      (fun _ _ _ _ _ _ _ _ _ _ hrow hwrite => hwrite.fourEyes hrow) hreach k row hrow
    refine ⟨heyes.reviewer, fun hactive => ?_⟩
    exact approved_past hinit hrun ⟨row, hrow, heyes.active hactive⟩

/-! ## Runs -/

/-- A request that runs to its end as thread `i`, in `n` steps. -/
def undisturbed {γ : Type} (i n : Nat) (label : Label γ) : List (Threads.Move (Label γ)) :=
  .start label :: List.replicate n (.step i)

/-- A draft is submitted; while the review waits for its transaction, another reviewer gets there
first. -/
def approvedMoves : List (Threads.Move (Label Unit)) :=
  undisturbed 0 2 (.api (engineer caseOne) (.createDraft (sampleDraft "session"))) ++
  undisturbed 1 2 (.api (engineer noId) (.submit "case-1")) ++
  undisturbed 2 1 (.api (reviewer jobOne true) (.review "case-1" approval)) ++
  undisturbed 3 4 (.api (reviewer jobTwo true) (.review "case-1" approval)) ++
  [.step 2]

theorem approved_by_another : ∃ p row r,
    (interleaved (sampleSettings .sync)).run ⟨World.empty (), []⟩ approvedMoves = some p ∧
      p.store.getCase "case-1" = some row ∧ row.reviewStatus = .approved ∧
      row.reviewer = some r ∧ r ≠ row.createdBy := by
  have hrun : ((interleaved (sampleSettings .sync)).run ⟨World.empty (), []⟩ approvedMoves).any
      (fun p => (p.store.getCase "case-1").any (·.reviewStatus = .approved)) = true := by
    decide +kernel
  obtain ⟨p, hp, hcase⟩ := (Option.any_eq_true _ _).mp hrun
  obtain ⟨row, hrow, happroved⟩ := (Option.any_eq_true _ _).mp hcase
  have heyes := (lifecycle_and_four_eyes (sampleSettings .sync) ⟨World.empty (), []⟩ p approvedMoves
    ⟨⟨rfl, rfl, rfl, rfl, rfl, rfl⟩, rfl⟩ hp).2 "case-1" row hrow
  have happroved := of_decide_eq_true happroved
  obtain ⟨r, hreviewer, hother⟩ := heyes.1 (by rw [happroved]; rfl)
  exact ⟨p, row, r, hp, hrow, happroved, hreviewer, hother⟩

end EnergyAgent.Cases
