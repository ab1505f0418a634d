import EnergyAgent.Cases.Acceptance

/-!
# Rows stay readable, and a refused request changes none

`DiagnosisCase` wants lists in the three JSON columns, `CasePatchRequest` allows `null` for them, and
the row is validated after the commit. So a patch or revision with an explicit `null` writes a row that
no operation can read again. A synchronous approval of a revision is the other way to be refused after
a commit: the approval is stored before the supersession of the original is refused.

Without these two, every stored row is readable in every reachable state, and a request that raises
leaves all stored rows as they were.
-/

namespace EnergyAgent.Cases

open EnergyAgent.Lib EnergyAgent.Persistence EnergyAgent.Indexing

variable {γ : Type}

/-- No obligation at all. -/
def owesNothing (_ : World γ) (_ : DiagnosisCaseModel) : Prop := False

theorem obligation_nothing : Obligation False (owesNothing (γ := γ)) where
  congr _ h := h
  rewrite _ _ _ _ h := h
  insert _ h := h
  quiet _ _ _ h := h.elim
  idle _ _ h := h
  settled _ _ h := h

/-! ## The condition -/

/-- The request puts no `null` into a JSON column, and if it is a synchronous approval of a revision
that gets indexed, then the supersession of the original is accepted. -/
def SettlesWhole (settings : CaseSettings) (w : World γ) (label : Label γ) : Prop :=
  ∀ call request, label = .api call request →
    (∀ patch, request.payload = some patch → patch.setsNull = false) ∧
    ∀ caseId payload, request = .review caseId payload → settings.indexExecutionMode = .sync →
      payload.decision = .approve → ∀ (case : DiagnosisCase) original,
      w.getCase caseId = some case.row → case.row.reviewStatus = .pendingReview →
      case.row.supersededId = some original → call.answers case = true →
      SupersessionAccepted w original

/-! ## Readable rows -/

theorem readable_api {settings : CaseSettings} {call : CaseCall} {request : CaseRequest} {w : World γ}
    (h : Safe True owesNothing w) (hok : SettlesWhole settings w (.api call request)) :
    Safe True owesNothing (request.run settings call w).2 := by
  have hI : CaseInvariant True False True (Safe (γ := γ) True owesNothing) :=
    caseInvariant_safe obligation_nothing (Or.inr fun _ _ _ _ hw => hw)
  refine hI.run (fun _ => trivial) h (fun _ => (hok call request rfl).1) ?_ ?_
  · rintro caseId payload rfl
    refine hI.reviewCase h (fun w₁ case approved _ _ _ _ hw₁ hrow₁ _ happroved => ?_)
    refine Prog.Triple.snd (hI.afterApproval (fun _ => trivial) fun _ _ row' text hw hrow hsame => ?_)
      ⟨hw₁, (getCase_caseId hrow₁).symm ▸ hrow₁⟩
    exact hw.activate obligation_nothing hrow (hsame.2.2.trans happroved) id
  · rintro caseId rfl
    refine hI.reindex (fun _ => trivial) h (fun hfalse => hfalse.elim)
      (fun _ case _ _ hop _ _ row' text hw _ hrow hsame => ?_)
    rcases reindexOperation_cases hop with ⟨_, happroved⟩ | ⟨hfalse, _⟩
    · exact hw.activate obligation_nothing hrow (hsame.2.2.trans happroved) id
    · cases hfalse

theorem readable_reachable {settings : CaseSettings} {w : World γ}
    (h : (lifecycle settings).ReachableVia (SettlesWhole settings) w) : Safe True owesNothing w := by
  refine h.invariant (I := Safe True owesNothing) (fun w h0 => Safe.init h0)
    (fun w label w' hw hok hstep => ?_)
  refine safe_step obligation_nothing hw hstep ?_ (fun hfalse => hfalse.elim)
  rintro call request rfl
  exact readable_api hw hok

/-! ## Refused requests -/

/-- Every stored row is as it was. -/
def Unchanged (w w' : World γ) : Prop := ∀ k row, w.getCase k = some row → w'.getCase k = some row

theorem Unchanged.refl (w : World γ) : Unchanged w w := fun _ _ h => h

theorem Unchanged.of_cases {w w' : World γ} (h : w'.cases = w.cases) : Unchanged w w' :=
  fun _ _ hrow => (World.getCase_congr h).trans hrow

/-- If the program raises, every row that was stored in `w₀` is as it was. -/
abbrev Refuses {α : Type} (w₀ : World γ) (P : World γ → Prop) (x : Service γ α) : Prop :=
  Prog.Triple P x (fun _ _ => True) (fun _ w => Unchanged w₀ w)

theorem refuses_of_accepted {α : Type} {w₀ : World γ} {P : World γ → Prop} {x : Service γ α}
    (h : Accepted P x) : Refuses w₀ P x :=
  .weaken h (fun _ h => h) (fun _ _ h => h) (fun _ _ h => h.elim)

section

variable {w₀ : World γ} (hread : AllReadable w₀)
include hread

/-- A transition that keeps rows readable raises before it commits, or not at all. -/
theorem triple_transition_refused {indexRepository : Bool} {t : CaseTransition} {jobId : String}
    (hkey : ∀ r, (t.rewrite r).caseId = r.caseId)
    (hrewrite : ∀ row, Readable row → Readable (t.rewrite row)) :
    Prog.Triple (fun w => w = w₀) (transition indexRepository t jobId)
      (fun result w => w.getCase t.caseId = some result.case.row) (fun _ w => w = w₀) := by
  rintro w rfl
  cases hresult : transition indexRepository t jobId w with
  | mk r w' =>
      cases r with
      | ok result => exact transition_stored hkey hresult
      | error e =>
          unfold transition at hresult
          rcases Prog.bind_cases hresult with ⟨e', htx, _⟩ | ⟨⟨row, replayed⟩, w₁, htx, hrest⟩
          · exact (Prog.transaction_eq_error htx).1
          · -- the row that was written is readable, so its validation cannot fail
            have hrow : Readable row := by
              rcases applyTransition_eq_ok (Prog.transaction_eq_ok htx) with
                ⟨_, _, hrow, _⟩ | ⟨_, model, hmodel, _, rfl, _⟩
              · exact hread _ _ hrow
              · exact hrewrite _ (hread _ _ hmodel)
            rw [Prog.bind_apply, Prog.lift_apply, caseRecord_of_readable hrow] at hrest
            cases hrest

theorem refuses_submit {settings : CaseSettings} {call : CaseCall} {caseId : String} :
    Refuses w₀ (fun w => w = w₀) (submit settings call caseId) := by
  unfold submit
  have hsame : ∀ w : World γ, w = w₀ → Unchanged w₀ w := fun w h => h ▸ Unchanged.refl _
  refine .bind (.weaken (triple_fetch caseId) (fun _ h => h) (fun _ _ h => h.1) (fun _ => hsame))
    (fun case => ?_)
  refine .keeps_bind .raiseIf (fun _ => hsame) (fun _ => .keeps_bind .raiseIf (fun _ => hsame) fun _ => ?_)
  exact .bind (.weaken (triple_transition_refused hread (fun _ => rfl) (fun _ h => h)) (fun _ h => h)
    (fun _ _ h => h) (fun _ => hsame)) (fun _ => .pure fun _ _ => trivial)

theorem refuses_disable {settings : CaseSettings} {call : CaseCall} {caseId : String}
    {payload : CaseDisableRequest} :
    Refuses w₀ (fun w => w = w₀) (disable settings call caseId payload) := by
  unfold disable
  have hsame : ∀ w : World γ, w = w₀ → Unchanged w₀ w := fun w h => h ▸ Unchanged.refl _
  refine .bind (.weaken (triple_fetch caseId) (fun _ h => h) (fun _ _ h => h.1) (fun _ => hsame))
    (fun current => ?_)
  refine .bind (.weaken (triple_transition_refused hread (fun _ => rfl) (fun _ h => h)) (fun _ h => h)
    (fun _ _ h => h) (fun _ => hsame)) (fun result => ?_)
  cases settings.indexExecutionMode with
  | rabbitmq => exact .pure (fun _ _ => trivial)
  | sync =>
      refine .weaken (refuses_of_accepted accepted_tombstone) (fun w h => ?_) (fun _ _ h => h)
        (fun _ _ h => h)
      exact ⟨result.case.row, (getCase_caseId h).symm ▸ h, result.case.readable⟩

theorem refuses_patch {call : CaseCall} {caseId : String} {payload : CasePatchRequest}
    (hnull : payload.setsNull = false) : Refuses w₀ (fun w => w = w₀) (patch call caseId payload) := by
  unfold patch updateDraft
  refine .bind (Q := fun row _ => Readable row) (.transaction ?_ ?_) (fun row => .lift ?_ ?_)
  · rintro w row w' rfl h
    obtain ⟨model, rootCause, hmodel, _, rfl, _⟩ := writeDraft_eq_ok h
    exact readable_rewrite hnull rootCause (hread _ _ hmodel)
  · rintro w e rfl _
    exact Unchanged.refl _
  · exact fun _ _ _ _ => trivial
  · intro e he w hrow
    rw [caseRecord_of_readable hrow] at he
    cases he

end

/-- A new row leaves the others alone, and is readable if it is returned. -/
theorem triple_create {w₀ : World γ} {values : Option DiagnosisCaseModel} :
    Prog.Triple (fun w => AllReadable w ∧ Unchanged w₀ w) (create values)
      (fun _ w => AllReadable w ∧ Unchanged w₀ w) (fun _ w => Unchanged w₀ w) := by
  unfold create
  refine .bind (Q := fun row w => Unchanged w₀ w ∧ (Readable row → AllReadable w))
    (.transaction ?_ (fun _ _ h _ => h.2)) (fun row => .lift ?_ (fun _ _ _ h => h.1))
  · intro w row w' ⟨hall, hsame⟩ h
    obtain ⟨_, _, rfl⟩ := insertCase_eq_ok h
    refine ⟨fun k row' hrow' => Table.get_append_of_some (hsame k row' hrow'), ?_⟩
    intro hread k row' hrow'
    rcases Table.get_append_eq_some hrow' with hold | ⟨_, _, rfl⟩
    · exact hall k row' hold
    · exact hread
  · intro case hcase w h
    exact ⟨h.2 (caseRecord_eq_ok hcase).2, h.1⟩

theorem keeps_appendEvent {w₀ : World γ} {event : CaseReviewEventModel} :
    Prog.Keeps (fun w => AllReadable w ∧ Unchanged w₀ w) (appendEvent event) := by
  refine .transaction (fun w _ w' hw h => ?_)
  obtain ⟨w₁, hadd, hpair⟩ := Prog.except_map_eq_ok h
  cases hpair
  rw [addEvent_eq_ok hadd]
  exact ⟨hw.1.congr rfl, fun k row hrow => hw.2 k row hrow⟩

section

variable {w₀ : World γ} (hread : AllReadable w₀)
include hread

theorem refuses_createDraft {call : CaseCall} {draft : DraftValues} :
    Refuses w₀ (fun w => w = w₀) (createDraft call draft) := by
  unfold createDraft
  refine .keeps_bind (.read _) (fun _ _ h => h ▸ Unchanged.refl _) (fun _ => ?_)
  exact .weaken triple_create (fun w h => ⟨h ▸ hread, h ▸ Unchanged.refl _⟩) (fun _ _ _ => trivial)
    (fun _ _ h => h)

theorem refuses_revision {settings : CaseSettings} {call : CaseCall} {caseId : String}
    {payload : CaseRevisionRequest} :
    Refuses w₀ (fun w => w = w₀) (revision settings call caseId payload) := by
  have hsame : ∀ w : World γ, w = w₀ → Unchanged w₀ w := fun w h => h ▸ Unchanged.refl _
  unfold revision
  refine .bind (.weaken (triple_fetch caseId) (fun _ h => h) (fun _ _ h => h.1) (fun _ => hsame))
    (fun original => ?_)
  refine .keeps_bind keeps_revisionReplay (fun _ => hsame) (fun replay => ?_)
  cases replay with
  | some existing => exact .pure (fun _ _ => trivial)
  | none =>
      refine .keeps_bind .raiseIf (fun _ => hsame) (fun _ => ?_)
      refine .keeps_bind (.read _) (fun _ => hsame) (fun version => ?_)
      refine .bind (.weaken triple_create (fun w h => ⟨h ▸ hread, hsame w h⟩) (fun _ _ h => h)
        (fun _ _ h => h)) (fun created => ?_)
      refine .keeps_bind keeps_appendEvent (fun _ _ h => h.2) (fun _ => ?_)
      split
      · -- the new case is submitted from here: what is refused now leaves these rows alone
        rintro w ⟨hall, hunchanged⟩
        refine Prog.Triple.weaken (refuses_submit hall) (fun _ h => h) (fun _ _ h => h)
          (fun _ w' h => ?_) w rfl
        exact fun k row hrow => h k row (hunchanged k row hrow)
      · exact .pure (fun _ _ => trivial)

theorem refuses_queueIndex {indexRepository : Bool} {caseId : String} {request : IndexJobCreate}
    {event : CaseStatus → CaseReviewEventModel} {jobId : String} :
    Refuses w₀ (fun w => w = w₀) (queueIndex indexRepository caseId request event jobId) := by
  refine .keeps_bind .raiseIf (fun _ _ h => h ▸ Unchanged.refl _) (fun _ => ?_)
  refine .bind (Q := fun row _ => Readable row) (.transaction ?_ ?_)
    (fun row => .lift (fun _ _ _ _ => trivial) ?_)
  · rintro w row w' rfl h
    obtain ⟨model, _, hmodel, rfl, _⟩ := applyQueueIndex_eq_ok h
    exact show Readable model from hread _ _ hmodel
  · rintro w e rfl _
    exact Unchanged.refl _
  · intro e he w hrow
    rw [caseRecord_of_readable hrow] at he
    cases he

theorem refuses_runReindex {settings : CaseSettings} {call : CaseCall} {caseId : String}
    {case : DiagnosisCase} (hrow : w₀.getCase caseId = some case.row) :
    Refuses w₀ (fun w => w = w₀) (runReindex settings call caseId case) := by
  unfold runReindex
  cases reindexOperation case.row with
  | none => exact .raise (fun _ h => h ▸ Unchanged.refl _)
  | some operation =>
      simp only
      cases settings.indexExecutionMode with
      | rabbitmq => exact refuses_queueIndex hread
      | sync =>
          -- the event is stored first, and what follows does not raise
          have hevent : Prog.Triple (fun w => w = w₀) (appendEvent
              (reindexEvent call caseId "case.reindex_started" case.row.reviewStatus))
              (fun _ w => Stored case.row.caseId w) (fun _ w => Unchanged w₀ w) := by
            refine .transaction ?_ (fun _ _ h _ => h ▸ Unchanged.refl _)
            rintro w u w' rfl h
            obtain ⟨w₁, hadd, hpair⟩ := Prog.except_map_eq_ok h
            cases hpair
            rw [addEvent_eq_ok hadd]
            exact ⟨case.row, (getCase_caseId hrow).symm ▸ hrow, case.readable⟩
          refine .bind hevent (fun _ => ?_)
          split
          · exact refuses_of_accepted accepted_tombstone
          · exact refuses_of_accepted accepted_index

theorem refuses_reindex {settings : CaseSettings} {call : CaseCall} {caseId : String} :
    Refuses w₀ (fun w => w = w₀) (reindex settings call caseId) := by
  rintro w rfl
  cases hrun : reindex settings call caseId w with
  | mk r w' =>
      cases r with
      | ok case => trivial
      | error e =>
          rcases reindex_cases hrun with rfl | ⟨case, hrow, _, hrest⟩
          · exact Unchanged.refl _
          · exact (refuses_runReindex hread hrow).error rfl hrest

end

/-! ## Refused reviews -/

/-- The end of a synchronous approval does not raise, if the supersession it may lead to is accepted. -/
theorem accepted_afterApproval {settings : CaseSettings} {call : CaseCall} {approved : DiagnosisCase}
    (hmode : settings.indexExecutionMode = .sync)
    (happroved : approved.row.reviewStatus = .approved)
    (hother : ∀ original, approved.row.supersededId = some original →
      original ≠ approved.row.caseId) :
    Accepted (fun w => (Safe True owesNothing w ∧
        w.getCase approved.row.caseId = some approved.row) ∧
        ∀ original, approved.row.supersededId = some original → call.answers approved = true →
          SupersessionAccepted w original)
      (afterApproval settings call approved : Service γ DiagnosisCase) := by
  have hI : CaseInvariant True False True (Safe (γ := γ) True owesNothing) :=
    caseInvariant_safe obligation_nothing (Or.inr fun _ _ _ _ hw => hw)
  have hindex := hI.index trivial call approved (P := fun _ => True) (fun _ h => h)
    fun _ _ row' text hw _ hrow hsame =>
      hw.activate obligation_nothing hrow (hsame.2.2.trans happroved) id
  -- the index run writes one row only, which is not the original's
  have hkeep : Prog.Keeps (fun w : World γ => ∀ original, approved.row.supersededId = some original →
      call.answers approved = true → SupersessionAccepted w original) (index call approved) := by
    refine keeps_index (fun hcore h original hsome ha => (h original hsome ha).core hcore) ?_
    intro status errorCode embeddingText active w h original hsome ha
    rw [updateCase_eq_rewriteCase]
    exact (h original hsome ha).rewrite (hother original hsome) (setIndexRow_caseId _ _ _ _)
      (Or.inl rfl)
  unfold afterApproval indexApproved
  rw [hmode]
  refine .bind (.weaken (.and (.and hindex hkeep) accepted_index) (fun w h => ?_) (fun _ _ h => h)
    (fun _ _ h => h.2)) (fun updated => ?_)
  · exact ⟨⟨⟨⟨h.1.1, trivial⟩, _, h.1.2, rfl, rfl, rfl⟩, h.2⟩, _, h.1.2, approved.readable⟩
  · unfold supersedeReplaced
    split
    · next original hindexed hsome =>
        refine .bind (.weaken (accepted_supersede hmode) (fun w h => ?_) (fun _ _ h => h)
          (fun _ _ h => h)) (fun _ => .pure fun _ h => h)
        obtain ⟨⟨⟨hw, _, hsame, hstatus⟩, haccepted⟩, _⟩ := h
        have hid : approved.row.supersededId = some original := by
          rw [← hsome, DiagnosisCaseModel.supersededId, DiagnosisCaseModel.supersededId, hsame.2.1]
        have hanswers : call.answers approved = true := by
          rcases hstatus with ⟨ha, _⟩ | ⟨hfailed, _⟩
          · exact ha
          · rw [hindexed] at hfailed
            cases hfailed
        obtain ⟨orow, horow, hmatch⟩ := haccepted original hid hanswers
        exact ⟨⟨orow, horow, hw.readable trivial _ _ horow⟩, orow, horow, hmatch⟩
    · exact .pure (fun _ _ => trivial)

theorem refuses_review {settings : CaseSettings} {call : CaseCall} {caseId : String}
    {payload : CaseReviewRequest} {w₀ : World γ} (h : Safe True owesNothing w₀)
    (hok : SettlesWhole settings w₀ (.api call (.review caseId payload))) :
    Refuses w₀ (fun w => w = w₀) (reviewCase settings call caseId payload) := by
  rintro w rfl
  have hread := h.readable trivial
  have hI : CaseInvariant True False True (Safe (γ := γ) True owesNothing) :=
    caseInvariant_safe obligation_nothing (Or.inr fun _ _ _ _ hw => hw)
  cases hrun : reviewCase settings call caseId payload w with
  | mk r w' =>
      cases r with
      | ok case => trivial
      | error e =>
          rcases reviewCase_cases hrun with
            rfl | ⟨case, hrow, ⟨e', _, herror⟩ | ⟨result, w₁, hresult, hend⟩⟩
          · exact Unchanged.refl _
          · have hsame := (triple_transition_refused hread
              (t := reviewTransition settings call case caseId payload) (fun r => reviewedRow_caseId settings call payload _)
              (fun row hrow => readable_reviewedRow settings call payload hrow)).error rfl herror
            rw [hsame]
            exact Unchanged.refl _
          · exfalso
            rcases hend with ⟨_, _, hok⟩ | ⟨hfresh, happrove, hafter⟩
            · cases hok
            · obtain ⟨approved, replayed⟩ := result
              cases hfresh
              have hkept := hI.reviewTransition settings call payload h hrow
              rw [hresult] at hkept
              obtain ⟨hw₁, hrow₁, hnew⟩ := hkept
              obtain ⟨hpending, hrewrite⟩ := hnew rfl
              have hstatus := reviewed_approved happrove hrewrite
              cases hmode : settings.indexExecutionMode with
              | rabbitmq =>
                  rw [afterApproval_of_queued hmode (hstatus.2 hmode)] at hafter
                  cases hafter
              | sync =>
                  obtain ⟨happroved, f, event, hkey, hevent, rfl⟩ :=
                    sync_approval hmode happrove hrow hresult
                  have hid : approved.row.supersededId = case.row.supersededId := by
                    rw [happroved]
                    rfl
                  have hother : ∀ original, approved.row.supersededId = some original →
                      original ≠ caseId := fun original hsome =>
                    h.base.original_ne hrow hpending (hid ▸ hsome)
                  have hcaseId : approved.row.caseId = caseId := getCase_caseId hrow₁
                  refine (accepted_afterApproval hmode hstatus.1 (hcaseId.symm ▸ hother)).error
                    ⟨⟨hw₁, hcaseId.symm ▸ hrow₁⟩, fun original hsome hanswers => ?_⟩ hafter
                  have haccepted := (hok call _ rfl).2 caseId payload rfl hmode happrove case original
                    hrow hpending (hid ▸ hsome) (answers_congr happroved ▸ hanswers)
                  exact haccepted.rewrite (hother original hsome) hkey (Or.inr ⟨event, rfl, hevent⟩)

/-- **Stored cases stay readable, and a refused request changes no row**, as long as no payload puts
`null` into a JSON column and no synchronous approval has its supersession refused. -/
theorem reachable_readable_and_refusals_keep_rows {settings : CaseSettings} {w : World γ}
    (h : (lifecycle settings).ReachableVia (SettlesWhole settings) w) :
    (∀ k row, w.getCase k = some row → ∃ case, caseRecord row = .ok case ∧ case.row = row) ∧
    ∀ call (request : CaseRequest) e w', SettlesWhole settings w (.api call request) →
      request.run settings call w = (.error e, w') →
      ∀ k row, w.getCase k = some row → w'.getCase k = some row := by
  have hsafe := readable_reachable h
  have hread := hsafe.readable trivial
  refine ⟨fun k row hrow => ⟨_, caseRecord_of_readable (hread k row hrow), rfl⟩, ?_⟩
  intro call request e w' hok hrun
  have hrefuses : Refuses w (fun s => s = w) (request.run settings call) := by
    cases request with
    | createDraft draft => exact refuses_createDraft hread
    | patch caseId payload => exact refuses_patch hread ((hok call _ rfl).1 payload rfl)
    | submit caseId => exact refuses_submit hread
    | review caseId payload => exact refuses_review hsafe hok
    | disable caseId payload => exact refuses_disable hread
    | revision caseId payload => exact refuses_revision hread
    | reindex caseId => exact refuses_reindex hread
  exact hrefuses.error rfl hrun

/-! ## A patch that is refused after its commit -/

/-- `{"resolution_steps": null}`. -/
def nullPatch : CasePatchRequest := { emptyPatch with resolutionSteps := some none }

/-- A draft. -/
def draftRun : List (Label Unit) :=
  [.api (engineer caseOne) (.createDraft (sampleDraft "session"))]

/-- After the patch the row of the draft cannot be read, although the patch itself was refused. -/
theorem null_patch_breaks_row :
    ¬ ∀ w : World Unit, (lifecycle (sampleSettings .rabbitmq)).Reachable w →
      (∀ k row, w.getCase k = some row → ∃ case, caseRecord row = .ok case ∧ case.row = row) ∧
      ∀ call (request : CaseRequest) e w', request.run (sampleSettings .rabbitmq) call w = (.error e, w') →
        ∀ k row, w.getCase k = some row → w'.getCase k = some row := by
  intro hclaim
  have hrun : ((lifecycle (sampleSettings .rabbitmq)).run (World.empty ()) (draftRun ++
      [.api (engineer ⟨"none", by decide⟩) (.patch "case-1" nullPatch)])).any
      (fun w => (w.getCase "case-1").any (fun row => ¬ Readable row)) = true := by decide +kernel
  obtain ⟨w, hw, hrow⟩ := (Option.any_eq_true _ _).mp hrun
  obtain ⟨row, hrow, hunreadable⟩ := (Option.any_eq_true _ _).mp hrow
  have hreach : (lifecycle (sampleSettings .rabbitmq)).Reachable w :=
    TransitionSystem.Reachable.of_run (.init ⟨rfl, rfl, rfl, rfl, rfl, rfl⟩) hw
  obtain ⟨case, hcase, _⟩ := (hclaim w hreach).1 "case-1" row hrow
  exact absurd (caseRecord_eq_ok hcase).2 (by simpa using hunreadable)

/-- The draft itself is readable, and a patch of it by someone else is refused and changes nothing. -/
theorem refused_patch_keeps_draft :
    ∃ (w : World Unit) (row : DiagnosisCaseModel) (e : CaseError) (w' : World Unit),
      (lifecycle (sampleSettings .sync)).run (World.empty ()) draftRun = some w ∧
      w.getCase "case-1" = some row ∧ (∃ case, caseRecord row = .ok case ∧ case.row = row) ∧
      (CaseRequest.patch "case-1" emptyPatch).run (sampleSettings .sync)
        (sampleCall "visitor" .operator ⟨"none", by decide⟩ true) w = (.error e, w') ∧
      w'.getCase "case-1" = some row := by
  have hquiet : ∀ (call : CaseCall) (request : CaseRequest) (s : World Unit),
      (request.payload = none ∨ request.payload = some emptyPatch) →
      (∀ caseId payload, request ≠ .review caseId payload) →
      SettlesWhole (sampleSettings .sync) s (.api call request) := by
    rintro call request s hpayload hreview _ _ ⟨rfl, rfl⟩
    refine ⟨fun patch hpatch => ?_, fun caseId payload hfalse => absurd hfalse (hreview _ _)⟩
    rcases hpayload with hnone | hempty
    · rw [hnone] at hpatch
      cases hpatch
    · rw [hempty] at hpatch
      cases hpatch
      rfl
  have hreach : (lifecycle (sampleSettings .sync)).ReachableVia (SettlesWhole (sampleSettings .sync))
      (((CaseRequest.createDraft (sampleDraft "session")).run (sampleSettings .sync)
        (engineer ⟨"case-1", by decide⟩) (World.empty ())).2) :=
    .step (.init ⟨rfl, rfl, rfl, rfl, rfl, rfl⟩) (hquiet (engineer ⟨"case-1", by decide⟩)
      (.createDraft (sampleDraft "session")) (World.empty ()) (Or.inl rfl) nofun) rfl
  obtain ⟨hread, hkept⟩ := reachable_readable_and_refusals_keep_rows hreach
  exact ⟨_, _, .caseNotEditable, _, rfl, rfl, hread "case-1" _ rfl, rfl,
    hkept (sampleCall "visitor" .operator ⟨"none", by decide⟩ true) (.patch "case-1" emptyPatch)
      .caseNotEditable _ (hquiet _ _ _ (Or.inr rfl) nofun) rfl "case-1" _ rfl⟩

end EnergyAgent.Cases
