import EnergyAgent.Cases.Lifecycle

/-!
# Requests that do not fail half way

A transaction of the case repository commits before its row is validated, and a synchronous approval
runs an index pass and a supersession after its own transaction. This module says when the parts after
a commit cannot raise: rows that are readable stay so, and a supersession is accepted if the original
is approved, or was superseded before.
-/

namespace EnergyAgent.Cases

open EnergyAgent.Lib EnergyAgent.Persistence EnergyAgent.Indexing

variable {γ : Type}

/-- From a state with `P` the program returns. -/
abbrev Accepted {α : Type} (P : World γ → Prop) (x : Service γ α) : Prop :=
  Prog.Triple P x (fun _ _ => True) (fun _ _ => False)

/-- The case is stored and can be read. -/
def Stored (k : String) (w : World γ) : Prop := ∃ row, w.getCase k = some row ∧ Readable row

theorem Stored.core {k : String} {w w' : World γ} (h : Stored k w) (hcore : SameCore w w') :
    Stored k w' := by
  obtain ⟨row, hrow, hread⟩ := h
  exact ⟨row, (hcore.getCase k).trans hrow, hread⟩

/-! ## Index runs -/

theorem accepted_setIndex {k : String} {status : CaseIndexStatus}
    {errorCode embeddingText : Option String} {active : Bool} :
    Accepted (Stored k) (setIndex k status errorCode embeddingText active : Service γ DiagnosisCase) := by
  rintro w ⟨row, hrow, hread⟩
  have hread' : Readable (setIndexRow status errorCode embeddingText active row) := hread
  have htx : applySetIndex k status errorCode embeddingText active w =
      .ok (setIndexRow status errorCode embeddingText active row,
        w.updateCase k (setIndexRow status errorCode embeddingText active)) := by
    unfold applySetIndex
    rw [hrow]
  unfold setIndex
  rw [Prog.bind_apply]
  simp only [Prog.transaction, htx, Prog.lift_apply, caseRecord_of_readable hread']

theorem accepted_tombstone {call : CaseCall} {case : DiagnosisCase} :
    Accepted (Stored case.row.caseId) (tombstone call case : Service γ DiagnosisCase) := by
  unfold tombstone
  refine .handle (E := fun _ => Stored case.row.caseId) ?_ (fun _ => accepted_setIndex)
  refine .keeps_bind ?_ (fun _ _ h => h) (fun _ => ?_)
  · unfold deleteCaseVector
    cases call.milvus with
    | none => exact .pure _
    | some milvus => exact keeps_vectorCall (fun _ h => h.core (.dropCaseVector _)) _
  · exact .weaken accepted_setIndex (fun _ h => h) (fun _ _ h => h) (fun _ _ h => h.elim)

theorem accepted_index {call : CaseCall} {case : DiagnosisCase} :
    Accepted (Stored case.row.caseId) (index call case : Service γ DiagnosisCase) := by
  unfold index
  refine .handle (E := fun _ => Stored case.row.caseId) ?_ (fun _ => accepted_setIndex)
  refine .keeps_bind (.lift _) (fun _ _ h => h) (fun embedded => ?_)
  refine .keeps_bind (keeps_vectorCall (fun _ h => h.core (.upsertCollection _ _)) _) (fun _ _ h => h)
    (fun _ => ?_)
  exact .weaken accepted_setIndex (fun _ h => h) (fun _ _ h => h) (fun _ _ h => h.elim)

/-- What `set_index` keeps. -/
theorem keeps_setIndex {J : World γ → Prop} {k : String} {status : CaseIndexStatus}
    {errorCode embeddingText : Option String} {active : Bool}
    (hset : ∀ w, J w → J (w.updateCase k (setIndexRow status errorCode embeddingText active))) :
    Prog.Keeps J (setIndex k status errorCode embeddingText active : Service γ DiagnosisCase) := by
  refine .bind (.transaction fun w row w' hw h => ?_) (fun _ => .lift _)
  obtain ⟨_, _, _, rfl⟩ := applySetIndex_eq_ok h
  exact hset w hw

/-- What `_index` keeps. -/
theorem keeps_index {J : World γ → Prop} {call : CaseCall} {case : DiagnosisCase}
    (hcore : ∀ {w w'}, SameCore w w' → J w → J w')
    (hset : ∀ status errorCode embeddingText active w, J w →
      J (w.updateCase case.row.caseId (setIndexRow status errorCode embeddingText active))) :
    Prog.Keeps J (index call case : Service γ DiagnosisCase) := by
  unfold index
  refine .handle ?_ (fun _ => keeps_setIndex (hset _ _ _ _))
  refine .bind (.lift _) (fun _ => .bind (keeps_vectorCall (fun _ h => ?_) _)
    (fun _ => keeps_setIndex (hset _ _ _ _)))
  exact hcore (.upsertCollection _ _) h

/-! ## Supersession -/

/-- `_supersede` is accepted: the original was superseded before, or it is approved and no other
request has used the key. -/
def SupersessionAccepted (w : World γ) (original : String) : Prop :=
  ∃ row, w.getCase original = some row ∧
    match replayOf w original (some (supersedeKey original)) with
    | some event => event.requestHash = .supersede original
    | none => row.reviewStatus = .approved

theorem truthy_supersedeKey (caseId : String) :
    Text.truthy (some (supersedeKey caseId)) = some (supersedeKey caseId) := by
  have hne : supersedeKey caseId ≠ "" := by
    simp [supersedeKey, String.append_eq_empty_iff]
  simp [Text.truthy, hne]

/-- What a transition that returns has done: nothing, or the write of its row, its event and its job. -/
theorem transition_eq_ok {indexRepository : Bool} {t : CaseTransition} {jobId : String}
    {w w' : World γ} {result : CaseTransitionResult}
    (h : transition indexRepository t jobId w = (.ok result, w')) :
    (result.replayed = true ∧ w' = w ∧ w.getCase t.caseId = some result.case.row) ∨
    (result.replayed = false ∧ ∃ row, w.getCase t.caseId = some row ∧ row.reviewStatus = t.expected ∧
      result.case.row = t.rewrite row ∧
      addIndexJob indexRepository t.indexRequest jobId
        (rewriteCase t.caseId t.rewrite [t.event row.reviewStatus] w) = .ok w') := by
  unfold transition at h
  obtain ⟨⟨row, replayed⟩, w₁, htx, h₁⟩ := Prog.bind_eq_ok h
  obtain ⟨case, hrecord, h₂⟩ := Prog.bind_lift_eq_ok h₁
  cases h₂
  obtain ⟨hcase, _⟩ := caseRecord_eq_ok hrecord
  rcases applyTransition_eq_ok (Prog.transaction_eq_ok htx) with
    ⟨hreplayed, rfl, hrow, _⟩ | ⟨hreplayed, model, hmodel, hexpected, hnew, _, hjob⟩
  · exact Or.inl ⟨hreplayed, rfl, by rw [hcase]; exact hrow⟩
  · exact Or.inr ⟨hreplayed, model, hmodel, hexpected, hcase.trans hnew, hjob⟩

theorem transition_stored {indexRepository : Bool} {t : CaseTransition} {jobId : String}
    {w w' : World γ} {result : CaseTransitionResult} (hkey : ∀ r, (t.rewrite r).caseId = r.caseId)
    (h : transition indexRepository t jobId w = (.ok result, w')) :
    w'.getCase t.caseId = some result.case.row := by
  rcases transition_eq_ok h with ⟨_, rfl, hrow⟩ | ⟨_, row, hrow, _, hnew, hjob⟩
  · exact hrow
  · rw [hnew]
    have hself : (rewriteCase t.caseId t.rewrite [t.event row.reviewStatus] w).getCase t.caseId =
        some (t.rewrite row) := getCase_rewriteCase_self hkey hrow
    rcases addIndexJob_eq_ok hjob with ⟨_, rfl⟩ | ⟨_, _, _, hadd⟩
    · exact hself
    · rw [World.getCase_congr (addJob_caseTable hadd)]
      exact hself

theorem fetch_of_stored {k : String} {w : World γ} {row : DiagnosisCaseModel}
    (hrow : w.getCase k = some row) (hread : Readable row) : fetch k w = (.ok ⟨row, hread⟩, w) := by
  unfold fetch get
  rw [Prog.bind_apply, Prog.bind_read, hrow]
  simp only [Prog.bind_apply, Prog.lift_apply, caseRecord_of_readable hread, Prog.pure_apply]

/-- A transition without an index job, on a case whose row stays readable, is committed and returned
if it is a replay of itself or finds the expected status. -/
theorem transition_accepted (indexRepository : Bool) {t : CaseTransition} (jobId : String)
    {row : DiagnosisCaseModel} {w : World γ} (hrow : w.getCase t.caseId = some row)
    (hread : Readable row) (hread' : Readable (t.rewrite row)) (hrequest : t.indexRequest = none)
    (hkey : t.idempotencyKey.isSome → Text.truthy t.idempotencyKey = t.idempotencyKey)
    (haccepts : match replayOf w t.caseId t.idempotencyKey with
      | some event => event.requestHash = t.requestHash
      | none => row.reviewStatus = t.expected) :
    ∃ result w', transition indexRepository t jobId w = (.ok result, w') := by
  have htx : ∃ r b w', applyTransition indexRepository t jobId w = .ok ((r, b), w') ∧ Readable r := by
    unfold applyTransition
    rw [hrow]
    cases hreplay : replayOf w t.caseId t.idempotencyKey with
    | some event =>
        rw [hreplay] at haccepts
        simp only [haccepts, ne_eq, not_true_eq_false, if_false]
        exact ⟨row, true, w, rfl, hread⟩
    | none =>
        rw [hreplay] at haccepts
        have hfree : (t.idempotencyKey.bind
            (idempotentEvent (w.updateCase t.caseId t.rewrite) t.caseId)).isSome = false := by
          cases hsome : t.idempotencyKey with
          | none => rfl
          | some key =>
              rw [replayOf, hkey (by rw [hsome]; rfl), hsome] at hreplay
              rw [Option.bind_some] at hreplay ⊢
              exact Option.isSome_eq_false_iff.mpr (Option.isNone_iff_eq_none.mpr hreplay)
        have hevent : addEvent (t.event row.reviewStatus) (w.updateCase t.caseId t.rewrite) =
            .ok (rewriteCase t.caseId t.rewrite [t.event row.reviewStatus] w) := by
          unfold addEvent
          rw [if_neg (by rw [Bool.not_eq_true]; exact hfree)]
          rfl
        refine ⟨t.rewrite row, false, rewriteCase t.caseId t.rewrite [t.event row.reviewStatus] w, ?_,
          hread'⟩
        simp only [haccepts, ne_eq, not_true_eq_false, if_false]
        rw [← haccepts, hevent, hrequest]
        rfl
  obtain ⟨r, b, w', htx, hr⟩ := htx
  refine ⟨⟨⟨r, hr⟩, b⟩, w', ?_⟩
  unfold transition
  rw [Prog.bind_apply]
  simp only [Prog.transaction, htx, Prog.bind_apply, Prog.lift_apply, caseRecord_of_readable hr,
    Prog.pure_apply]

/-- `_supersede` in sync mode. -/
theorem accepted_supersede {settings : CaseSettings} {call : CaseCall} {original : String}
    (hmode : settings.indexExecutionMode = .sync) :
    Accepted (fun w => Stored original w ∧ SupersessionAccepted w original)
      (supersede settings call original : Service γ Unit) := by
  rintro w ⟨⟨row, hrow, hread⟩, row', hrow', haccepts⟩
  obtain rfl : row = row' := Option.some.inj (hrow.symm.trans hrow')
  unfold supersede
  rw [Prog.bind_of_ok (fetch_of_stored hrow hread)]
  obtain ⟨result, w', hresult⟩ := transition_accepted settings.indexRepository
    (t := withdrawal settings call ⟨row, hread⟩ original .superseded "case.superseded"
      (.supersede original) (some (supersedeKey original)) none) call.newJobId.val
    hrow hread hread (by simp [withdrawal, hmode]) (fun _ => truthy_supersedeKey original) haccepts
  have hstored : w'.getCase original = some result.case.row :=
    transition_stored (fun _ => rfl) hresult
  rw [Prog.bind_of_ok hresult]
  simp only [hmode]
  refine Prog.Triple.bind accepted_tombstone (fun _ => .pure fun _ h => h) w' ?_
  exact ⟨result.case.row, (getCase_caseId hstored).symm ▸ hstored, result.case.readable⟩

/-! ## What a supersession of another case sees -/

theorem idempotentEvent_append_ne {w : World γ} {cases : List DiagnosisCaseModel}
    {event : CaseReviewEventModel} {caseId key : String} (h : event.caseId ≠ caseId) :
    idempotentEvent { w with cases := cases, caseEvents := w.caseEvents ++ [event] } caseId key =
      idempotentEvent w caseId key := by
  unfold idempotentEvent
  rw [List.find?_append, List.find?_singleton]
  simp [h]

/-- A write to another case leaves the supersession accepted. -/
theorem SupersessionAccepted.rewrite {w : World γ} {original k : String}
    (h : SupersessionAccepted w original) (hk : original ≠ k)
    {f : DiagnosisCaseModel → DiagnosisCaseModel} (hkey : ∀ r, (f r).caseId = r.caseId)
    {events : List CaseReviewEventModel} (hevents : events = [] ∨ ∃ e, events = [e] ∧ e.caseId = k) :
    SupersessionAccepted (rewriteCase k f events w) original := by
  obtain ⟨row, hrow, hmatch⟩ := h
  refine ⟨row, (getCase_rewriteCase_ne hkey hk).trans hrow, ?_⟩
  have hsame : replayOf (rewriteCase k f events w) original (some (supersedeKey original)) =
      replayOf w original (some (supersedeKey original)) := by
    rw [replayOf, replayOf, truthy_supersedeKey, Option.bind_some, Option.bind_some]
    rcases hevents with rfl | ⟨e, rfl, he⟩
    · unfold idempotentEvent rewriteCase
      rw [List.append_nil]
    · exact idempotentEvent_append_ne (by rw [he]; exact hk.symm)
  rw [hsame]
  exact hmatch

theorem SupersessionAccepted.core {w w' : World γ} {original : String}
    (h : SupersessionAccepted w original) (hcore : SameCore w w') :
    SupersessionAccepted w' original := by
  obtain ⟨row, hrow, hmatch⟩ := h
  refine ⟨row, (hcore.getCase _).trans hrow, ?_⟩
  unfold replayOf idempotentEvent at hmatch ⊢
  rw [hcore.caseEvents]
  exact hmatch

/-! ## Synchronous approvals -/

theorem answers_congr {call : CaseCall} {case case' : DiagnosisCase} {status : CaseStatus}
    {reviewer reviewComment : Option String}
    (h : case'.row = { case.row with
      reviewStatus := status, reviewer := reviewer, reviewComment := reviewComment }) :
    call.answers case' = call.answers case := by
  obtain ⟨row', hread'⟩ := case'
  cases h
  rfl

/-- The transition of a fresh synchronous approval: one row and one event, both of the case. -/
theorem sync_approval {settings : CaseSettings} {call : CaseCall} {caseId : String}
    {payload : CaseReviewRequest} {case approved : DiagnosisCase} {w w₁ : World γ}
    (hmode : settings.indexExecutionMode = .sync) (happrove : payload.decision = .approve)
    (hrow : w.getCase caseId = some case.row)
    (hresult : transition settings.indexRepository
      (reviewTransition settings call case caseId payload) call.newJobId.val w =
        (.ok ⟨approved, false⟩, w₁)) :
    (approved.row = { case.row with
      reviewStatus := .approved
      reviewer := some call.actor.actorId
      reviewComment := payload.comment }) ∧
    ∃ f event, (∀ r : DiagnosisCaseModel, (f r).caseId = r.caseId) ∧ event.caseId = caseId ∧
      w₁ = rewriteCase caseId f [event] w := by
  rcases transition_eq_ok hresult with ⟨hfalse, _⟩ | ⟨_, row, hrow', _, hnew, hjob⟩
  · cases hfalse
  · obtain rfl : case.row = row := Option.some.inj (hrow.symm.trans hrow')
    refine ⟨?_, (reviewTransition settings call case caseId payload).rewrite,
      (reviewTransition settings call case caseId payload).event case.row.reviewStatus, fun r => reviewedRow_caseId settings call payload _, rfl, ?_⟩
    · rw [hnew]
      simp [CaseTransition.rewrite, reviewTransition, reviewedRow, happrove, hmode]
    · have hnone : (reviewTransition settings call case caseId payload).indexRequest = none := by
        simp [reviewTransition, happrove, hmode]
      rw [hnone] at hjob
      cases hjob
      rfl

/-- The original of a case that is still pending is another case. -/
theorem Base.original_ne {w : World γ} (h : Base w) {k o : String} {row : DiagnosisCaseModel}
    (hrow : w.getCase k = some row) (hpending : row.reviewStatus = .pendingReview)
    (hsome : row.supersededId = some o) : o ≠ k := by
  rintro rfl
  obtain ⟨orow, horow, hdecided⟩ := h.original hrow (truthy_eq_some hsome).1
  rw [hrow] at horow
  cases horow
  rw [hpending] at hdecided
  cases hdecided

end EnergyAgent.Cases
