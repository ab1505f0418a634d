import EnergyAgent.Cases.History
import EnergyAgent.Cases.Supersession

/-!
# Approvals that fail half way

`review_case` approves, indexes and supersedes in transactions of their own. Only the last of them can
raise after the first has committed: a synchronous approval of a revision whose original cannot be
superseded any more reports a conflict, and leaves the revision approved and indexed.
-/

namespace EnergyAgent.Cases

open EnergyAgent.Core EnergyAgent.Lib EnergyAgent.Persistence EnergyAgent.Indexing

variable {γ : Type}

/-! ## The property and the condition -/

/-- The reviewed case, the case that it supersedes, their histories and the vectors are as before. -/
structure ReviewUndone (w w' : World γ) (caseId : String) : Prop where
  case : w'.getCase caseId = w.getCase caseId
  history : historyOf w' caseId = historyOf w caseId
  original : ∀ row o, w.getCase caseId = some row → row.supersededId = some o →
    w'.getCase o = w.getCase o ∧ historyOf w' o = historyOf w o
  vectors : w'.vectors.case = w.vectors.case

theorem ReviewUndone.refl (w : World γ) (caseId : String) : ReviewUndone w w caseId :=
  ⟨rfl, rfl, fun _ _ _ _ => ⟨rfl, rfl⟩, rfl⟩

/-- `_supersede` goes through: the original can be read, and it is approved, or it was superseded by a
request of the service. -/
def Supersedable (w : World γ) (original : String) : Prop :=
  Stored original w ∧ SupersessionAccepted w original

/-- The call approves a pending revision synchronously, by another than its author, with providers
that answer and a key that the case has not seen; but the original is not to be superseded. -/
def SupersedesInVain (settings : CaseSettings) (call : CaseCall) (caseId : String)
    (payload : CaseReviewRequest) (w : World γ) : Prop :=
  settings.indexExecutionMode = .sync ∧ payload.decision = .approve ∧
  ∃ (case : DiagnosisCase) (original : String), w.getCase caseId = some case.row ∧
    case.row.reviewStatus = .pendingReview ∧ case.row.createdBy ≠ call.actor.actorId ∧
    call.idempotencyKey.bind (idempotentEvent w caseId) = none ∧ call.answers case = true ∧
    case.row.supersededId = some original ∧ ¬ Supersedable w original

/-! ## Supersessions -/

/-- What a supersession looks at: the original, and the event that has its key. -/
theorem supersedable_congr {w w' : World γ} {original : String}
    (hrow : w'.getCase original = w.getCase original)
    (hevent : idempotentEvent w' original (supersedeKey original) =
      idempotentEvent w original (supersedeKey original)) :
    Supersedable w' original ↔ Supersedable w original := by
  unfold Supersedable Stored SupersessionAccepted replayOf
  rw [hrow, truthy_supersedeKey, Option.bind_some, Option.bind_some, hevent]

/-- A transaction that leaves a readable row raises before it commits, or not at all. -/
theorem transition_unchanged {indexRepository : Bool} {t : CaseTransition} {jobId : String}
    {w w' : World γ} {e : CaseError}
    (hread : ∀ row, w.getCase t.caseId = some row → Readable row ∧ Readable (t.rewrite row))
    (h : transition indexRepository t jobId w = (.error e, w')) : w' = w := by
  unfold transition at h
  rcases transaction_cases (applyTransition indexRepository t jobId) w with
    ⟨e', htx⟩ | ⟨⟨row, replayed⟩, w₁, happly, htx⟩
  · rw [Prog.bind_of_error htx] at h
    cases h
    rfl
  · have hrow : Readable row := by
      rcases applyTransition_eq_ok happly with ⟨-, -, hrow, -⟩ | ⟨-, model, hmodel, -, rfl, -⟩
      · exact (hread row hrow).1
      · exact (hread model hmodel).2
    rw [Prog.bind_of_ok htx] at h
    simp only [caseRecord_of_readable hrow] at h
    cases h

/-- A supersession that does not go through raises, and changes nothing. -/
theorem supersede_refused {settings : CaseSettings} {call : CaseCall} {original : String}
    {w : World γ} (h : ¬ Supersedable w original) :
    ∃ e, supersede settings call original w = (.error e, w) := by
  unfold supersede
  cases hfetch : fetch original w with
  | mk found w₁ =>
      obtain ⟨rfl, ⟨e, rfl⟩ | ⟨current, rfl, hrow⟩⟩ := fetch_cases hfetch
      · exact ⟨e, Prog.bind_of_error hfetch⟩
      · rw [Prog.bind_of_ok hfetch]
        rcases transition_cases settings.indexRepository
          (withdrawal settings call current original .superseded "case.superseded"
            (.supersede original) (some (supersedeKey original)) none) call.newJobId.val w₁ with
          ⟨e, herror⟩ | ⟨row, replayed, w₂, happly, -⟩
        · exact ⟨e, Prog.bind_of_error herror⟩
        · refine absurd ⟨⟨current.row, hrow, current.readable⟩, ?_⟩ h
          rcases applyTransition_eq_ok happly with
            ⟨-, -, hrow', event, hreplay, hhash⟩ | ⟨-, model, hmodel, hexpected, -, hreplay, -⟩
          · refine ⟨row, hrow', ?_⟩
            rw [show replayOf w₁ original (some (supersedeKey original)) = some event from hreplay]
            exact hhash
          · refine ⟨model, hmodel, ?_⟩
            rw [show replayOf w₁ original (some (supersedeKey original)) = none from hreplay]
            exact hexpected

/-! ## Index runs -/

theorem setIndex_run {k : String} {status : CaseIndexStatus} {errorCode embeddingText : Option String}
    {active : Bool} {w : World γ} {row : DiagnosisCaseModel} (hrow : w.getCase k = some row)
    (hread : Readable row) :
    setIndex k status errorCode embeddingText active w =
      (.ok ⟨setIndexRow status errorCode embeddingText active row, hread⟩,
        w.updateCase k (setIndexRow status errorCode embeddingText active)) := by
  have htx : applySetIndex k status errorCode embeddingText active w =
      .ok (setIndexRow status errorCode embeddingText active row,
        w.updateCase k (setIndexRow status errorCode embeddingText active)) := by
    unfold applySetIndex
    rw [hrow]
  have hread' : Readable (setIndexRow status errorCode embeddingText active row) := hread
  unfold setIndex
  rw [Prog.bind_apply]
  simp only [Prog.transaction, htx, Prog.lift_apply, caseRecord_of_readable hread']

/-- What an index run of a stored case returns and leaves. -/
structure Indexes (call : CaseCall) (case updated : DiagnosisCase) (w w' : World γ) : Prop where
  row : w'.getCase case.row.caseId = some updated.row
  status : updated.row.reviewStatus = case.row.reviewStatus
  original : updated.row.supersededId = case.row.supersededId
  indexed : updated.row.indexStatus = .indexed ↔ call.answers case = true
  other : ∀ k, k ≠ case.row.caseId → w'.getCase k = w.getCase k
  events : w'.caseEvents = w.caseEvents

theorem index_run {call : CaseCall} {case : DiagnosisCase} {w : World γ}
    (hrow : w.getCase case.row.caseId = some case.row) :
    ∃ updated w', index call case w = (.ok updated, w') ∧ Indexes call case updated w w' := by
  -- the index columns are written in a store with the same cases
  have hset : ∀ (v : World γ) status errorCode active, v.cases = w.cases →
      v.caseEvents = w.caseEvents → (status = .indexed ↔ call.answers case = true) →
      ∃ updated w', setIndex case.row.caseId status errorCode (some (buildEmbeddingText case)) active v =
        (.ok updated, w') ∧ Indexes call case updated w w' := by
    intro v status errorCode active hcases hevents hstatus
    have hrow' : v.getCase case.row.caseId = some case.row :=
      (World.getCase_congr hcases).trans hrow
    refine ⟨_, _, setIndex_run hrow' case.readable, ?_⟩
    refine ⟨?_, rfl, rfl, hstatus, fun k hk => ?_, hevents⟩
    · rw [World.getCase_updateCase_self (setIndexRow_caseId _ _ _ _), hrow']
      rfl
    · rw [World.getCase_updateCase_ne (setIndexRow_caseId _ _ _ _) hk]
      exact World.getCase_congr hcases
  unfold index
  simp only [Prog.handle, Prog.bind_apply, Prog.lift_apply]
  cases hembed : embedCase call (buildEmbeddingText case) with
  | error e =>
      have hanswers : call.answers case = false := by simp [CaseCall.answers, hembed]
      exact hset w .failed _ false rfl rfl (by simp [hanswers])
  | ok embedded =>
      have hanswers : call.answers case =
          decide (embedded.1.upsert (caseVector case.row embedded.2) = .applied) := by
        simp [CaseCall.answers, hembed]
      cases houtcome : embedded.1.upsert (caseVector case.row embedded.2) with
      | applied =>
          obtain ⟨updated, w', hrun, hindexes⟩ := hset
            (upsertCollection .case [caseVector case.row embedded.2] w) .indexed none true rfl rfl
            (by simp [hanswers, houtcome])
          simp only [vectorCall, houtcome, Prog.write_apply, hrun]
          exact ⟨updated, w', rfl, hindexes⟩
      | raised e =>
          simp only [vectorCall, houtcome, Prog.raise_apply]
          exact hset w .failed _ false rfl rfl (by simp [hanswers, houtcome])
      | appliedThenRaised e =>
          simp only [vectorCall, houtcome, Prog.bind_apply, Prog.write_apply, Prog.raise_apply]
          exact hset (upsertCollection .case [caseVector case.row embedded.2] w) .failed _ false rfl rfl
            (by simp [hanswers, houtcome])

/-! ## Reviews -/

section review

variable {settings : CaseSettings} {call : CaseCall} {caseId : String} {payload : CaseReviewRequest}
  {w w₁ : World γ} {case approved : DiagnosisCase}

/-- What the end of a synchronous approval comes to: after the index run it raises exactly if it
supersedes in vain. -/
theorem afterApproval_run (hmode : settings.indexExecutionMode = .sync)
    (hrow : w₁.getCase approved.row.caseId = some approved.row)
    (hother : approved.row.supersededId ≠ some approved.row.caseId) :
    ∃ updated w₂, Indexes call approved updated w₁ w₂ ∧
      ((∀ o, approved.row.supersededId = some o → call.answers approved = true →
          Supersedable w₁ o) → ∃ result w', afterApproval settings call approved w₁ = (.ok result, w')) ∧
      ∀ o, approved.row.supersededId = some o → call.answers approved = true →
        ¬ Supersedable w₁ o → ∃ e, afterApproval settings call approved w₁ = (.error e, w₂) := by
  obtain ⟨updated, w₂, hindex, hindexes⟩ := @index_run _ call _ _ hrow
  have hrun : afterApproval settings call approved w₁ =
      supersedeReplaced settings call updated w₂ := by
    unfold afterApproval indexApproved
    rw [hmode]
    exact Prog.bind_of_ok hindex
  have hsame : ∀ o, approved.row.supersededId = some o →
      (Supersedable w₂ o ↔ Supersedable w₁ o) := by
    intro o hsome
    refine supersedable_congr (hindexes.other o fun heq => hother (heq ▸ hsome)) ?_
    unfold idempotentEvent
    rw [hindexes.events]
  refine ⟨updated, w₂, hindexes, fun haccepted => ?_, fun o hsome hanswers hrefused => ?_⟩
  · rw [hrun]
    rcases supersedeReplaced_cases settings call updated with
      ⟨original, hindexed, hsome, hreplaced⟩ | ⟨-, hreplaced⟩
    · rw [hindexes.original] at hsome
      have hgo := (hsame original hsome).mpr
        (haccepted original hsome (hindexes.indexed.mp hindexed))
      have htriple := @accepted_supersede _ _ call _ hmode w₂ hgo
      rw [hreplaced]
      cases hsupersede : supersede settings call original w₂ with
      | mk result w' =>
          rw [hsupersede] at htriple
          cases result with
          | error e => exact htriple.elim
          | ok u => exact ⟨updated, w', Prog.bind_of_ok hsupersede⟩
    · rw [hreplaced]
      exact ⟨updated, w₂, rfl⟩
  · obtain ⟨e, hsupersede⟩ := @supersede_refused _ settings call _ _
      (mt (hsame o hsome).mp hrefused)
    refine ⟨e, ?_⟩
    rw [hrun]
    unfold supersedeReplaced
    rw [hindexes.indexed.mpr hanswers, hindexes.original, hsome]
    exact Prog.bind_of_error hsupersede

theorem replayOf_of_unused {key : Option String} (h : key.bind (idempotentEvent w caseId) = none) :
    replayOf w caseId key = none := by
  cases key with
  | none => rfl
  | some key =>
      by_cases hempty : key = ""
      · simp [replayOf, Text.truthy, hempty]
      · simpa [replayOf, Text.truthy, hempty] using h

/-- A transition that has written has found its key unused. -/
theorem transition_unused {indexRepository : Bool} {t : CaseTransition} {jobId : String}
    {result : CaseTransitionResult} (h : transition indexRepository t jobId w = (.ok result, w₁))
    (hfresh : result.replayed = false) :
    t.idempotencyKey.bind (idempotentEvent w t.caseId) = none := by
  unfold transition at h
  obtain ⟨⟨row, replayed⟩, w₂, htx, hrest⟩ := Prog.bind_eq_ok h
  obtain ⟨case, -, hend⟩ := Prog.bind_lift_eq_ok hrest
  cases hend
  obtain rfl : replayed = false := hfresh
  have happly := Prog.transaction_eq_ok htx
  unfold applyTransition at happly
  split at happly
  · cases happly
  · split at happly
    · split at happly <;> cases happly
    · split at happly
      · cases happly
      · obtain ⟨w₃, hevent, -⟩ := Prog.except_bind_eq_ok happly
        unfold addEvent at hevent
        split at hevent
        · cases hevent
        · next hfree => exact Option.not_isSome_iff_eq_none.mp hfree

/-- The transition of a synchronous approval, of a pending case with a key it has not seen. -/
theorem approval_transition (hmode : settings.indexExecutionMode = .sync)
    (happrove : payload.decision = .approve) (hrow : w.getCase caseId = some case.row)
    (hpending : case.row.reviewStatus = .pendingReview)
    (hunused : call.idempotencyKey.bind (idempotentEvent w caseId) = none) :
    ∃ approved w₁, transition settings.indexRepository
      (reviewTransition settings call case caseId payload) call.newJobId.val w =
        (.ok ⟨approved, false⟩, w₁) := by
  obtain ⟨t, ht⟩ : ∃ t, t = reviewTransition settings call case caseId payload := ⟨_, rfl⟩
  have hid : t.caseId = caseId := by rw [ht]; rfl
  have hexpected : t.expected = .pendingReview := by rw [ht]; rfl
  have hkey : t.idempotencyKey = call.idempotencyKey := by rw [ht]; rfl
  have hrequest : t.indexRequest = none := by simp [ht, reviewTransition, happrove, hmode]
  have hread : Readable (t.rewrite case.row) := by
    rw [ht]
    exact readable_reviewedRow settings call payload case.readable
  have hfree : (t.idempotencyKey.bind
      (idempotentEvent (w.updateCase caseId t.rewrite) caseId)).isSome = false := by
    rw [hkey]
    exact Option.isSome_eq_false_iff.mpr (Option.isNone_iff_eq_none.mpr hunused)
  have hadd : addEvent (t.event .pendingReview) (w.updateCase caseId t.rewrite) =
      .ok (rewriteCase caseId t.rewrite [t.event .pendingReview] w) := by
    unfold addEvent
    rw [show (t.event .pendingReview).caseId = caseId from hid,
      show (t.event .pendingReview).idempotencyKey = t.idempotencyKey from rfl,
      if_neg (by rw [Bool.not_eq_true]; exact hfree)]
    rfl
  have happly : applyTransition settings.indexRepository t call.newJobId.val w =
      .ok ((t.rewrite case.row, false), rewriteCase caseId t.rewrite [t.event .pendingReview] w) := by
    unfold applyTransition
    rw [hid, hrow, hkey, replayOf_of_unused hunused]
    simp only [hexpected, hpending, ne_eq, not_true_eq_false, if_false, hadd, hrequest]
    rfl
  refine ⟨⟨t.rewrite case.row, hread⟩, rewriteCase caseId t.rewrite [t.event .pendingReview] w, ?_⟩
  rw [← ht]
  unfold transition
  rw [Prog.bind_apply]
  simp only [Prog.transaction, happly, Prog.bind_apply, Prog.lift_apply, caseRecord_of_readable hread,
    Prog.pure_apply]

/-- What a fresh approval has left of the case and its original. -/
structure Approves (call : CaseCall) (case approved : DiagnosisCase) (w w₁ : World γ) : Prop where
  caseId : approved.row.caseId = case.row.caseId
  status : approved.row.reviewStatus = .approved
  original : approved.row.supersededId = case.row.supersededId
  answers : call.answers approved = call.answers case
  row : w₁.getCase approved.row.caseId = some approved.row
  supersedable : ∀ o, o ≠ case.row.caseId → (Supersedable w₁ o ↔ Supersedable w o)

theorem approves_of_transition (hmode : settings.indexExecutionMode = .sync)
    (happrove : payload.decision = .approve) (hrow : w.getCase caseId = some case.row)
    (hresult : transition settings.indexRepository
      (reviewTransition settings call case caseId payload) call.newJobId.val w =
        (.ok ⟨approved, false⟩, w₁)) : Approves call case approved w w₁ := by
  obtain ⟨happroved, f, event, hkey, hevent, hw₁⟩ := sync_approval hmode happrove hrow hresult
  have hid := getCase_caseId hrow
  have hstored := transition_stored (t := reviewTransition settings call case caseId payload)
    (fun r => reviewedRow_caseId settings call payload _) hresult
  have hcaseId : approved.row.caseId = case.row.caseId := by rw [happroved]
  refine ⟨hcaseId, by rw [happroved], by rw [happroved]; rfl, answers_congr happroved, ?_, ?_⟩
  · rw [hcaseId, hid]
    exact hstored
  · intro o ho
    rw [hid] at ho
    rw [hw₁]
    refine supersedable_congr (getCase_rewriteCase_ne hkey ho) ?_
    exact idempotentEvent_append_ne (by rw [hevent]; exact ho.symm)

/-- **What an error means.** The store is as before, or the approval has superseded in vain. -/
theorem reviewCase_error {w' : World γ} {e : CaseError}
    (hother : ∀ row, w.getCase caseId = some row → row.supersededId ≠ some caseId)
    (h : reviewCase settings call caseId payload w = (.error e, w')) :
    w' = w ∨ SupersedesInVain settings call caseId payload w := by
  unfold reviewCase at h
  rcases Prog.bind_cases h with ⟨_, hfetch, -⟩ | ⟨case, w₀, hfetch, h₁⟩
  · exact Or.inl (fetch_cases hfetch).1
  obtain ⟨rfl, ⟨_, herror⟩ | ⟨case', hcase', hrow⟩⟩ := fetch_cases hfetch
  · cases herror
  cases hcase'
  rcases Prog.bind_cases h₁ with ⟨_, hraise, -⟩ | ⟨_, w₁, hraise, h₂⟩
  · exact Or.inl (Prog.raiseIf_cases hraise).1
  obtain ⟨rfl, ⟨-, hno⟩ | ⟨hauthor, -⟩⟩ := Prog.raiseIf_cases hraise
  · cases hno
  rcases Prog.bind_cases h₂ with ⟨_, htransition, -⟩ | ⟨⟨approved, replayed⟩, w₂, htransition, h₃⟩
  · refine Or.inl (transition_unchanged (fun row hrow' => ?_) htransition)
    obtain rfl : case.row = row := Option.some.inj (hrow.symm.trans hrow')
    exact ⟨case.readable, readable_reviewedRow settings call payload case.readable⟩
  split at h₃
  · cases h₃
  · next hgo =>
      simp only [not_or, Bool.not_eq_true] at hgo
      obtain ⟨rfl, hdecision⟩ := hgo
      have happrove : payload.decision = .approve := by
        cases hpayload : payload.decision with
        | approve => rfl
        | reject => exact absurd hpayload hdecision
      have hunused := transition_unused htransition rfl
      rcases transition_eq_ok htransition with ⟨hreplayed, -⟩ | ⟨-, row, hrow', hpending, hnew, -⟩
      · cases hreplayed
      obtain rfl : case.row = row := Option.some.inj (hrow.symm.trans hrow')
      cases hmode : settings.indexExecutionMode with
      | rabbitmq =>
          have hqueued := (reviewed_approved happrove hnew).2 hmode
          rw [afterApproval_of_queued hmode hqueued] at h₃
          cases h₃
      | sync =>
          have hid := getCase_caseId hrow
          have happroves := approves_of_transition hmode happrove hrow htransition
          have hne : ∀ o, approved.row.supersededId = some o → o ≠ case.row.caseId := by
            rintro o hsome rfl
            rw [happroves.original, hid] at hsome
            exact hother _ hrow hsome
          obtain ⟨updated, w₃, -, hok, -⟩ := @afterApproval_run _ settings call _ approved hmode
            happroves.row fun hself => hne _ hself happroves.caseId
          refine Or.inr ⟨hmode, happrove, case, ?_⟩
          by_contra hvain
          obtain ⟨result, w₄, hrun⟩ := hok fun o hsome hanswers => by
            rw [happroves.supersedable o (hne o hsome)]
            by_contra hrefused
            exact hvain ⟨o, hrow, hpending, hauthor, hunused, happroves.answers ▸ hanswers,
              happroves.original ▸ hsome, hrefused⟩
          rw [hrun] at h₃
          cases h₃

/-- An approval that supersedes in vain raises, and has approved the case. -/
theorem reviewCase_of_vain
    (hother : ∀ row, w.getCase caseId = some row → row.supersededId ≠ some caseId)
    (h : SupersedesInVain settings call caseId payload w) :
    ∃ e w' row, reviewCase settings call caseId payload w = (.error e, w') ∧
      w'.getCase caseId = some row ∧ row.reviewStatus = .approved := by
  obtain ⟨hmode, happrove, case, o, hrow, hpending, hauthor, hunused, hanswers, hsome, hrefused⟩ := h
  have hid := getCase_caseId hrow
  obtain ⟨approved, w₁, htransition⟩ := approval_transition hmode happrove hrow hpending hunused
  have happroves := approves_of_transition hmode happrove hrow htransition
  have hne : o ≠ case.row.caseId := by
    rintro rfl
    rw [hid] at hsome
    exact hother _ hrow hsome
  obtain ⟨updated, w₂, hindexes, -, hraise⟩ := @afterApproval_run _ settings call _ approved hmode
    happroves.row (by rw [happroves.original, hsome, happroves.caseId]; simpa using hne)
  obtain ⟨e, hrun⟩ := hraise o (happroves.original.trans hsome) (happroves.answers.trans hanswers)
    (mt (happroves.supersedable o hne).mp hrefused)
  refine ⟨e, w₂, updated.row, ?_, ?_, hindexes.status.trans happroves.status⟩
  · unfold reviewCase
    rw [Prog.bind_of_ok (fetch_of_stored hrow case.readable)]
    have hraiseIf : (Prog.raiseIf (case.row.createdBy = call.actor.actorId) .selfReviewForbidden :
        Service γ Unit) w = (.ok (), w) := by
      unfold Prog.raiseIf
      rw [if_neg hauthor]
    rw [Prog.bind_of_ok hraiseIf, Prog.bind_of_ok htransition, if_neg (by simp [happrove])]
    exact hrun
  · rw [← hid, ← happroves.caseId]
    exact hindexes.row

end review

/-- **A review is all or nothing**, in any state that requests and workers can reach, exactly if it
does not supersede in vain. -/
theorem review_all_or_nothing {settings : CaseSettings} {p : Threads Access (World γ) Empty Unit}
    (h : (interleaved settings).Reachable p) (call : CaseCall) (caseId : String)
    (payload : CaseReviewRequest) :
    (∀ e w', reviewCase settings call caseId payload p.store = (.error e, w') →
      ReviewUndone p.store w' caseId) ↔ ¬ SupersedesInVain settings call caseId payload p.store := by
  have hother : ∀ row, p.store.getCase caseId = some row → row.supersededId ≠ some caseId := by
    intro row hrow hself
    have hne := everyCase_of_reachable (P := fun row => row.supersedesCaseId ≠ some row.caseId)
      (fun _ hnew => hnew.supersedes) (fun _ _ _ _ _ _ _ _ _ _ hne hwrite => by
        rw [hwrite.moves.supersedes, hwrite.moves.caseId]
        exact hne) h caseId row hrow
    refine hne ?_
    rw [(truthy_eq_some hself).1, getCase_caseId hrow]
  constructor
  · intro hundone hvain
    obtain ⟨e, w', row, hrun, hrow, happroved⟩ := reviewCase_of_vain hother hvain
    have hsame := (hundone e w' hrun).case
    obtain ⟨-, -, case, -, hcase, hpending, -⟩ := hvain
    rw [hrow, hcase] at hsame
    rw [← Option.some.inj hsame, happroved] at hpending
    cases hpending
  · intro hvain e w' hrun
    rcases reviewCase_error hother hrun with rfl | hin
    · exact ReviewUndone.refl _ _
    · exact absurd hin hvain

/-! ## Runs -/

/-- In rabbitmq mode the original may have been disabled. -/
theorem queued_review_all_or_nothing : ∃ p,
    (interleaved (sampleSettings .rabbitmq)).run ⟨World.empty (), []⟩ disabledMoves = some p ∧
      ∀ e w', reviewCase (sampleSettings .rabbitmq) (reviewer ⟨"job-3", by decide⟩ true) "case-2"
        approval p.store = (.error e, w') → ReviewUndone p.store w' "case-2" := by
  have hrun : ((interleaved (sampleSettings .rabbitmq)).run ⟨World.empty (), []⟩
      disabledMoves).isSome = true := by
    decide +kernel
  obtain ⟨p, hp⟩ := Option.isSome_iff_exists.mp hrun
  have hreach : (interleaved (sampleSettings .rabbitmq)).Reachable p :=
    .of_run (.init ⟨⟨rfl, rfl, rfl, rfl, rfl, rfl⟩, rfl⟩) hp
  refine ⟨p, hp, (review_all_or_nothing hreach _ "case-2" approval).mpr ?_⟩
  rintro ⟨hsync, -⟩
  cases hsync

/-- In sync mode, a case is approved, revised as `case-2`, and disabled. -/
def retiredMoves : List (Threads.Move (Label Unit)) :=
  undisturbed 0 2 (.api (engineer caseOne) (.createDraft (sampleDraft "session"))) ++
  undisturbed 1 2 (.api (engineer noId) (.submit "case-1")) ++
  undisturbed 2 4 (.api (reviewer jobOne true) (.review "case-1" approval)) ++
  undisturbed 3 7 (.api (engineer caseTwo) (.revision "case-1" ⟨emptyPatch, true⟩)) ++
  undisturbed 4 4 (.api (reviewer jobTwo true)
    (.disable "case-1" outdated))

/-- The request was refused by a conflict. -/
def refusedByConflict : Except CaseError DiagnosisCase → Bool
  | .error .caseStateConflict => true
  | _ => false

/-- The review of `case-2` reports a conflict, and leaves `case-2` approved and indexed. -/
theorem conflict_leaves_revision_approved :
    ¬ ∀ p : Threads Access (World Unit) Empty Unit,
      (interleaved (sampleSettings .sync)).Reachable p → ∀ call caseId payload e w',
      reviewCase (sampleSettings .sync) call caseId payload p.store = (.error e, w') →
      ReviewUndone p.store w' caseId := by
  intro hclaim
  have hrun : ((interleaved (sampleSettings .sync)).run ⟨World.empty (), []⟩ retiredMoves).any
      (fun p =>
        let after := reviewCase (sampleSettings .sync) (reviewer ⟨"job-3", by decide⟩ true) "case-2"
          approval p.store
        refusedByConflict after.1 &&
        (p.store.getCase "case-2").any (·.reviewStatus = .pendingReview) &&
        (after.2.getCase "case-2").any fun row =>
          row.reviewStatus = .approved && row.indexStatus = .indexed) = true := by
    decide +kernel
  obtain ⟨p, hp, hcheck⟩ := (Option.any_eq_true _ _).mp hrun
  have hreach : (interleaved (sampleSettings .sync)).Reachable p :=
    .of_run (.init ⟨⟨rfl, rfl, rfl, rfl, rfl, rfl⟩, rfl⟩) hp
  cases hreview : reviewCase (sampleSettings .sync) (reviewer ⟨"job-3", by decide⟩ true) "case-2"
      approval p.store with
  | mk result w' =>
      rw [hreview] at hcheck
      cases result with
      | ok case => cases hcheck
      | error e =>
          simp only [Bool.and_eq_true, Option.any_eq_true, decide_eq_true_eq] at hcheck
          obtain ⟨⟨-, row, hrow, hpending⟩, row', hrow', happroved, -⟩ := hcheck
          have hsame := (hclaim p hreach _ _ _ e w' hreview).case
          rw [hrow, hrow'] at hsame
          rw [Option.some.inj hsame, hpending] at happroved
          cases happroved

end EnergyAgent.Cases
