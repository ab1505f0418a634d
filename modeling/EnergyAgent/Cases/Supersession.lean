import EnergyAgent.Cases.Acceptance

/-!
# A revision and its original are not both active

A revision that becomes active has to retire its original. `review_case` does it in sync mode, after
an index run that succeeded; `_case` does it in a worker. Three paths activate a revision and leave the
original alone: a synchronous reindex, a case batch of the drainer, and a synchronous approval whose
supersession is refused because another request has used its idempotency key. Without these, the
original is retired, or a job of the revision that will retire it is not done yet.
-/

namespace EnergyAgent.Cases

open EnergyAgent.Lib EnergyAgent.Persistence EnergyAgent.Indexing

variable {γ : Type}

/-! ## The obligation -/

/-- A case of `S` is active, and its original is still approved. -/
def owesRetirement (S : String → Prop) (w : World γ) (row : DiagnosisCaseModel) : Prop :=
  S row.caseId ∧ row.isActive = true ∧ ¬ OriginalRetired w row

theorem OriginalRetired.rewrite {w : World γ} {row : DiagnosisCaseModel} (h : OriginalRetired w row)
    (hdecided : OriginalDecided w row) {k : String} {f : DiagnosisCaseModel → DiagnosisCaseModel}
    {events : List CaseReviewEventModel} (hkey : ∀ r, (f r).caseId = r.caseId)
    {row₀ : DiagnosisCaseModel} (hrow₀ : w.getCase k = some row₀) (hevolves : Evolves row₀ (f row₀)) :
    OriginalRetired (rewriteCase k f events w) row := by
  intro o orow' hsome horow'
  obtain ⟨orow, horow, ⟨rfl, rfl⟩ | ⟨_, rfl⟩⟩ := getCase_rewriteCase hkey horow'
  · obtain rfl : row₀ = orow := Option.some.inj (hrow₀.symm.trans horow)
    obtain ⟨orow, horow', hstatus⟩ := hdecided (truthy_eq_some hsome).1
    obtain rfl : row₀ = orow := Option.some.inj (hrow₀.symm.trans horow')
    exact statusStep_not_approved hevolves.status hstatus (h hsome horow)
  · exact h hsome horow

theorem OriginalRetired.insert {w : World γ} {row new : DiagnosisCaseModel}
    (h : OriginalRetired w row) (hnew : NewDraft w new) :
    OriginalRetired { w with cases := w.cases ++ [new] } row := by
  intro o orow hsome horow
  rcases Table.get_append_eq_some horow with hold | ⟨_, _, rfl⟩
  · exact h hsome hold
  · rw [hnew.draft]
    simp

theorem OriginalRetired.congr {w w' : World γ} {row : DiagnosisCaseModel} (h : OriginalRetired w row)
    (hcases : w'.cases = w.cases) : OriginalRetired w' row := by
  intro o orow hsome horow
  rw [World.getCase_congr hcases] at horow
  exact h hsome horow

theorem OriginalRetired.of_supersededId {w : World γ} {row row' : DiagnosisCaseModel}
    (h : OriginalRetired w row) (hid : row'.supersedesCaseId = row.supersedesCaseId) :
    OriginalRetired w row' := by
  intro o orow hsome
  rw [DiagnosisCaseModel.supersededId, hid] at hsome
  exact h hsome

theorem obligation_retirement (S : String → Prop) : Obligation True (owesRetirement (γ := γ) S) where
  congr hcases h := ⟨h.1, h.2.1, fun hretired => h.2.2 (hretired.congr hcases)⟩
  rewrite hkey hrow hevolves hdecided h :=
    ⟨h.1, h.2.1, fun hretired => h.2.2 (hretired.rewrite hdecided hkey hrow hevolves)⟩
  insert hnew h := ⟨h.1, h.2.1, fun hretired => h.2.2 (hretired.insert hnew)⟩
  quiet hfacts hevolves hquiet h := by
    have hactive := hquiet.active h.2.1
    refine ⟨⟨hevolves.caseId ▸ h.1, hactive, fun hretired => h.2.2 ?_⟩, Or.inl ?_⟩
    · exact hretired.of_supersededId hevolves.supersedesCaseId
    · rw [hevolves.active h.2.1, hfacts.active hactive]
  idle hinactive _ h := by
    have hactive := h.2.1
    rw [hinactive] at hactive
    cases hactive
  settled _ hretired h := h.2.2 (hretired trivial)

/-! ## The condition -/

/-- What a step must not do: approve synchronously while another request holds the key of the
supersession, reindex a revision synchronously, or drain a revision's message, while the original is
approved. -/
def RetiresOriginals (settings : CaseSettings) (w : World γ) : Label γ → Prop
  | .api call (.review caseId payload) => settings.indexExecutionMode = .sync →
      payload.decision = .approve → ∀ (case : DiagnosisCase) original,
      w.getCase caseId = some case.row → case.row.reviewStatus = .pendingReview →
      case.row.supersededId = some original → call.answers case = true →
      ¬ OriginalRetired w case.row → SupersessionAccepted w original
  | .api call (.reindex caseId) => settings.indexExecutionMode = .sync → ∀ case : DiagnosisCase,
      w.getCase caseId = some case.row → replayOf w caseId call.idempotencyKey = none →
      reindexOperation case.row = some .reindex → call.answers case = true →
      OriginalRetired w case.row
  | .drain _ events => ∀ e ∈ events, Replaced e w
  | _ => True

/-- In rabbitmq mode only the drained batches matter. -/
theorem retiresOriginals_of_rabbitmq {settings : CaseSettings}
    (hmode : settings.indexExecutionMode = .rabbitmq) {label : Label γ}
    (hlabel : ∀ ports events, label ≠ .drain ports events) (w : World γ) :
    RetiresOriginals settings w label := by
  have hsync : settings.indexExecutionMode ≠ .sync := by
    rw [hmode]
    decide
  cases label with
  | api call request =>
      cases request with
      | review caseId payload => exact fun h => (hsync h).elim
      | reindex caseId => exact fun h => (hsync h).elim
      | _ => trivial
  | drain ports events => exact (hlabel ports events rfl).elim
  | _ => trivial

/-! ## Synchronous approvals -/

/-- An invariant together with a fact about one stored row that no write undoes. -/
theorem CaseInvariant.and_row {R N : Prop} {I : World γ → Prop} (hI : CaseInvariant R N True I)
    {k : String} {p : DiagnosisCaseModel → Prop} (hp : ∀ {row row'}, Evolves row row' → p row → p row') :
    CaseInvariant R N True (fun w => I w ∧ ∃ row, w.getCase k = some row ∧ p row) := by
  have hrewrite : ∀ {w : World γ} {k' f events row₀}, (∀ r, (f r).caseId = r.caseId) →
      w.getCase k' = some row₀ → Evolves row₀ (f row₀) → (∃ row, w.getCase k = some row ∧ p row) →
      ∃ row, (rewriteCase k' f events w).getCase k = some row ∧ p row := by
    rintro w k' f events row₀ hkey hrow₀ hevolves ⟨row, hrow, hrowp⟩
    by_cases hk : k = k'
    · subst hk
      obtain rfl : row₀ = row := Option.some.inj (hrow₀.symm.trans hrow)
      exact ⟨f row₀, getCase_rewriteCase_self hkey hrow₀, hp hevolves hrowp⟩
    · exact ⟨row, (getCase_rewriteCase_ne hkey hk).trans hrow, hrowp⟩
  exact
    { base := fun h => hI.base h.1
      core := fun hS _ _ h hc => ⟨hI.core hS h.1 hc,
        h.2.imp fun _ hrow => ⟨(hc.getCase k).trans hrow.1, hrow.2⟩⟩
      event := fun h hplain => ⟨hI.event h.1 hplain, h.2⟩
      insert := fun h hnew hread => ⟨hI.insert h.1 hnew hread,
        h.2.imp fun _ hrow => ⟨Table.get_append_of_some hrow.1, hrow.2⟩⟩
      rewrite := fun h hkey hrow hevolves hquiet hfit hread =>
        ⟨hI.rewrite h.1 hkey hrow hevolves hquiet hfit hread, hrewrite hkey hrow hevolves h.2⟩
      queue := fun h hkey hrow hevolves hqueues hfit hread hnot hadd =>
        ⟨hI.queue h.1 hkey hrow hevolves hqueues hfit hread hnot hadd,
          (hrewrite hkey hrow hevolves h.2).imp fun _ hrow' =>
            ⟨(World.getCase_congr (addJob_caseTable hadd)).trans hrow'.1, hrow'.2⟩⟩ }

/-- The invariant for all cases but one, and that one owes nothing. -/
theorem Safe.of_except {k : String} {w : World γ} (h : Safe False (owesRetirement (· ≠ k)) w)
    (hk : ∀ row, w.getCase k = some row → row.isActive = true → OriginalRetired w row) :
    Safe False (owesRetirement fun _ => True) w := by
  refine ⟨h.base, fun k' row hrow howes => ?_, fun hfalse => hfalse.elim⟩
  by_cases hne : row.caseId = k
  · have hrow' : w.getCase k = some row := by
      rw [← hne, getCase_caseId hrow]
      exact hrow
    exact (howes.2.2 (hk row hrow' howes.2.1)).elim
  · exact h.owing k' row hrow ⟨hne, howes.2⟩

theorem Safe.except {k : String} {w : World γ} (h : Safe False (owesRetirement fun _ => True) w) :
    Safe False (owesRetirement (· ≠ k)) w :=
  ⟨h.base, fun k' row hrow howes => h.owing k' row hrow ⟨trivial, howes.2⟩, fun hfalse => hfalse.elim⟩

theorem caseInvariant_retirement (S : String → Prop) :
    CaseInvariant False False True (Safe (γ := γ) False (owesRetirement S)) := by
  refine caseInvariant_safe (obligation_retirement S) (Or.inr fun w row _ hinactive h => ?_)
  have hactive := h.2.1
  rw [hinactive] at hactive
  cases hactive

/-- The end of a synchronous approval: once the revision is active, its original is retired, or was
never approved. -/
theorem retires_supersede {settings : CaseSettings} {call : CaseCall} {k original : String}
    (hmode : settings.indexExecutionMode = .sync) {w : World γ}
    (h : Safe False (owesRetirement (· ≠ k)) w) {row : DiagnosisCaseModel}
    (hrow : w.getCase k = some row) (hsome : row.supersededId = some original)
    (haccepted : ¬ OriginalRetired w row → SupersessionAccepted w original) :
    Safe False (owesRetirement fun _ => True) (supersede settings call original w).2 := by
  obtain ⟨horiginal, _⟩ := truthy_eq_some hsome
  obtain ⟨orow, horow, hdecided⟩ := h.base.original hrow horiginal
  -- the revision keeps pointing at the original
  have hI := (caseInvariant_retirement (γ := γ) (· ≠ k)).and_row (k := k)
    (p := fun r => r.supersedesCaseId = some original)
    (fun hevolves hid => hevolves.supersedesCaseId.trans hid)
  have hpointed : ∃ r, w.getCase k = some r ∧ r.supersedesCaseId = some original :=
    ⟨row, hrow, horiginal⟩
  have hretired : ∀ w' : World γ, (∃ r, w'.getCase k = some r ∧ r.supersedesCaseId = some original) →
      (∃ r, w'.getCase original = some r ∧ r.reviewStatus ≠ .approved) →
      ∀ r, w'.getCase k = some r → r.isActive = true → OriginalRetired w' r := by
    rintro w' ⟨r, hr, hid⟩ ⟨orow', horow', hnot⟩ r' hr' _ o orow'' hsome' horow''
    obtain rfl : r = r' := Option.some.inj (hr.symm.trans hr')
    rw [(truthy_eq_some hsome').1] at hid
    cases hid
    obtain rfl : orow' = orow'' := Option.some.inj (horow'.symm.trans horow'')
    exact hnot
  by_cases happroved : orow.reviewStatus = .approved
  · -- the supersession is accepted, and withdraws the original
    have hnot : ¬ OriginalRetired w row := fun hr => hr hsome horow happroved
    have hread : Readable orow := h.base.readable horow (by simp [happroved])
    cases hrun : supersede settings call original w with
    | mk r w' =>
        cases r with
        | error e =>
            exact ((accepted_supersede hmode).error ⟨⟨orow, horow, hread⟩, haccepted hnot⟩ hrun).elim
        | ok u =>
            obtain ⟨⟨hw', hpointed'⟩, orow', horow', hwithdrawn⟩ :=
              (hI.supersede fun _ => trivial).ok ⟨h, hpointed⟩ hrun
            refine hw'.of_except (hretired w' hpointed' ⟨orow', horow', fun happroved' => ?_⟩)
            rw [happroved'] at hwithdrawn
            cases hwithdrawn
  · -- the original is retired already, and stays so whatever the supersession does
    have hI' := hI.and_row (k := original)
      (p := fun r => decided r.reviewStatus = true ∧ r.reviewStatus ≠ .approved)
      (fun hevolves hr => ⟨statusStep_decided hevolves.status hr.1,
        statusStep_not_approved hevolves.status hr.1 hr.2⟩)
    have hkeep : Prog.Triple _ (supersede settings call original) _ _ :=
      .weaken (hI'.supersede fun _ => trivial) (fun _ h => h) (fun _ _ h => h.1) (fun _ _ h => h)
    obtain ⟨⟨hw', hpointed'⟩, orow', horow', _, hnot⟩ :=
      hkeep.snd ⟨⟨h, hpointed⟩, orow, horow, hdecided, happroved⟩
    exact hw'.of_except (hretired _ hpointed' ⟨orow', horow', hnot⟩)

theorem supersedeReplaced_cases (settings : CaseSettings) (call : CaseCall)
    (updated : DiagnosisCase) :
    (∃ original, updated.row.indexStatus = .indexed ∧ updated.row.supersededId = some original ∧
      (supersedeReplaced settings call updated : Service γ DiagnosisCase) =
        (supersede settings call original >>= fun _ => pure updated)) ∨
    ((∀ original, updated.row.indexStatus = .indexed → updated.row.supersededId ≠ some original) ∧
      (supersedeReplaced settings call updated : Service γ DiagnosisCase) = pure updated) := by
  unfold supersedeReplaced
  split
  · next original hindexed hsome => exact Or.inl ⟨original, hindexed, hsome, rfl⟩
  · next hnone => exact Or.inr ⟨fun original hindexed hsome => hnone original hindexed hsome, rfl⟩

/-- A fresh synchronous approval, to its end. -/
theorem retires_afterApproval {settings : CaseSettings} {call : CaseCall} {approved : DiagnosisCase}
    (hmode : settings.indexExecutionMode = .sync)
    (happroved : approved.row.reviewStatus = .approved) {w : World γ}
    (h : Safe False (owesRetirement fun _ => True) w)
    (hrow : w.getCase approved.row.caseId = some approved.row)
    (haccepted : ∀ original, approved.row.supersededId = some original →
      original ≠ approved.row.caseId ∧ (call.answers approved = true →
        ¬ OriginalRetired w approved.row → SupersessionAccepted w original)) :
    Safe False (owesRetirement fun _ => True) (afterApproval settings call approved w).2 := by
  have hI := caseInvariant_retirement (γ := γ) (· ≠ approved.row.caseId)
  have hindex := hI.index trivial call approved (P := fun _ => True) (fun _ h => h)
    fun _ _ row' text hw _ hrow hsame => hw.activate (obligation_retirement _) hrow
      (hsame.2.2.trans happroved) (fun howes => howes.1 hsame.1)
  -- until the supersession, the index run leaves the original and its events alone
  have hkeep : Prog.Keeps (fun s : World γ => ∀ original, approved.row.supersededId = some original →
      s.getCase original = w.getCase original ∧
        (call.answers approved = true → ¬ OriginalRetired w approved.row →
          SupersessionAccepted s original)) (index call approved) := by
    refine keeps_index (fun hcore hs original hsome => ⟨(hcore.getCase _).trans (hs original hsome).1,
      fun ha hr => ((hs original hsome).2 ha hr).core hcore⟩) ?_
    intro status errorCode embeddingText active s hs original hsome
    have hne := (haccepted original hsome).1
    have hkey := setIndexRow_caseId status errorCode embeddingText active
    rw [updateCase_eq_rewriteCase]
    exact ⟨(getCase_rewriteCase_ne hkey hne).trans (hs original hsome).1, fun ha hr =>
      ((hs original hsome).2 ha hr).rewrite hne hkey (Or.inl rfl)⟩
  have hrun := Prog.Triple.and hindex hkeep w
    ⟨⟨⟨h.except, trivial⟩, _, hrow, rfl, rfl, rfl⟩, fun original hsome =>
      ⟨rfl, (haccepted original hsome).2⟩⟩
  have hstored : Stored approved.row.caseId w := ⟨_, hrow, approved.readable⟩
  cases hresult : index call approved w with
  | mk r w₂ =>
      rw [hresult] at hrun
      cases r with
      | error e => exact (accepted_index.error hstored hresult).elim
      | ok updated =>
          obtain ⟨⟨hw₂, hrow₂, hsame, hstatus⟩, hother⟩ := hrun
          have hid : updated.row.supersededId = approved.row.supersededId := by
            rw [DiagnosisCaseModel.supersededId, DiagnosisCaseModel.supersededId, hsame.2.1]
          have hgoal : afterApproval settings call approved w =
              supersedeReplaced settings call updated w₂ := by
            simp only [afterApproval, indexApproved, hmode, Prog.bind_apply, hresult]
          rw [hgoal]
          rcases supersedeReplaced_cases settings call updated with
            ⟨original, hindexed, hsome, hrun⟩ | ⟨hnone, hrun⟩
          · rw [hrun, Prog.bind_pure_snd]
            refine retires_supersede hmode hw₂ hrow₂ hsome (fun hnot => ?_)
            obtain ⟨horiginal, haccept⟩ := hother original (hid ▸ hsome)
            have hanswers : call.answers approved = true := by
              rcases hstatus with ⟨ha, _⟩ | ⟨hfailed, _⟩
              · exact ha
              · rw [hindexed] at hfailed
                cases hfailed
            refine haccept hanswers (fun hretired => hnot ?_)
            intro o orow hsome' horow
            obtain rfl : original = o := Option.some.inj (hsome.symm.trans hsome')
            exact hretired (hid ▸ hsome') (horiginal.symm.trans horow)
          · rw [hrun]
            refine hw₂.of_except (fun row hrow' hactive o orow hsome _ => ?_)
            obtain rfl : updated.row = row := Option.some.inj (hrow₂.symm.trans hrow')
            rcases hstatus with ⟨_, hindexed⟩ | ⟨_, hinactive⟩
            · exact (hnone o hindexed hsome).elim
            · rw [hinactive] at hactive
              cases hactive

/-! ## The invariant -/

theorem retires_api {settings : CaseSettings} {call : CaseCall} {request : CaseRequest} {w : World γ}
    (h : Safe False (owesRetirement fun _ => True) w)
    (hok : RetiresOriginals settings w (.api call request)) :
    Safe False (owesRetirement fun _ => True) (request.run settings call w).2 := by
  have hI := caseInvariant_retirement (γ := γ) (fun _ => True)
  refine hI.run (fun _ => trivial) h (fun hfalse => hfalse.elim) ?_ ?_
  · rintro caseId payload rfl
    refine hI.reviewCase h (fun w₁ case approved hmode happrove hrow hresult hw₁ hrow₁ hpending
      hstatus => ?_)
    obtain ⟨happroved, f, event, hkey, hevent, rfl⟩ := sync_approval hmode happrove hrow hresult
    have hid : approved.row.supersededId = case.row.supersededId := by
      rw [happroved]
      rfl
    have hcaseId : approved.row.caseId = caseId := getCase_caseId hrow₁
    refine retires_afterApproval hmode hstatus hw₁ (hcaseId.symm ▸ hrow₁) (fun original hsome => ?_)
    have hne := h.base.original_ne hrow hpending (hid ▸ hsome)
    refine ⟨hcaseId.symm ▸ hne, fun hanswers hnot => ?_⟩
    have haccepted := hok hmode happrove case original hrow hpending (hid ▸ hsome)
      (answers_congr happroved ▸ hanswers) (fun hretired => hnot ?_)
    · exact haccepted.rewrite hne hkey (Or.inr ⟨event, rfl, hevent⟩)
    · intro o orow hsome' horow
      obtain rfl : original = o := Option.some.inj (hsome.symm.trans hsome')
      rw [getCase_rewriteCase_ne hkey hne] at horow
      exact hretired (hid ▸ hsome') horow
  · rintro caseId rfl
    refine hI.reindex (fun _ => trivial) h (fun hfalse => hfalse.elim)
      (fun hmode case hrow hreplay hop hanswers _ row' text hw' hcases hrow' hsame => ?_)
    rcases reindexOperation_cases hop with ⟨_, happroved⟩ | ⟨hfalse, _⟩
    · have horiginal : OriginalRetired w case.row := hok hmode case hrow hreplay hop hanswers
      have hretired : OriginalRetired _ row' :=
        OriginalRetired.of_supersededId (horiginal.congr hcases) hsame.2.1
      exact hw'.activate (obligation_retirement _) hrow' (hsame.2.2.trans happroved)
        (fun howes => howes.2.2 hretired)
    · cases hfalse

theorem retires_reachable {settings : CaseSettings} {w : World γ}
    (h : (lifecycle settings).ReachableVia (RetiresOriginals settings) w) :
    Safe False (owesRetirement fun _ => True) w := by
  refine h.invariant (I := Safe False (owesRetirement fun _ => True)) (fun w h0 => Safe.init h0)
    (fun w label w' hw hok hstep => ?_)
  refine safe_step (obligation_retirement _) hw hstep ?_ ?_
  · rintro call request rfl
    exact retires_api hw hok
  · rintro _ ports events rfl
    exact hok

/-- **Supersession is exclusive**, in both modes, as long as no step activates a revision past its
original: when no index job is outstanding, the original of an active case is not active. -/
theorem original_of_active_not_active {settings : CaseSettings} {w : World γ}
    (h : (lifecycle settings).ReachableVia (RetiresOriginals settings) w)
    (hdone : ∀ job ∈ w.jobs, job.status.terminal = true) :
    ∀ r row o orow, w.getCase r = some row → row.reviewStatus = .approved → row.isActive = true →
      row.supersedesCaseId = some o → w.getCase o = some orow → orow.isActive = false := by
  intro r row o orow hrow _ hactive hsome horow
  have hsafe := retires_reachable h
  have hid : row.supersededId = some o := by
    have hne : o ≠ "" := by
      rintro rfl
      rw [hsafe.base.nonempty] at horow
      cases horow
    simp [DiagnosisCaseModel.supersededId, hsome, Text.truthy, hne]
  by_cases hretired : OriginalRetired w row
  · exact (hsafe.base.rowFacts horow).not_active (hretired hid horow)
  · -- the job that is to retire the original would be outstanding
    obtain ⟨job, hjob, _, _, _, hnot⟩ := hsafe.owing r row hrow ⟨trivial, hactive, hretired⟩
    rw [hdone job hjob] at hnot
    cases hnot

/-! ## Runs -/

/-- `case-1` is approved, revised as `case-2`, and the revision is approved. -/
def revisionRun (answering : Bool) : List (Label Unit) :=
  [.api (engineer caseOne) (.createDraft (sampleDraft "session")),
    .api (engineer noId) (.submit "case-1"),
    .api (reviewer jobOne true) (.review "case-1" approval),
    .api (engineer caseTwo) (.revision "case-1" ⟨emptyPatch, true⟩),
    .api (reviewer jobTwo answering) (.review "case-2" approval)]

/-- The providers are down when the revision is approved, and it is reindexed when they are back. -/
def reindexedRevisionRun : List (Label Unit) :=
  revisionRun false ++ [.api (engineer jobThree) (.reindex "case-2")]

/-- The worker handles the jobs of both approvals, and the tombstone job of the original. -/
def workedRevisionRun : List (Label Unit) :=
  revisionRun true ++
    [.publish 1 .published, .publish 2 .published,
      .consume answeringPorts (caseMessage "job-1" "case-1" "1" .upsert),
      .consume answeringPorts (caseMessage "job-2" "case-2" "2" .upsert),
      .publish 3 .published,
      .consume answeringPorts { caseMessage "tombstone-job-2" "case-1" "1" .tombstone with
        causationId := "job-2" }]

/-- Every job is done, and `case-2`, a revision of `case-1`, is approved and active. -/
def settledRevision (w : World Unit) : Bool :=
  (w.jobs.all fun job => job.status.terminal) && (w.getCase "case-2").any fun row =>
    row.reviewStatus = .approved && row.isActive && row.supersedesCaseId = some "case-1"

/-- `reindex` activates the revision and leaves the original as it is: both are active. -/
theorem reindex_leaves_original_active :
    ¬ ∀ w : World Unit, (lifecycle (sampleSettings .sync)).Reachable w →
      (∀ job ∈ w.jobs, job.status.terminal = true) →
      ∀ r row o orow, w.getCase r = some row → row.reviewStatus = .approved → row.isActive = true →
        row.supersedesCaseId = some o → w.getCase o = some orow → orow.isActive = false := by
  intro hclaim
  have hrun : ((lifecycle (sampleSettings .sync)).run (World.empty ()) reindexedRevisionRun).any
      (fun w => settledRevision w && (w.getCase "case-1").any (·.isActive)) = true := by
    decide +kernel
  obtain ⟨w, hw, hboth⟩ := (Option.any_eq_true _ _).mp hrun
  simp only [settledRevision, Bool.and_eq_true, Option.any_eq_true, decide_eq_true_eq] at hboth
  obtain ⟨⟨hdone, row, hrow, ⟨happroved, hactive⟩, hsome⟩, orow, horow, horiginal⟩ := hboth
  have hreach : (lifecycle (sampleSettings .sync)).Reachable w :=
    TransitionSystem.Reachable.of_run (.init ⟨rfl, rfl, rfl, rfl, rfl, rfl⟩) hw
  have hinactive := hclaim w hreach (List.all_eq_true.mp hdone) "case-2" row "case-1" orow hrow
    happroved hactive hsome horow
  rw [horiginal] at hinactive
  cases hinactive

/-- Through the worker the original is retired. -/
theorem worked_revision_retires_original :
    ∃ w : World Unit,
      (lifecycle (sampleSettings .rabbitmq)).run (World.empty ()) workedRevisionRun = some w ∧
      settledRevision w = true ∧ ∀ orow, w.getCase "case-1" = some orow → orow.isActive = false := by
  have hrun : ((lifecycle (sampleSettings .rabbitmq)).run (World.empty ()) workedRevisionRun).any
      settledRevision = true := by
    decide +kernel
  obtain ⟨w, hw, hsettled⟩ := (Option.any_eq_true _ _).mp hrun
  have hreach : (lifecycle (sampleSettings .rabbitmq)).ReachableVia
      (RetiresOriginals (sampleSettings .rabbitmq)) w := by
    refine TransitionSystem.ReachableVia.of_run ?_ (.init ⟨rfl, rfl, rfl, rfl, rfl, rfl⟩) hw
    intro label hlabel s
    refine retiresOriginals_of_rabbitmq rfl ?_ s
    rintro ports events rfl
    simp [workedRevisionRun, revisionRun] at hlabel
  refine ⟨w, hw, hsettled, fun orow horow => ?_⟩
  simp only [settledRevision, Bool.and_eq_true, Option.any_eq_true, decide_eq_true_eq] at hsettled
  obtain ⟨hdone, row, hrow, ⟨happroved, hactive⟩, hsome⟩ := hsettled
  exact original_of_active_not_active hreach (List.all_eq_true.mp hdone) "case-2" row "case-1" orow
    hrow happroved hactive hsome horow

end EnergyAgent.Cases
