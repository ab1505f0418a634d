import EnergyAgent.Cases.Obligations
import Mathlib.Data.List.Perm.Subperm

/-!
# The workers keep the invariant

A worker holds a list `M` of delivered messages. While it handles them, the rows it activates are
covered in one of two ways: their own jobs are running (`consume` handles one message at a time and
supersedes by itself), or it is known beforehand that the originals are retired (a drained batch
supersedes nothing, so this is a condition on the batch). `Working` has both.
-/

namespace EnergyAgent.Cases

open EnergyAgent.Lib EnergyAgent.Persistence EnergyAgent.Indexing

variable {γ : Type}

/-! ## Holding messages -/

/-- The job of the message is not done. -/
def Running (w : World γ) (e : IndexJobMessage) : Prop :=
  ∃ job ∈ w.jobs, Describes e job ∧ job.status.terminal = false

/-- The worker holds the messages `M`; with `G`, the originals of their cases are retired. -/
structure Holding (R : Prop) (owes : World γ → DiagnosisCaseModel → Prop) (G : Prop)
    (M : List IndexJobMessage) (w : World γ) : Prop where
  safe : Safe R owes w
  held : M.Subperm w.unacked
  replaced : G → ∀ e ∈ M, Replaced e w

/-- The worker is about to handle them. -/
structure Working (R H : Prop) (owes : World γ → DiagnosisCaseModel → Prop) (G : Prop)
    (M : List IndexJobMessage) (w : World γ) : Prop extends Holding R owes G M w where
  ready : (∀ e ∈ M, Running w e) ∨ (H → G)

theorem Holding.belongs {R G : Prop} {owes : World γ → DiagnosisCaseModel → Prop}
    {M : List IndexJobMessage} {w : World γ} (h : Holding R owes G M w) {e : IndexJobMessage}
    (he : e ∈ M) : Belongs w e :=
  h.safe.base.messages e (List.mem_append_right _ (h.held.subset he))

theorem Holding.live {R G : Prop} {owes : World γ → DiagnosisCaseModel → Prop}
    {M : List IndexJobMessage} {w : World γ} (h : Holding R owes G M w) {e : IndexJobMessage}
    (he : e ∈ M) : Live w e.jobId :=
  Or.inr ⟨e, List.mem_append_right _ (h.held.subset he), rfl⟩

/-- The stored job of a message is the only one with its id. -/
theorem Base.describes {w : World γ} (h : Base w) {e : IndexJobMessage} (hbelongs : Belongs w e)
    {job : IndexJobModel} (hjob : job ∈ w.jobs) (hid : job.jobId = e.jobId) : Describes e job := by
  obtain ⟨job', hjob', hdescribes⟩ := hbelongs
  obtain rfl : job = job' :=
    List.inj_on_of_nodup_map h.jobIds hjob hjob' (hid.trans hdescribes.1)
  exact hdescribes

/-- A row that is still called for is a row the message is meant for. -/
theorem accepts_of_calledFor {e : IndexJobMessage} {row : DiagnosisCaseModel}
    (h : calledFor e.operation row.reviewStatus = true) : Accepts e row := by
  unfold Accepts
  unfold calledFor at h
  split at h
  · next hop =>
      rw [if_pos hop]
      exact h
  · next hop =>
      rw [if_neg (by simp [hop])]
      simpa using h
  · next hop =>
      rw [if_neg (by simp [hop])]
      simpa using h
  · cases h

theorem calledFor_of_accepts {e : IndexJobMessage} {row : DiagnosisCaseModel} (h : Accepts e row)
    (hstatus : jobStatus e.operation row.reviewStatus = true) :
    calledFor e.operation row.reviewStatus = true := by
  unfold Accepts at h
  cases hop : e.operation with
  | tombstone => simpa [hop, calledFor] using h
  | upsert => simpa [hop, calledFor] using h
  | reindex => simpa [hop, calledFor] using h
  | graphProject =>
      rw [hop] at hstatus
      cases hstatus

/-! ## Programs of workers -/

/-- A handler's program keeps inside a worker what it keeps by itself. -/
theorem triple_ofHandler {α : Type} {P : World γ → Prop} {x : Handler γ α} {Q : α → World γ → Prop}
    {C : World γ → Prop} (h : Prog.Triple P x Q (fun _ => C)) :
    Prog.Triple P (ofHandler x) Q (fun _ => C) := by
  intro w hw
  have hr := h w hw
  unfold ofHandler
  cases hx : x w with
  | mk r w' =>
      rw [hx] at hr
      cases r with
      | ok a => exact hr
      | error e => exact hr

/-! ## Retired originals stay retired -/

theorem replaced_rewrite {w : World γ} (hb : Base w) {e : IndexJobMessage} (h : Replaced e w)
    {k : String} {f : DiagnosisCaseModel → DiagnosisCaseModel} {events : List CaseReviewEventModel}
    (hkey : ∀ r, (f r).caseId = r.caseId) {row₀ : DiagnosisCaseModel}
    (hrow₀ : w.getCase k = some row₀) (hevolves : Evolves row₀ (f row₀)) :
    Replaced e (rewriteCase k f events w) := by
  intro htype hop row' o orow' hrow' ho horow'
  obtain ⟨row, hrow, hrow'⟩ := getCase_rewriteCase hkey hrow'
  have hid : row.supersededId = some o := by
    rcases hrow' with ⟨rfl, rfl⟩ | ⟨_, rfl⟩
    · obtain rfl : row₀ = row := Option.some.inj (hrow₀.symm.trans hrow)
      rw [DiagnosisCaseModel.supersededId, hevolves.supersedesCaseId] at ho
      exact ho
    · exact ho
  obtain ⟨orow, horow, horow'⟩ := getCase_rewriteCase hkey horow'
  have hnot := h htype hop row o orow hrow hid horow
  rcases horow' with ⟨rfl, rfl⟩ | ⟨_, rfl⟩
  · obtain rfl : row₀ = orow := Option.some.inj (hrow₀.symm.trans horow)
    -- the original was decided when the revision was created
    obtain ⟨orow, horow₁, hdecided⟩ := hb.original hrow (truthy_eq_some hid).1
    obtain rfl : row₀ = orow := Option.some.inj (horow.symm.trans horow₁)
    exact statusStep_not_approved hevolves.status hdecided hnot
  · exact hnot

theorem replaced_congr {w w' : World γ} {e : IndexJobMessage} (h : Replaced e w)
    (hcases : w'.cases = w.cases) : Replaced e w' := by
  intro htype hop row o orow hrow ho horow
  rw [World.getCase_congr hcases] at hrow horow
  exact h htype hop row o orow hrow ho horow

theorem indexed_congr {w w' : World γ} {e : IndexJobMessage} (h : Indexed e w)
    (hcases : w'.cases = w.cases) : Indexed e w' := by
  intro htype row hrow
  rw [World.getCase_congr hcases] at hrow
  exact h htype row hrow

/-- A failed job of another entity touches neither cases nor jobs. -/
theorem failEntity_of_other {job : IndexJobModel} (h : job.entityType ≠ .diagnosisCase)
    (code : String) (w : World γ) :
    (failEntity job code w).cases = w.cases ∧ (failEntity job code w).jobs = w.jobs := by
  unfold failEntity
  split
  · next hcase => exact absurd hcase h
  · exact ⟨rfl, rfl⟩
  · exact ⟨rfl, rfl⟩
  · exact ⟨rfl, rfl⟩

/-! ## Handling -/

/-- `_set_case_index` on a row that passed the check. -/
theorem evolves_indexRow {w : World γ} (h : Base w) {e : IndexJobMessage} {row : DiagnosisCaseModel}
    (hrow : w.getCase e.entityId = some row) (haccepts : Accepts e row) (status : IndexStatus)
    {active : Bool} (text : Option String) (hactive : active = true → e.operation ≠ .tombstone) :
    Evolves row (indexRow status active text row) where
  caseId := rfl
  caseVersion := rfl
  supersedesCaseId := rfl
  status := statusStep_refl _
  active ha := by
    have hop := hactive ha
    rw [Accepts, if_neg hop] at haccepts
    exact haccepts
  readable hdraft := show Readable row from h.readable hrow hdraft

section

variable {R H G : Prop} {owes : World γ → DiagnosisCaseModel → Prop} (ho : Obligation H owes)
include ho

/-- The row that the worker writes owes nothing that is not covered. -/
theorem Working.covers {M : List IndexJobMessage} {w : World γ} (h : Working R H owes G M w)
    {e : IndexJobMessage} (he : e ∈ M) (htype : e.entityType = .diagnosisCase)
    {row : DiagnosisCaseModel} (hrow : w.getCase e.entityId = some row) (haccepts : Accepts e row)
    {status : IndexStatus} {active : Bool} {text : Option String}
    (hactive : active = true → e.operation ≠ .tombstone) (hstatus : status ≠ .queued)
    (howes : owes w (indexRow status active text row)) :
    ∃ job ∈ w.jobs, Serves job (indexRow status active text row) := by
  rcases h.ready with hrunning | hG
  · obtain ⟨job, hjob, hdescribes, hnot⟩ := hrunning e he
    obtain ⟨_, htype', hid, _, hop⟩ := hdescribes
    obtain ⟨row', hrow', _, hjobStatus⟩ := h.safe.base.caseJob job hjob (htype'.symm.trans htype)
    rw [← hid, hrow] at hrow'
    cases hrow'
    refine ⟨job, hjob, htype'.symm.trans htype, ?_, ?_, hnot⟩
    · rw [← hid]
      exact (getCase_caseId hrow).symm
    · rw [← hop] at hjobStatus ⊢
      exact calledFor_of_accepts haccepts hjobStatus
  · exfalso
    cases hactive' : active with
    | false =>
        have hinactive : (indexRow status active text row).isActive = false := hactive'
        exact ho.idle hinactive hstatus howes
    | true =>
        refine ho.settled hstatus (fun hH => ?_) howes
        intro o orow hsome horow
        exact h.replaced (hG hH) e he htype (hactive hactive') row o orow hrow hsome horow

/-- **The handlers keep the invariant**, and what they have handled stays handled. -/
theorem batchInvariant_working {M : List IndexJobMessage} :
    BatchInvariant (· ∈ M) (Working R H owes G M) := by
  intro D hD
  refine ⟨?_, ?_, ?_⟩
  · rintro w w' hcore ⟨h, hindexed⟩
    refine ⟨⟨⟨h.safe.core ho hcore, hcore.unacked.symm ▸ h.held, fun hG e he =>
      (h.replaced hG e he).core hcore⟩, ?_⟩, fun e he => (hindexed e he).core hcore⟩
    rcases h.ready with hrunning | hG
    · refine Or.inl (fun e he => ?_)
      obtain ⟨job, hjob, hrest⟩ := hrunning e he
      exact ⟨job, hcore.jobs.symm ▸ hjob, hrest⟩
    · exact Or.inr hG
  · rintro w event row status active text ⟨h, hindexed⟩ hE htype hrow haccepts hactive hstatus
    have hevolves := evolves_indexRow h.safe.base hrow haccepts status text hactive
    have hkey := indexRow_caseId status active text
    rw [setCaseIndex, updateCase_eq_rewriteCase]
    refine ⟨⟨⟨⟨?_, ?_, ?_⟩, h.held, fun hG e he =>
      replaced_rewrite h.safe.base (h.replaced hG e he) hkey hrow hevolves⟩, h.ready⟩,
      fun e he => ?_⟩
    · exact h.safe.base.rewriteCase hkey hrow hevolves (eventsFit_nil _ _)
    · exact h.safe.owing.of_rewrite ho h.safe.base hkey hrow hevolves rfl (fun _ hjob => hjob)
        (h.covers ho hE htype hrow haccepts hactive hstatus)
    · exact fun hR => (h.safe.readable hR).rewrite hkey hrow (fun hread => hread)
    · intro htype' row' hrow' _
      obtain ⟨row₁, hrow₁, ⟨hid, rfl⟩ | ⟨_, rfl⟩⟩ := getCase_rewriteCase hkey hrow'
      · exact hstatus
      · exact hindexed e he htype' row' hrow₁ ‹_›
  · rintro w w' event jobId old ⟨h, hindexed⟩ hsupersede
    rcases supersedeOld_cases hsupersede with ⟨rfl, _⟩ | ⟨row, rec, hrow, happroved, hadd⟩
    · exact ⟨h, hindexed⟩
    · have hb := h.safe.base
      rw [updateCase_eq_rewriteCase] at hadd
      have hcases : w'.cases = (rewriteCase old supersededRow [] w).cases := addJob_caseTable hadd
      have hevolves : Evolves row (supersededRow row) :=
        ⟨rfl, rfl, rfl, by rw [happroved]; rfl, by simp [supersededRow],
          fun _ => show Readable row from hb.readable hrow (by simp [happroved])⟩
      have hmem : ∀ job ∈ w.jobs, job ∈ w'.jobs :=
        mem_addJob (w := rewriteCase old supersededRow [] w) hadd
      have hunacked : w'.unacked = w.unacked := by
        rcases addJob_cases hadd with ⟨_, rfl⟩ | ⟨_, _, _, rfl⟩ <;> rfl
      refine ⟨⟨⟨?_, hunacked.symm ▸ h.held, fun hG e he => replaced_congr
        (replaced_rewrite hb (h.replaced hG e he) supersededRow_caseId hrow hevolves) hcases⟩, ?_⟩, ?_⟩
      · refine h.safe.queue ho supersededRow_caseId hrow hevolves
          ⟨⟨rfl, rfl, rfl, rfl⟩, rfl, rfl, rfl⟩ (eventsFit_nil _ _) (fun _ hread => hread)
          (fun _ => ?_) hadd
        have hcase : w.getCase row.caseId = some row := by
          rw [getCase_caseId hrow]
          exact hrow
        exact notDone_of_status hb.toTables rfl hcase (by rw [happroved]; rfl)
      · rcases h.ready with hrunning | hG
        · refine Or.inl (fun e he => ?_)
          obtain ⟨job, hjob, hrest⟩ := hrunning e he
          exact ⟨job, hmem job hjob, hrest⟩
        · exact Or.inr hG
      · -- a tombstone of the original cannot have been handled: it was still approved
        intro e he htype row' hrow' haccepts
        rw [World.getCase_congr hcases] at hrow'
        obtain ⟨row₁, hrow₁, ⟨hid, rfl⟩ | ⟨_, rfl⟩⟩ := getCase_rewriteCase supersededRow_caseId hrow'
        · obtain ⟨job, hjob, _, htype', hid', _, hop⟩ := h.belongs (hD e he)
          obtain ⟨row₂, hrow₂, _, hstatus⟩ := hb.caseJob job hjob (htype'.symm.trans htype)
          rw [← hid', hid, hrow] at hrow₂
          cases hrow₂
          unfold Accepts at haccepts
          split at haccepts
          · next htombstone =>
              rw [← hop, htombstone, happroved] at hstatus
              cases hstatus
          · cases haccepts
        · exact hindexed e he htype row' hrow₁ haccepts

/-! ## Closing a job -/

/-- The job of a message that was handled, or that is stale, has nothing left to do. -/
theorem Holding.not_owes {M : List IndexJobMessage} {w : World γ} (h : Holding R owes G M w)
    {e : IndexJobMessage} (he : e ∈ M)
    (hdone : (Indexed e w ∧ (H → Replaced e w)) ∨ Rejects e w) {job : IndexJobModel}
    (hjob : job ∈ w.jobs) (hid : job.jobId = e.jobId) (htype : job.entityType = .diagnosisCase)
    {row : DiagnosisCaseModel} (hrow : w.getCase job.entityId = some row)
    (hcalled : calledFor job.operation row.reviewStatus = true) : ¬ owes w row := by
  have hb := h.safe.base
  obtain ⟨_, htype', hid', hversion, hop⟩ := hb.describes (h.belongs he) hjob hid
  obtain ⟨row', hrow', hversion', _⟩ := hb.caseJob job hjob htype
  obtain rfl : row = row' := Option.some.inj (hrow.symm.trans hrow')
  rw [← hid'] at hrow
  rw [← hop] at hcalled
  have haccepts := accepts_of_calledFor hcalled
  have hwithdrawn : e.operation = .tombstone → row.isActive = false := by
    intro htombstone
    rw [Accepts, if_pos htombstone] at haccepts
    refine (hb.rowFacts hrow).not_active (fun happroved => ?_)
    rw [happroved] at haccepts
    cases haccepts
  rcases hdone with ⟨hindexed, hreplaced⟩ | hrejects
  · have hstatus := hindexed (htype'.trans htype) row hrow haccepts
    by_cases htombstone : e.operation = .tombstone
    · exact ho.idle (hwithdrawn htombstone) hstatus
    · refine ho.settled hstatus (fun hH => ?_)
      intro o orow hsome horow
      exact hreplaced hH (htype'.trans htype) htombstone row o orow hrow hsome horow
  · obtain ⟨htombstone, hactive⟩ :=
      hrejects (htype'.trans htype) row hrow (hversion'.trans hversion.symm) haccepts
    rw [hwithdrawn htombstone] at hactive
    cases hactive

omit ho in
theorem finish_jobDone {jobId : String} {status : IndexJobStatus} {w : World γ}
    (hterminal : status.terminal = true) :
    ∀ job ∈ (finish jobId status w).jobs, job.jobId = jobId → job.status.terminal = true := by
  intro job hjob hid
  obtain ⟨job', _, ⟨_, rfl⟩ | ⟨hne, rfl⟩⟩ := mem_updateJob hjob
  · exact hterminal
  · exact absurd hid hne

theorem Holding.finish {M : List IndexJobMessage} {w : World γ} (h : Holding R owes G M w)
    {e : IndexJobMessage} (he : e ∈ M) {status : IndexJobStatus} (hterminal : status.terminal = true)
    (hdone : (Indexed e w ∧ (H → Replaced e w)) ∨ Rejects e w) :
    Holding R owes G M (finish e.jobId status w) where
  safe := h.safe.updateJob ho (h.safe.base.finish e.jobId hterminal)
    (fun _ => ⟨rfl, rfl, rfl, rfl, rfl⟩)
    (fun _ hjob hid _ htype _ hrow hcalled => h.not_owes ho he hdone hjob hid htype hrow hcalled)
  held := h.held
  replaced hG e' he' := replaced_congr (h.replaced hG e' he') rfl

/-- The case of a job that failed for good owes nothing more. -/
theorem Safe.failedCase {w : World γ} (h : Safe R owes w) {k : String} {row : DiagnosisCaseModel}
    (hrow : w.getCase k = some row) (code : String) :
    Safe R owes (w.updateCase k (failedCase code)) := by
  have hkey := failedCase_caseId code
  have hevolves := evolves_failedCase h.base.toTables hrow code
  rw [updateCase_eq_rewriteCase]
  refine ⟨h.base.rewriteCase hkey hrow hevolves (eventsFit_nil _ _), ?_,
    fun hR => (h.readable hR).rewrite hkey hrow (fun hread => hread)⟩
  refine h.owing.of_rewrite ho h.base hkey hrow hevolves rfl (fun _ hjob => hjob) (fun howes => ?_)
  exact absurd howes (ho.idle rfl (by simp [Indexing.failedCase]))

theorem Safe.fail {w : World γ} (h : Safe R owes w) {jobId : String} (hlive : Live w jobId)
    (code message : String) (retry : Bool) : Safe R owes (fail jobId code message retry w) := by
  have hb := h.base.fail hlive code message retry
  unfold Indexing.fail at hb ⊢
  cases hjob : w.getJob jobId with
  | none => exact h
  | some job =>
      obtain ⟨hmem, hid⟩ := mem_of_getJob hjob
      have hsame : ∀ job, SameJob job (failedJob code message retry job) :=
        fun _ => ⟨rfl, rfl, rfl, rfl, rfl⟩
      simp only [hjob] at hb ⊢
      cases retry with
      | true =>
          exact h.congr ho hb rfl (JobsStay.updateJob (w := w) hsame (fun _ _ => rfl))
      | false =>
          simp only [Bool.false_eq_true, if_false] at hb ⊢
          -- only the job that failed is done now, and its case, if it has one, is failed with it
          have hunique : ∀ job' ∈ w.jobs, job'.jobId = jobId → job' = job := fun job' hjob' hid' =>
            List.inj_on_of_nodup_map h.base.jobIds hjob' hmem (hid'.trans hid.symm)
          by_cases htype : job.entityType = .diagnosisCase
          · obtain ⟨row, hrow, _⟩ := h.base.caseJob job hmem htype
            have hworld : failEntity job code (w.updateJob jobId (failedJob code message false)) =
                (w.updateCase job.entityId (Indexing.failedCase code)).updateJob jobId
                  (failedJob code message false) := by
              unfold failEntity
              rw [htype]
              rfl
            rw [hworld] at hb ⊢
            refine (h.failedCase ho hrow code).updateJob ho hb hsame
              (fun job' hjob' hid' _ _ row' hrow' _ => ?_)
            obtain rfl := hunique job' hjob' hid'
            rw [World.getCase_updateCase_self (failedCase_caseId code), hrow] at hrow'
            cases hrow'
            exact ho.idle rfl (by simp [Indexing.failedCase])
          · have hfailed : Owing owes (w.updateJob jobId (failedJob code message false)) :=
              h.owing.updateJob ho hsame (fun job' hjob' hid' _ htype' => by
                obtain rfl := hunique job' hjob' hid'
                exact absurd htype' htype)
            obtain ⟨hcases, hjobs⟩ := failEntity_of_other htype code
              (w.updateJob jobId (failedJob code message false))
            exact ⟨hb, hfailed.congr ho hcases (.of_mem fun _ hj => hjobs ▸ hj),
              fun hR => (h.readable hR).congr hcases⟩

/-! ## Settling a message -/

theorem Holding.settle {M : List IndexJobMessage} {e : IndexJobMessage} {w : World γ}
    (h : Holding R owes G (e :: M) w)
    (hdone : (∀ job ∈ w.jobs, job.jobId = e.jobId → job.status.terminal = true) ∨ e ∈ w.queue) :
    Holding R owes G M (settle e w) where
  safe := h.safe.messages ho (h.safe.base.settle hdone) rfl rfl
  held := by
    have := h.held.erase e
    rwa [List.erase_cons_head] at this
  replaced hG e' he' := replaced_congr (h.replaced hG e' (List.mem_cons_of_mem _ he')) rfl

theorem Holding.requeue {M : List IndexJobMessage} {e : IndexJobMessage} {w : World γ}
    (h : Holding R owes G M w) (he : e ∈ M) : Holding R owes G M (requeue e w) where
  safe := h.safe.messages ho (h.safe.base.requeue (h.belongs he)) rfl rfl
  held := h.held
  replaced hG e' he' := replaced_congr (h.replaced hG e' he') rfl

theorem Holding.ackMessage {M : List IndexJobMessage} {e : IndexJobMessage}
    {outcome : Except PortError Unit} :
    Prog.Triple (fun w => Holding R owes G (e :: M) w ∧
        ((∀ job ∈ w.jobs, job.jobId = e.jobId → job.status.terminal = true) ∨ e ∈ w.queue))
      (ackMessage outcome e) (fun _ => Holding R owes G M)
      (fun _ => Holding R owes G (e :: M)) := by
  unfold Indexing.ackMessage
  exact .keeps_bind (.lift _) (fun _ _ h => h.1) (fun _ => .write fun _ h => h.1.settle ho h.2)

omit ho in
/-- A job that failed for good is done. -/
theorem fail_jobDone {jobId code message : String} {w : World γ} :
    ∀ job ∈ (fail jobId code message false w).jobs, job.jobId = jobId →
      job.status.terminal = true := by
  intro job hjob hid
  unfold Indexing.fail at hjob
  cases hfound : w.getJob jobId with
  | none =>
      rw [hfound] at hjob
      exact absurd hid (Table.get_eq_none.mp hfound job hjob)
  | some job₀ =>
      simp only [hfound, Bool.false_eq_true, if_false] at hjob
      have hjobs : (failEntity job₀ code (w.updateJob jobId (failedJob code message false))).jobs =
          (w.updateJob jobId (failedJob code message false)).jobs := by
        unfold failEntity
        split <;> rfl
      rw [hjobs] at hjob
      obtain ⟨job', _, ⟨_, rfl⟩ | ⟨hne, rfl⟩⟩ := mem_updateJob hjob
      · rfl
      · exact absurd hid hne

/-- `fail` moves no message and approves no case. -/
theorem Holding.fail {M : List IndexJobMessage} {e : IndexJobMessage} {w : World γ}
    (h : Holding R owes G M w) (he : e ∈ M) (code message : String) (retry : Bool) :
    Holding R owes G M (fail e.jobId code message retry w) := by
  refine ⟨h.safe.fail ho (h.live he) code message retry, ?_, fun hG e' he' => ?_⟩
  · have hunacked : (Indexing.fail e.jobId code message retry w).unacked = w.unacked := by
      unfold Indexing.fail
      split
      · rfl
      · split
        · rfl
        · unfold failEntity
          split <;> rfl
    rw [hunacked]
    exact h.held
  · have hreplaced := h.replaced hG e' he'
    unfold Indexing.fail
    cases hjob : w.getJob e.jobId with
    | none => exact hreplaced
    | some job =>
        simp only
        split
        · exact replaced_congr hreplaced rfl
        · by_cases htype : job.entityType = .diagnosisCase
          · obtain ⟨row, hrow, _⟩ := h.safe.base.caseJob job (mem_of_getJob hjob).1 htype
            have hrewrite : Replaced e' (rewriteCase job.entityId (failedCase code) [] w) :=
              replaced_rewrite h.safe.base hreplaced (failedCase_caseId code) hrow
                (evolves_failedCase h.safe.base.toTables hrow code)
            refine replaced_congr hrewrite ?_
            unfold failEntity
            rw [htype]
            rfl
          · exact replaced_congr hreplaced (failEntity_of_other htype code _).1

/-- `_fail`: the job is failed or put back, the message published again, and settled. -/
theorem Holding.failMessage {M : List IndexJobMessage} {e : IndexJobMessage}
    {ports : ConsumerPorts γ} {attemptCount : Nat} {maxAttempts : MaxAttempts} {err : HandlerError} :
    Prog.Triple (Holding R owes G (e :: M)) (failMessage ports e attemptCount maxAttempts err)
      (fun _ => Holding R owes G M) (fun _ => Safe R owes) := by
  have he : e ∈ e :: M := List.mem_cons_self ..
  unfold Indexing.failMessage
  cases deadLettered attemptCount maxAttempts err with
  | true =>
      refine .bind (Q := fun _ w => Holding R owes G (e :: M) w ∧
        ((∀ job ∈ w.jobs, job.jobId = e.jobId → job.status.terminal = true) ∨ e ∈ w.queue))
        (.write fun w h => ⟨h.fail ho he _ _ _, Or.inl fail_jobDone⟩) (fun _ => ?_)
      refine .keeps_bind (keeps_callOutcome (fun _ h => h) _) (fun _ _ h => h.1.safe) (fun _ => ?_)
      exact .weaken (Holding.ackMessage ho) (fun _ h => h) (fun _ _ h => h) (fun _ _ h => h.safe)
  | false =>
      refine .bind (Q := fun _ => Holding R owes G (e :: M))
        (.write fun w h => h.fail ho he _ _ _) (fun _ => ?_)
      refine .bind (Q := fun _ w => Holding R owes G (e :: M) w ∧
        ((∀ job ∈ w.jobs, job.jobId = e.jobId → job.status.terminal = true) ∨ e ∈ w.queue)) ?_
        (fun _ => .weaken (Holding.ackMessage ho) (fun _ h => h) (fun _ _ h => h)
          (fun _ _ h => h.safe))
      have hsent : ∀ w, Holding R owes G (e :: M) w → Holding R owes G (e :: M) (Indexing.requeue e w) ∧
          ((∀ job ∈ (Indexing.requeue e w).jobs, job.jobId = e.jobId → job.status.terminal = true) ∨
            e ∈ (Indexing.requeue e w).queue) := fun w h =>
        ⟨h.requeue ho he, Or.inr (List.mem_append_right _ (List.mem_singleton_self _))⟩
      show Prog.Triple _ (callOutcome (ports.publish e) (Indexing.requeue e)) _ _
      cases ports.publish e with
      | applied => exact .write hsent
      | raised err => exact .raise (fun _ h => h.safe)
      | appliedThenRaised err =>
          exact .bind (Q := fun _ => Holding R owes G (e :: M)) (.write fun w h => (hsent w h).1)
            (fun _ => .raise fun _ h => h.safe)

/-! ## `consume` -/

omit ho in
theorem neverStale_ackMessage {outcome : Except PortError Unit} {e : IndexJobMessage} :
    NeverStale (ackMessage outcome e : Handler γ Unit) :=
  .bind (Q := fun _ _ => True) (neverStale_lift (ofPort_ne_stale _))
    (fun _ => .write fun _ _ => trivial)

/-- The `try` block: when it raises, the message is still held. -/
theorem Working.tryHandle {e : IndexJobMessage} {ports : ConsumerPorts γ} :
    Prog.Triple (Working R H owes False [e]) (tryHandle ports e) (fun _ => Safe R owes)
      (fun err w => Holding R owes False [e] w ∧ (err = .stale → Rejects e w)) := by
  have he : e ∈ [e] := List.mem_cons_self ..
  have hI : HandlerInvariant (· ∈ [e]) (WithIndexed (Working R H owes False [e]) fun _ => False) :=
    batchInvariant_working ho _ (fun _ h => h.elim)
  unfold Indexing.tryHandle
  refine .bind (Q := fun result w => (Working R H owes False [e] w ∧ Indexed e w ∧ Replaced e w) ∧
    result.status.terminal = true) ?_ (fun result => ?_)
  · exact .weaken (.and (hI.handle he) finishes_handle)
      (fun _ h => ⟨⟨h, fun _ h => h.elim⟩, trivial⟩)
      (fun _ _ h => ⟨⟨h.1.1.1, h.1.2⟩, h.2⟩) (fun _ _ h => ⟨h.1.1.1.toHolding, h.1.2⟩)
  · refine .bind (Q := fun _ w => Holding R owes False [e] w ∧
      ((∀ job ∈ w.jobs, job.jobId = e.jobId → job.status.terminal = true) ∨ e ∈ w.queue)) ?_
      (fun _ => ?_)
    · refine .write (fun w h => ⟨?_, Or.inl (finish_jobDone h.2)⟩)
      exact h.1.1.toHolding.finish ho he h.2 (Or.inl ⟨h.1.2.1, fun _ => h.1.2.2⟩)
    · -- an acknowledgement that raises is a port's error, so not the stale signal
      exact .weaken (.and (Holding.ackMessage ho) neverStale_ackMessage) (fun _ h => ⟨h, trivial⟩)
        (fun _ _ h => h.1.safe) (fun _ _ h => ⟨h.1, fun hstale => absurd hstale h.2⟩)

theorem Working.work {e : IndexJobMessage} {ports : ConsumerPorts γ} {job : IndexJobRecord} :
    Prog.Triple (Working R H owes False [e]) (work ports e job) (fun _ => Safe R owes)
      (fun _ => Safe R owes) := by
  unfold Indexing.work
  refine .handle (Working.tryHandle ho) (fun err => ?_)
  have hfail : ∀ err, Prog.Triple
      (fun w => Holding R owes False [e] w ∧ (err = .stale → Rejects e w))
      (failMessage ports e job.row.attemptCount job.row.maxAttempts err)
      (fun _ => Safe R owes) (fun _ => Safe R owes) := fun err =>
    .weaken (Holding.failMessage ho) (fun _ h => h.1) (fun _ _ h => h.safe) (fun _ _ h => h)
  cases err with
  | cancelled => exact .raise (fun _ h => h.1.safe)
  | permanent code => exact hfail _
  | failure code typeName => exact hfail _
  | stale =>
      refine .bind (Q := fun _ w => Holding R owes False [e] w ∧
        ((∀ job ∈ w.jobs, job.jobId = e.jobId → job.status.terminal = true) ∨ e ∈ w.queue)) ?_
        (fun _ => .weaken (Holding.ackMessage ho) (fun _ h => h) (fun _ _ h => h.safe)
          (fun _ _ h => h.safe))
      refine .write (fun w h => ⟨?_, Or.inl (finish_jobDone rfl)⟩)
      exact h.1.finish ho (List.mem_cons_self ..) rfl (Or.inr (h.2 rfl))

/-- What `start` tells about the job of a message that is held. -/
structure Started (R G : Prop) (owes : World γ → DiagnosisCaseModel → Prop)
    (M : List IndexJobMessage) (e : IndexJobMessage) (job : Option IndexJobRecord)
    (w : World γ) : Prop where
  holding : Holding R owes G M w
  missing : job = none → ∀ job ∈ w.jobs, job.jobId ≠ e.jobId
  finished : ∀ rec, job = some rec → rec.row.status.finished = true →
    ∀ job ∈ w.jobs, job.jobId = e.jobId → job.status.terminal = true
  running : ∀ rec, job = some rec → rec.row.status.finished = false → Running w e

theorem Holding.startJob {M : List IndexJobMessage} {e : IndexJobMessage} (he : e ∈ M) :
    Prog.Triple (Holding R owes G M) (startJob e.jobId) (Started R G owes M e)
      (fun _ => Safe R owes) := by
  refine .transaction ?_ (fun _ _ h _ => h.safe)
  intro w rec w' h hstart
  split at hstart
  · next result hok =>
      cases hstart
      have hb := h.safe.base.start (h.live he) hok
      rcases start_cases hok with
        ⟨hnone, rfl, rfl⟩ | ⟨job, r, hjob, rfl, ⟨hfinished, hr, rfl⟩ | ⟨hfinished, hr, rfl⟩⟩
      · exact ⟨h, fun _ => Table.get_eq_none.mp hnone, fun _ hrec => (by cases hrec),
          fun _ hrec => (by cases hrec)⟩
      · refine ⟨h, fun hnone => (by cases hnone), fun rec hrec _ job' hjob' hid => ?_, fun rec hrec hnot => ?_⟩
        · obtain ⟨hmem, hid'⟩ := mem_of_getJob hjob
          obtain rfl : job' = job :=
            List.inj_on_of_nodup_map h.safe.base.jobIds hjob' hmem (hid.trans hid'.symm)
          simp [IndexJobStatus.terminal, hfinished]
        · cases hrec
          rw [hr, hfinished] at hnot
          cases hnot
      · have hstay : JobsStay w (w.updateJob e.jobId startedJob) :=
          .updateJob (fun _ => ⟨rfl, rfl, rfl, rfl, rfl⟩) (fun _ _ => rfl)
        refine ⟨⟨h.safe.congr ho hb rfl hstay, h.held, fun hG e' he' =>
          replaced_congr (h.replaced hG e' he') rfl⟩, fun hnone => (by cases hnone),
          fun rec hrec hfin => ?_, fun _ _ _ => ?_⟩
        · cases hrec
          rw [hr] at hfin
          cases hfin
        · obtain ⟨hmem, hid⟩ := mem_of_getJob hjob
          have hdescribes := h.safe.base.describes (h.belongs he) hmem hid
          exact ⟨startedJob job, List.mem_map.mpr ⟨job, hmem, if_pos hid⟩, hdescribes, rfl⟩
  · cases hstart

/-- **`consume` keeps the invariant**, however it ends. -/
theorem Holding.consume {e : IndexJobMessage} {ports : ConsumerPorts γ} :
    Prog.Triple (Holding R owes False [e]) (consume ports e) (fun _ => Safe R owes)
      (fun _ => Safe R owes) := by
  unfold Indexing.consume
  refine .bind (Holding.startJob ho (List.mem_cons_self ..)) (fun job => ?_)
  cases job with
  | none =>
      apply triple_ofHandler
      refine .keeps_bind (keeps_callOutcome (fun _ h => h) _) (fun _ _ h => h.holding.safe)
        (fun _ => ?_)
      exact .weaken (Holding.ackMessage ho)
        (fun _ h => ⟨h.holding, Or.inl fun job hjob hid => absurd hid (h.missing rfl job hjob)⟩)
        (fun _ _ h => h.safe) (fun _ _ h => h.safe)
  | some rec =>
      simp only
      cases hfinished : rec.row.status.finished with
      | true =>
          apply triple_ofHandler
          exact .weaken (Holding.ackMessage ho)
            (fun _ h => ⟨h.holding, Or.inl (h.finished rec rfl hfinished)⟩)
            (fun _ _ h => h.safe) (fun _ _ h => h.safe)
      | false =>
          apply triple_ofHandler
          refine .weaken (Working.work ho)
            (fun w h => ⟨h.holding, Or.inl fun e' he' => ?_⟩) (fun _ _ h => h) (fun _ _ h => h)
          rw [List.mem_singleton.mp he']
          exact h.running rec rfl hfinished

/-! ## `drain` -/

omit ho in
theorem Holding.perm {M M' : List IndexJobMessage} {w : World γ} (h : Holding R owes G M w)
    (hperm : M'.Perm M) : Holding R owes G M' w :=
  ⟨h.safe, hperm.subperm.trans h.held, fun hG e he => h.replaced hG e (hperm.subset he)⟩

/-- The loop that starts the jobs: what is settled is not held any more, the rest is pending. -/
theorem Holding.startAll {ports : ConsumerPorts γ} (events : List IndexJobMessage) :
    ∀ X : List IndexJobMessage, Prog.Triple (Holding R owes G (events ++ X)) (startAll ports events)
      (fun pending => Holding R owes G (pending.map (·.event) ++ X)) (fun _ => Safe R owes) := by
  induction events with
  | nil => exact fun X => .pure (fun _ h => h)
  | cons event events ih =>
      intro X
      rw [Indexing.startAll]
      refine .bind (Holding.startJob ho (List.mem_cons_self ..)) (fun job => ?_)
      cases job with
      | none =>
          refine .bind (Q := fun _ => Holding R owes G (events ++ X)) (.write fun w h => ?_)
            (fun _ => ih X)
          exact h.holding.settle ho
            (Or.inl fun job hjob hid => absurd hid (h.missing rfl job hjob))
      | some rec =>
          simp only
          cases hfinished : rec.row.status.finished with
          | true =>
              refine .bind (triple_ofHandler (.weaken (Holding.ackMessage ho)
                (fun _ h => ⟨h.holding, Or.inl (h.finished rec rfl hfinished)⟩)
                (fun _ _ h => h) (fun _ _ h => h.safe))) (fun _ => ih X)
          | false =>
              refine .bind (.weaken (ih (event :: X)) (fun w h => ?_) (fun _ _ h => h)
                (fun _ _ h => h)) (fun pending => .pure fun w h => ?_)
              · exact h.holding.perm List.perm_middle
              · exact h.perm List.perm_middle.symm

omit ho in
theorem resultOf_mem {results : BatchResults} {jobId : String} {result : HandlerResult}
    (h : resultOf results jobId = some result) : ∃ entry ∈ results, entry.2 = result := by
  obtain ⟨entry, hfind, rfl⟩ := Option.map_eq_some_iff.mp h
  exact ⟨entry, List.mem_reverse.mp (List.mem_of_find?_eq_some hfind), rfl⟩

/-- The loop over the results of a batch that was handled. -/
theorem Holding.finishAll {ports : ConsumerPorts γ} {results : BatchResults}
    (hterminal : ∀ entry ∈ results, entry.2.status.terminal = true) (hG : H → G)
    (items : List PendingMessage) (X : List IndexJobMessage) :
    Prog.Triple
      (WithIndexed (Holding R owes G (items.map (·.event) ++ X)) (· ∈ items.map (·.event)))
      (finishAll ports results items) (fun _ => Holding R owes G X) (fun _ => Safe R owes) := by
  induction items with
  | nil => exact .pure (fun _ h => h.1)
  | cons item items ih =>
      rw [Indexing.finishAll]
      cases hresult : resultOf results item.event.jobId with
      | none => exact .raise (fun _ h => h.1.safe)
      | some result =>
          have hstatus : result.status.terminal = true := by
            obtain ⟨entry, hentry, rfl⟩ := resultOf_mem hresult
            exact hterminal entry hentry
          have he : item.event ∈ (item :: items).map (·.event) ++ X := List.mem_cons_self ..
          refine .bind (Q := fun _ w => (Holding R owes G ((item :: items).map (·.event) ++ X) w ∧
            ((∀ job ∈ w.jobs, job.jobId = item.event.jobId → job.status.terminal = true) ∨
              item.event ∈ w.queue)) ∧ ∀ e ∈ items.map (·.event), Indexed e w) ?_ (fun _ => ?_)
          · refine .write (fun w h => ⟨⟨?_, Or.inl (finish_jobDone hstatus)⟩, fun e he' => ?_⟩)
            · exact h.1.finish ho he hstatus (Or.inl ⟨h.2 _ (List.mem_cons_self ..), fun hH =>
                h.1.replaced (hG hH) _ he⟩)
            · exact indexed_congr (h.2 e (List.mem_cons_of_mem _ he')) rfl
          · have hkeep : Prog.Keeps (fun w => ∀ e ∈ items.map (·.event), Indexed e w)
                (Indexing.ackMessage (ports.ack item.event) item.event : Handler γ Unit) :=
              .keeps_bind (.lift _) (fun _ _ h => h)
                (fun _ => .write fun w h e he' => indexed_congr (h e he') rfl)
            exact .bind (.weaken (.and (Holding.ackMessage ho) hkeep) (fun _ h => h) (fun _ _ h => h)
              (fun _ _ h => h.1.safe)) (fun _ => ih)

/-- `_process`: a batch is handled as a whole, or in halves. -/
theorem Holding.process {ports : ConsumerPorts γ} (hG : H → G) :
    ∀ (n : Nat) (pending : List PendingMessage) (X : List IndexJobMessage), pending.length = n →
      Prog.Triple (Holding R owes G (pending.map (·.event) ++ X)) (process ports pending)
        (fun _ => Holding R owes G X) (fun _ => Safe R owes) := by
  intro n
  induction n using Nat.strong_induction_on with
  | _ n ih =>
      intro pending X hlength w hw
      have hbatch : Prog.Triple (Working R H owes G (pending.map (·.event) ++ X))
          (handleBatch ports.handlers (pending.map (·.event)))
          (fun results w => WithIndexed (Working R H owes G (pending.map (·.event) ++ X))
            (· ∈ pending.map (·.event)) w ∧ ∀ entry ∈ results, entry.2.status.terminal = true)
          (fun _ => Working R H owes G (pending.map (·.event) ++ X)) :=
        .weaken (.and ((batchInvariant_working ho).handleBatch
            (fun e he => List.mem_append_left X he)) (finishesAll_handleBatch _))
          (fun _ h => ⟨h, trivial⟩) (fun _ _ h => h) (fun _ _ h => h.1)
      have hrun := hbatch w ⟨hw, Or.inr hG⟩
      rw [Indexing.process]
      cases hresult : handleBatch ports.handlers (pending.map (·.event)) w with
      | mk r w' =>
          rw [hresult] at hrun
          cases r with
          | ok results =>
              exact Holding.finishAll ho hrun.2 hG pending X w' ⟨hrun.1.1.toHolding, hrun.1.2⟩
          | error e =>
              by_cases hcancelled : e = .cancelled
              · simp only [hcancelled, if_true]
                exact hrun.safe
              · simp only [hcancelled, if_false]
                rcases pending with _ | ⟨item, _ | ⟨item', items⟩⟩
                · exact hrun.toHolding
                · exact Holding.failMessage ho w' hrun.toHolding
                · have hsplit : Holding R owes G
                      (((item :: item' :: items).take ((items.length + 2) / 2)).map (·.event) ++
                        (((item :: item' :: items).drop ((items.length + 2) / 2)).map (·.event) ++
                          X)) w' := by
                    rw [← List.append_assoc, ← List.map_append, List.take_append_drop]
                    exact hrun.toHolding
                  simp only [List.length_cons] at hlength
                  refine Prog.Triple.bind (ih _ ?_ _ _ rfl) (fun _ => ih _ ?_ _ X rfl) w' hsplit
                  · simp only [List.length_take, List.length_cons]
                    omega
                  · simp only [List.length_drop, List.length_cons]
                    omega

/-- **`drain` keeps the invariant**, on a batch of which, if `H` matters, no case replaces an approved
one. -/
theorem Holding.drain {ports : ConsumerPorts γ} (hG : H → G) (messages : List IndexJobMessage) :
    Prog.Triple (Holding R owes G messages) (drain ports messages) (fun _ => Safe R owes)
      (fun _ => Safe R owes) := by
  unfold Indexing.drain
  refine .bind (.weaken (Holding.startAll ho messages []) (fun _ h => by rwa [List.append_nil])
    (fun _ _ h => h) (fun _ _ h => h)) (fun pending => ?_)
  have hgroups : ∀ gs : List (List PendingMessage), Prog.Triple
      (Holding R owes G (gs.flatten.map (·.event)))
      (gs.forM (fun group => ofHandler (Indexing.process ports group)) : Worker γ PUnit)
      (fun _ => Safe R owes) (fun _ => Safe R owes) := by
    intro gs
    induction gs with
    | nil => exact .pure (fun _ h => h.safe)
    | cons group gs ih =>
        rw [List.flatten_cons, List.map_append]
        exact .bind (triple_ofHandler (Holding.process ho hG _ group _ rfl)) (fun _ => ih)
  refine .weaken (hgroups (groups pending)) (fun w h => ?_) (fun _ _ h => h) (fun _ _ h => h)
  rw [List.append_nil] at h
  exact h.perm ((groups_perm pending).map _)

end

end EnergyAgent.Cases
