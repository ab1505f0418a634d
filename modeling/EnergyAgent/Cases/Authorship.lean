import EnergyAgent.Cases.ReviewReplay

/-!
# Who has written what

Every event, every author and every reviewer in the case tables is the actor of a request. The workers
sign nothing: they change cases without an event and leave `created_by` and `reviewer` alone. Whoever
appends an event gives it a key that no event of the case has.
-/

namespace EnergyAgent.Cases

open EnergyAgent.Core EnergyAgent.Lib EnergyAgent.Persistence EnergyAgent.Indexing

variable {γ : Type}

/-! ## Signatures -/

/-- The event is one of the actor. -/
def Names (event : CaseReviewEventModel) (actor : ActorContext) : Prop :=
  event.actorId = actor.actorId ∧ event.actorRole = actor.actorRole.value

/-- Whatever is new in the case tables has been signed by an actor of whom `P` holds. -/
structure Signed (P : ActorContext → Prop) (w w' : World γ) : Prop where
  events : ∀ e ∈ w'.caseEvents, e ∈ w.caseEvents ∨ ∃ actor, P actor ∧ Names e actor
  createdBy : ∀ row' ∈ w'.cases, (∃ row ∈ w.cases, row.createdBy = row'.createdBy) ∨
    ∃ actor, P actor ∧ row'.createdBy = actor.actorId
  reviewer : ∀ row' ∈ w'.cases, ∀ name, row'.reviewer = some name →
    (∃ row ∈ w.cases, row.reviewer = some name) ∨ ∃ actor, P actor ∧ name = actor.actorId

section signed

variable {P : ActorContext → Prop} {w w' : World γ}

theorem Signed.mono {P' : ActorContext → Prop} (himp : ∀ actor, P actor → P' actor)
    (h : Signed P w w') : Signed P' w w' := by
  refine ⟨fun e he => ?_, fun row hrow => ?_, fun row hrow name hname => ?_⟩
  · rcases h.events e he with hold | ⟨actor, hP, hby⟩
    · exact Or.inl hold
    · exact Or.inr ⟨actor, himp actor hP, hby⟩
  · rcases h.createdBy row hrow with hold | ⟨actor, hP, hby⟩
    · exact Or.inl hold
    · exact Or.inr ⟨actor, himp actor hP, hby⟩
  · rcases h.reviewer row hrow name hname with hold | ⟨actor, hP, hby⟩
    · exact Or.inl hold
    · exact Or.inr ⟨actor, himp actor hP, hby⟩

/-- Nothing is new. -/
theorem Signed.of_same (hcases : w'.cases = w.cases) (hevents : w'.caseEvents = w.caseEvents) :
    Signed P w w' := by
  refine ⟨fun e he => Or.inl (hevents ▸ he), fun row hrow => ?_, fun row hrow name hname => ?_⟩
  · rw [hcases] at hrow
    exact Or.inl ⟨row, hrow, rfl⟩
  · rw [hcases] at hrow
    exact Or.inl ⟨row, hrow, hname⟩

/-- Cases are rewritten by someone who may sign as their reviewer, with the events of the same. -/
theorem Signed.of_update {k : String} {f : DiagnosisCaseModel → DiagnosisCaseModel}
    {events : List CaseReviewEventModel} (hcases : w'.cases = (w.updateCase k f).cases)
    (hevents : w'.caseEvents = w.caseEvents ++ events) (hcreated : ∀ r, (f r).createdBy = r.createdBy)
    (hreviewer : ∀ r, (f r).reviewer = r.reviewer ∨ ∃ actor, P actor ∧ (f r).reviewer = some actor.actorId)
    (hsigned : ∀ e ∈ events, ∃ actor, P actor ∧ Names e actor) : Signed P w w' := by
  have hrows : ∀ row' ∈ w'.cases, ∃ row ∈ w.cases, row' = row ∨ row' = f row := by
    intro row' hrow'
    rw [hcases] at hrow'
    obtain ⟨row, hrow, rfl⟩ := List.mem_map.mp hrow'
    refine ⟨row, hrow, ?_⟩
    split
    · exact Or.inr rfl
    · exact Or.inl rfl
  refine ⟨fun e he => ?_, fun row' hrow' => ?_, fun row' hrow' name hname => ?_⟩
  · rw [hevents] at he
    exact (List.mem_append.mp he).imp_right (hsigned e)
  · obtain ⟨row, hrow, rfl | rfl⟩ := hrows row' hrow'
    · exact Or.inl ⟨_, hrow, rfl⟩
    · exact Or.inl ⟨row, hrow, (hcreated row).symm⟩
  · obtain ⟨row, hrow, rfl | rfl⟩ := hrows row' hrow'
    · exact Or.inl ⟨_, hrow, hname⟩
    · rcases hreviewer row with hsame | ⟨actor, hP, hby⟩
      · exact Or.inl ⟨row, hrow, hsame.symm.trans hname⟩
      · refine Or.inr ⟨actor, hP, ?_⟩
        rw [hby] at hname
        exact (Option.some.inj hname).symm

/-- Cases are rewritten, and nobody signs. -/
theorem Signed.of_index {k : String} {f : DiagnosisCaseModel → DiagnosisCaseModel}
    (hcases : w'.cases = (w.updateCase k f).cases) (hevents : w'.caseEvents = w.caseEvents)
    (hcreated : ∀ r, (f r).createdBy = r.createdBy) (hreviewer : ∀ r, (f r).reviewer = r.reviewer) :
    Signed P w w' := by
  have hnone : ∀ e ∈ ([] : List CaseReviewEventModel), ∃ actor, P actor ∧ Names e actor :=
    fun e he => by cases he
  exact .of_update hcases (hevents.trans (List.append_nil _).symm) hcreated
    (fun r => Or.inl (hreviewer r)) hnone

/-- A case is added by its author. -/
theorem Signed.of_insert {row : DiagnosisCaseModel} (hcases : w'.cases = w.cases ++ [row])
    (hevents : w'.caseEvents = w.caseEvents) (hreviewer : row.reviewer = none)
    (hcreated : ∃ actor, P actor ∧ row.createdBy = actor.actorId) : Signed P w w' := by
  refine ⟨fun e he => Or.inl (hevents ▸ he), fun row' hrow' => ?_, fun row' hrow' name hname => ?_⟩
  · rw [hcases] at hrow'
    rcases List.mem_append.mp hrow' with hold | hnew
    · exact Or.inl ⟨row', hold, rfl⟩
    · rw [List.mem_singleton.mp hnew]
      exact Or.inr hcreated
  · rw [hcases] at hrow'
    rcases List.mem_append.mp hrow' with hold | hnew
    · exact Or.inl ⟨row', hold, hname⟩
    · rw [List.mem_singleton.mp hnew, hreviewer] at hname
      cases hname

end signed

/-! ## Keys -/

/-- At most one event is appended, and its key is new to the case. -/
def Keyed (w w' : World γ) : Prop :=
  w'.caseEvents = w.caseEvents ∨ ∃ e : CaseReviewEventModel,
    w'.caseEvents = w.caseEvents ++ [e] ∧ e.idempotencyKey.bind (idempotentEvent w e.caseId) = none

theorem Keyed.of_addEvent {event : CaseReviewEventModel} {w w₁ w' : World γ}
    (hadd : addEvent event w = .ok w₁) (hevents : w'.caseEvents = w₁.caseEvents) : Keyed w w' := by
  unfold addEvent at hadd
  split at hadd
  · cases hadd
  · next hfree =>
      cases hadd
      exact Or.inr ⟨event, hevents, by simpa using hfree⟩

theorem applyTransition_keyed {indexRepository replayed : Bool} {t : CaseTransition} {jobId : String}
    {row : DiagnosisCaseModel} {w w' : World γ}
    (h : applyTransition indexRepository t jobId w = .ok ((row, replayed), w')) : Keyed w w' := by
  unfold applyTransition at h
  split at h
  · cases h
  · split at h
    · split at h
      · cases h
      · cases h
        exact Or.inl rfl
    · split at h
      · cases h
      · obtain ⟨w₁, hadd, h⟩ := Prog.except_bind_eq_ok h
        obtain ⟨w₂, hjob, h⟩ := Prog.except_bind_eq_ok h
        cases h
        exact .of_addEvent (w := w.updateCase t.caseId t.rewrite) hadd (addIndexJob_caseTables hjob).2

theorem applyQueueIndex_keyed {caseId jobId : String} {request : IndexJobCreate}
    {event : CaseStatus → CaseReviewEventModel} {row : DiagnosisCaseModel} {w w' : World γ}
    (h : applyQueueIndex caseId request event jobId w = .ok (row, w')) : Keyed w w' := by
  unfold applyQueueIndex at h
  split at h
  · cases h
  · obtain ⟨w₁, hadd, h⟩ := Prog.except_bind_eq_ok h
    obtain ⟨w₂, hjob, h⟩ := Prog.except_bind_eq_ok h
    cases h
    exact .of_addEvent (w := w.updateCase caseId queuedRow) hadd (addIndexJob_caseTables hjob).2

/-- The access is signed by an actor of whom `P` holds, and repeats no key of a case. -/
structure Logged (P : ActorContext → Prop) (w w' : World γ) : Prop extends Signed P w w' where
  keyed : Keyed w w'

section logged

variable {P : ActorContext → Prop} {w w' : World γ}

theorem Logged.of_same (hcases : w'.cases = w.cases) (hevents : w'.caseEvents = w.caseEvents) :
    Logged P w w' :=
  ⟨.of_same hcases hevents, Or.inl hevents⟩

theorem Logged.of_index {k : String} {f : DiagnosisCaseModel → DiagnosisCaseModel}
    (hcases : w'.cases = (w.updateCase k f).cases) (hevents : w'.caseEvents = w.caseEvents)
    (hcreated : ∀ r, (f r).createdBy = r.createdBy) (hreviewer : ∀ r, (f r).reviewer = r.reviewer) :
    Logged P w w' :=
  ⟨.of_index hcases hevents hcreated hreviewer, Or.inl hevents⟩

end logged

/-! ## The case service -/

section service

variable {P : ActorContext → Prop} {settings : CaseSettings} {call : CaseCall}

theorem signs_quiet {ε α : Type} {mark : Access} {x : Prog (World γ) ε α} (h : LeavesCases x) :
    (Thread.atomic mark x).Each (Logged P) :=
  .atomic fun w => .of_same (h w).1 (h w).2

theorem signs_fetch (caseId : String) :
    (Interleaved.access (fetch caseId : Service γ DiagnosisCase)).Each (Logged P) := by
  refine signs_quiet fun w => ?_
  cases hrun : fetch caseId w with
  | mk r w' =>
      obtain ⟨rfl, -⟩ := fetch_cases hrun
      exact ⟨rfl, rfl⟩

theorem signs_setIndex {mark : Access} {caseId : String} {status : CaseIndexStatus}
    {errorCode text : Option String} {active : Bool} :
    (Thread.atomic mark (setIndex caseId status errorCode text active : Service γ _)).Each
      (Logged P) := by
  refine .atomic fun w => ?_
  unfold setIndex
  rcases validated_snd (applySetIndex caseId status errorCode text active) caseRecord w with
    ⟨e, hrun⟩ | ⟨row, w', happly, hrun⟩
  · rw [hrun]
    exact .of_same rfl rfl
  · rw [hrun]
    unfold applySetIndex at happly
    split at happly
    · cases happly
    · cases happly
      exact .of_index rfl rfl (fun _ => rfl) fun _ => rfl

/-- A transition of the actor, who may become the reviewer by it. -/
theorem signs_transition {mark : Access} {indexRepository : Bool} {t : CaseTransition} {jobId : String}
    {actor : ActorContext} (hP : P actor) (hid : t.actorId = actor.actorId)
    (hrole : t.actorRole = actor.actorRole.value) (hcreated : ∀ r, (t.updates r).createdBy = r.createdBy)
    (hreviewer : ∀ r, (t.updates r).reviewer = r.reviewer ∨
      (t.updates r).reviewer = some actor.actorId) :
    (Thread.atomic mark (transition indexRepository t jobId : Service γ _)).Each (Logged P) := by
  refine .atomic fun w => ?_
  have hwrite : ∀ {row replayed w'}, applyTransition indexRepository t jobId w = .ok ((row, replayed), w') →
      Logged P w w' := by
    intro row replayed w' happly
    rcases applyTransition_eq_ok happly with ⟨-, rfl, -⟩ | ⟨-, model, -, -, -, -, hjob⟩
    · exact .of_same rfl rfl
    · obtain ⟨hcases, hevents⟩ := addIndexJob_caseTables hjob
      refine ⟨.of_update hcases hevents (fun r => hcreated _) (fun r => ?_) fun e he => ?_,
        applyTransition_keyed happly⟩
      · exact (hreviewer { r with reviewStatus := t.target }).imp_right fun h => ⟨actor, hP, h⟩
      · rw [List.mem_singleton.mp he]
        exact ⟨actor, hP, hid, hrole⟩
  rcases transition_cases indexRepository t jobId w with
    ⟨e, hrun⟩ | ⟨row', replayed, w', happly, ⟨e, hrun⟩ | ⟨case, -, hrun⟩⟩
  · rw [hrun]
    exact .of_same rfl rfl
  · rw [hrun]
    exact hwrite happly
  · rw [hrun]
    exact hwrite happly

theorem signed_create {values : Option DiagnosisCaseModel}
    (h : ∀ row, values = some row → row.reviewer = none ∧
      ∃ actor, P actor ∧ row.createdBy = actor.actorId)
    (w : World γ) : Logged P w (create values w).2 := by
  unfold create
  rcases validated_snd (insertCase values) caseRecord w with ⟨e, hrun⟩ | ⟨row, w', hinsert, hrun⟩
  · rw [hrun]
    exact .of_same rfl rfl
  · rw [hrun]
    obtain ⟨hvalues, -, rfl⟩ := insertCase_eq_ok hinsert
    obtain ⟨hreviewer, hcreated⟩ := h row hvalues
    exact ⟨.of_insert rfl rfl hreviewer hcreated, Or.inl rfl⟩

theorem signs_create {values : Option DiagnosisCaseModel}
    (h : ∀ row, values = some row → row.reviewer = none ∧
      ∃ actor, P actor ∧ row.createdBy = actor.actorId) :
    (Interleaved.access (create values : Service γ _)).Each (Logged P) :=
  .atomic (signed_create h)

theorem signs_appendEvent {event : CaseReviewEventModel} {actor : ActorContext} (hP : P actor)
    (hby : Names event actor) : (Interleaved.appendEvent event : ServiceThread γ Unit).Each (Logged P) := by
  refine .atomic fun w => ?_
  unfold Cases.appendEvent
  rcases transaction_cases (fun w => (addEvent event w).map ((), ·)) w with
    ⟨e, hrun⟩ | ⟨a, w', hadd, hrun⟩
  · rw [hrun]
    exact .of_same rfl rfl
  · rw [hrun]
    obtain ⟨w'', hadd', heq⟩ := Prog.except_map_eq_ok hadd
    cases heq
    have hkeyed : Keyed w w' := .of_addEvent hadd' rfl
    rw [addEvent_eq_ok hadd'] at hkeyed ⊢
    refine ⟨⟨fun e he => ?_, fun row hrow => Or.inl ⟨row, hrow, rfl⟩,
      fun row hrow name hname => Or.inl ⟨row, hrow, hname⟩⟩, hkeyed⟩
    refine (List.mem_append.mp he).imp_right fun hnew => ?_
    rw [List.mem_singleton.mp hnew]
    exact ⟨actor, hP, hby⟩

theorem signs_index (case : DiagnosisCase) :
    (Interleaved.index call case : ServiceThread γ _).Each (Logged P) := by
  refine .handle (.bind (.lift _) fun embedded => .bind (signs_quiet ?_) fun _ => signs_setIndex)
    fun _ => signs_setIndex
  exact leavesCases_vectorCall (upsertCollection_caseTables _ _)

theorem signs_tombstone (case : DiagnosisCase) :
    (Interleaved.tombstone call case : ServiceThread γ _).Each (Logged P) := by
  refine .handle (.bind (signs_quiet ?_) fun _ => signs_setIndex) fun _ => signs_setIndex
  unfold deleteCaseVector
  split
  · exact fun _ => ⟨rfl, rfl⟩
  · exact leavesCases_vectorCall fun _ => ⟨rfl, rfl⟩

variable (hP : P call.actor)
include hP

theorem signs_withdrawal {current : DiagnosisCase} {caseId action jobId : String} {target : CaseStatus}
    {hash : RequestFingerprint} {key comment : Option String} :
    (Interleaved.access (transition settings.indexRepository
      (withdrawal settings call current caseId target action hash key comment) jobId :
        Service γ _)).Each (Logged P) :=
  signs_transition hP rfl rfl (fun _ => rfl) fun _ => Or.inl rfl

theorem signs_supersede (caseId : String) :
    (Interleaved.supersede settings call caseId : ServiceThread γ Unit).Each (Logged P) := by
  refine .bind (signs_fetch caseId) fun current => .bind (signs_withdrawal hP) fun result => ?_
  cases settings.indexExecutionMode with
  | sync => exact .bind (signs_tombstone _) fun _ => .pure _
  | rabbitmq => exact .pure _

theorem signs_submit (caseId : String) :
    (Interleaved.submit settings call caseId : ServiceThread γ _).Each (Logged P) := by
  refine .bind (signs_fetch caseId) fun case => .bind (.raiseIf _ _) fun _ =>
    .bind (.raiseIf _ _) fun _ => .bind ?_ fun _ => .pure _
  exact signs_transition hP rfl rfl (fun _ => rfl) fun _ => Or.inl rfl

theorem signs_afterApproval (approved : DiagnosisCase) :
    (Interleaved.afterApproval settings call approved : ServiceThread γ _).Each (Logged P) := by
  refine .bind ?_ fun updated => ?_
  · unfold Interleaved.indexApproved
    split
    · exact signs_index approved
    · exact .pure _
  · unfold Interleaved.supersedeReplaced
    split
    · exact .bind (signs_supersede hP _) fun _ => .pure _
    · exact .pure _

theorem signs_reviewCase (caseId : String) (payload : CaseReviewRequest) :
    (Interleaved.reviewCase settings call caseId payload : ServiceThread γ _).Each (Logged P) := by
  refine .bind (signs_fetch caseId) fun case => .bind (.raiseIf _ _) fun _ => .bind ?_ fun result => ?_
  · refine signs_transition hP rfl rfl (fun r => ?_) fun r => Or.inr ?_
    · exact (reviewedRow_same settings call payload r).1.createdBy
    · exact (reviewedRow_same settings call payload r).2.2.1
  · split
    · exact .pure _
    · exact signs_afterApproval hP _

theorem signs_disable (caseId : String) (payload : CaseDisableRequest) :
    (Interleaved.disable settings call caseId payload : ServiceThread γ _).Each (Logged P) := by
  refine .bind (signs_fetch caseId) fun current => .bind (signs_withdrawal hP) fun result => ?_
  cases settings.indexExecutionMode with
  | sync => exact signs_tombstone _
  | rabbitmq => exact .pure _

theorem signs_revision (caseId : String) (payload : CaseRevisionRequest) :
    (Interleaved.revision settings call caseId payload : ServiceThread γ _).Each (Logged P) := by
  refine .bind (signs_fetch caseId) fun original => .bind ?_ fun replay => ?_
  · refine .bind (signs_quiet (.read _)) fun event => ?_
    cases event with
    | none => exact .pure _
    | some event =>
        refine .bind (.raiseIf _ _) fun _ => ?_
        split
        · exact .pure _
        · refine signs_quiet (.of_keeps fun w => keeps_get _)
  · cases replay with
    | some existing => exact .pure _
    | none =>
        refine .bind (.raiseIf _ _) fun _ => .bind (signs_quiet (.read _)) fun version => .bind ?_
          fun created => .bind (signs_appendEvent hP ⟨rfl, rfl⟩) fun _ => ?_
        · refine signs_create fun row hrow => ?_
          obtain ⟨rootCause, -, rfl⟩ := Option.map_eq_some_iff.mp hrow
          exact ⟨rfl, call.actor, hP, rfl⟩
        · split
          · exact signs_submit hP _
          · exact .pure _

theorem signs_queueIndex {caseId action jobId : String} {request : IndexJobCreate} :
    (Interleaved.access (queueIndex settings.indexRepository caseId request
      (reindexEvent call caseId action) jobId : Service γ _)).Each (Logged P) := by
  refine .atomic fun w => ?_
  cases hrun : queueIndex settings.indexRepository caseId request (reindexEvent call caseId action)
    jobId w with
  | mk r w' =>
      unfold queueIndex at hrun
      rcases Prog.bind_cases hrun with ⟨e, hraise, -⟩ | ⟨_, w₁, hraise, hqueue⟩
      · obtain ⟨rfl, -⟩ := Prog.raiseIf_cases hraise
        exact .of_same rfl rfl
      · obtain ⟨rfl, -⟩ := Prog.raiseIf_cases hraise
        rcases validated_snd (applyQueueIndex caseId request (reindexEvent call caseId action)
          jobId) caseRecord w₁ with ⟨e, hend⟩ | ⟨row, w₂, happly, hend⟩
        · rw [hend] at hqueue
          cases hqueue
          exact .of_same rfl rfl
        · rw [hend] at hqueue
          cases hqueue
          obtain ⟨model, rec, -, -, hadd⟩ := applyQueueIndex_eq_ok happly
          obtain ⟨hcases, hevents⟩ := addJob_caseTables hadd
          refine ⟨.of_update hcases hevents (fun _ => rfl) (fun _ => Or.inl rfl) fun e he => ?_,
            applyQueueIndex_keyed happly⟩
          rw [List.mem_singleton.mp he]
          exact ⟨call.actor, hP, rfl, rfl⟩

theorem signs_reindex (caseId : String) :
    (Interleaved.reindex settings call caseId : ServiceThread γ _).Each (Logged P) := by
  refine .bind (signs_fetch caseId) fun case => .bind (signs_quiet (.read _)) fun event => ?_
  cases event with
  | some event => exact .bind (.raiseIf _ _) fun _ => signs_fetch caseId
  | none =>
      show (Interleaved.runReindex settings call caseId case : ServiceThread γ _).Each _
      unfold Interleaved.runReindex
      split
      · exact .raise _
      · split
        · exact signs_queueIndex hP
        · refine .bind (signs_appendEvent hP ⟨rfl, rfl⟩) fun _ => ?_
          split
          · exact signs_tombstone _
          · exact signs_index _

/-- **A request signs with its actor**, whatever the others do meanwhile. -/
theorem signs_request (r : CaseRequest) :
    (Interleaved.request settings call r : ServiceThread γ _).Each (Logged P) := by
  cases r with
  | createDraft draft =>
      refine .bind (signs_quiet (.read _)) fun version => signs_create fun row hrow => ?_
      cases hrow
      exact ⟨rfl, call.actor, hP, rfl⟩
  | patch caseId payload =>
      refine .bind (signs_quiet fun _ => ⟨rfl, rfl⟩) fun model => ?_
      split
      · exact .raise _
      · refine .bind (.atomic fun w => ?_) fun _ => .lift _
        exact .of_index rfl rfl (fun _ => rfl) fun _ => rfl
  | submit caseId => exact signs_submit hP caseId
  | review caseId payload => exact signs_reviewCase hP caseId payload
  | disable caseId payload => exact signs_disable hP caseId payload
  | revision caseId payload => exact signs_revision hP caseId payload
  | reindex caseId => exact signs_reindex hP caseId

end service

/-! ## The workers -/

section workers

variable {P : ActorContext → Prop} {ports : IndexPorts γ} {event : IndexJobMessage}

theorem signs_activate {jobId caseId text : String} {degraded : Bool} :
    (Interleaved.activate jobId caseId degraded text : HandlerThread γ Unit).Each (Logged P) :=
  .atomic fun _ => .of_index rfl rfl (fun _ => rfl) fun _ => rfl

theorem signs_supersedeOriginal (case : DiagnosisCaseModel) :
    (Interleaved.supersedeOriginal ports event case).Each (Logged P) := by
  unfold Interleaved.supersedeOriginal
  split
  · next old _ =>
      refine .atomic fun w => ?_
      cases hrun : queueSupersededCase ports event old w with
      | mk r w' =>
          unfold queueSupersededCase at hrun
          rcases Prog.bind_cases hrun with ⟨e, hraise, -⟩ | ⟨_, w₁, hraise, hqueue⟩
          · obtain ⟨rfl, -⟩ := Prog.raiseIf_cases hraise
            exact .of_same rfl rfl
          · obtain ⟨rfl, -⟩ := Prog.raiseIf_cases hraise
            rcases transaction_cases (supersedeOld event (ports.newJobId event).val old) w₁ with
              ⟨e, htx⟩ | ⟨_, w₂, hsupersede, htx⟩
            · rw [htx] at hqueue
              cases hqueue
              exact .of_same rfl rfl
            · rw [htx] at hqueue
              cases hqueue
              rcases supersedeOld_cases hsupersede with ⟨rfl, -⟩ | ⟨row, rec, -, -, hadd⟩
              · exact .of_same rfl rfl
              · obtain ⟨hcases, hevents⟩ := addJob_caseTables hadd
                exact .of_index hcases hevents (fun _ => rfl) fun _ => rfl
  · exact .pure _

theorem signs_handleCase : (Interleaved.handleCase ports event).Each (Logged P) := by
  refine .bind (signs_quiet fun _ => ⟨rfl, rfl⟩) fun found => .bind (.lift _) fun case => ?_
  split
  · refine .bind (signs_quiet (leavesCases_callOutcome fun _ => ⟨rfl, rfl⟩)) fun _ =>
      .bind (signs_quiet (leavesCases_of_sameButGraph fun _ => keeps_unprojectCase)) fun _ =>
      .bind (.atomic fun w => ?_) fun _ => .pure _
    exact .of_index rfl rfl (fun _ => rfl) fun _ => rfl
  · refine .bind (.lift _) fun text => .bind (.lift _) fun vector => .bind (signs_quiet ?_) fun _ =>
      .bind (signs_quiet leavesCases_projectCase) fun degraded => .bind signs_activate fun _ =>
      .bind (signs_supersedeOriginal case) fun _ => .pure _
    exact leavesCases_callOutcome (upsertCollection_caseTables _ _)

theorem signs_handle : (Interleaved.handle ports event).Each (Logged P) := by
  unfold Interleaved.handle
  split
  · exact signs_handleCase
  · next htype => exact signs_quiet (leavesCases_handle htype)

end workers

section consumers

variable {P : ActorContext → Prop} {ports : ConsumerPorts γ} {event : IndexJobMessage}

theorem signs_ofHandler {α : Type} {x : HandlerThread γ α} (h : x.Each (Logged P)) :
    (Interleaved.ofHandler x).Each (Logged P) := .handle h fun _ => .raise _

theorem signs_ack {jobId : String} {outcome : Except PortError Unit} :
    (Interleaved.work jobId (ackMessage outcome event) : HandlerThread γ Unit).Each (Logged P) :=
  signs_quiet leavesCases_ackMessage

theorem signs_publishAndAck (dead : Bool) :
    (Interleaved.publishAndAck event ports dead).Each (Logged P) := by
  refine .bind (signs_quiet (leavesCases_callOutcome fun w => ?_)) fun _ => signs_ack
  cases dead <;> exact ⟨rfl, rfl⟩

theorem signs_finish {ε : Type} {jobId : String} {status : IndexJobStatus} :
    (Interleaved.workAs jobId .finish (Prog.write (finish jobId status)) :
      Thread Access (World γ) ε Unit).Each (Logged P) :=
  signs_quiet fun _ => ⟨rfl, rfl⟩

theorem signs_failMessage {attemptCount : Nat} {maxAttempts : MaxAttempts} {e : HandlerError} :
    (Interleaved.failMessage event ports attemptCount maxAttempts e).Each (Logged P) := by
  refine .bind (.atomic fun w => ?_) fun _ => signs_publishAndAck _
  show Logged P w (fail event.jobId e.code e.typeName (!deadLettered attemptCount maxAttempts e) w)
  unfold fail
  cases w.getJob event.jobId with
  | none => exact .of_same rfl rfl
  | some job =>
      cases !deadLettered attemptCount maxAttempts e with
      | true => exact .of_same rfl rfl
      | false =>
          show Logged P w (failEntity job e.code (w.updateJob event.jobId _))
          unfold failEntity
          cases job.entityType with
          | diagnosisCase => exact .of_index rfl rfl (fun _ => rfl) fun _ => rfl
          | maintenanceTicket => exact .of_same rfl rfl
          | manualDocument => exact .of_same rfl rfl
          | templateGraph => exact .of_same rfl rfl

theorem signs_start {jobId : String} :
    (Interleaved.workAs jobId .start (startJob jobId) : WorkerThread γ _).Each (Logged P) := by
  refine signs_quiet fun w => ?_
  unfold startJob
  rcases transaction_cases _ w with ⟨e, hrun⟩ | ⟨rec, w', hstart, hrun⟩
  · rw [hrun]
    exact ⟨rfl, rfl⟩
  · rw [hrun]
    split at hstart
    · next result hok =>
        cases hstart
        rcases start_cases hok with ⟨-, -, rfl⟩ | ⟨_, _, -, -, ⟨-, -, rfl⟩ | ⟨-, -, rfl⟩⟩ <;>
          exact ⟨rfl, rfl⟩
    · cases hstart

theorem signs_finishMessage {status : IndexJobStatus} :
    (Interleaved.finishMessage event ports status).Each (Logged P) :=
  .bind signs_finish fun _ => signs_ack

theorem signs_consume : (Interleaved.consume event ports).Each (Logged P) := by
  refine .bind signs_start fun job => ?_
  cases job with
  | none => exact signs_ofHandler (signs_publishAndAck true)
  | some job =>
      show (if job.row.status.finished = true then _ else _ : WorkerThread γ Unit).Each _
      split
      · exact signs_ofHandler signs_ack
      · refine signs_ofHandler (.handle (.bind signs_handle fun _ => signs_finishMessage) fun e => ?_)
        cases e with
        | cancelled => exact .raise _
        | stale => exact .bind signs_finish fun _ => signs_ack
        | _ => exact signs_failMessage

/-! ### The batch drainer -/

theorem signs_startAll (events : List IndexJobMessage) :
    (Interleaved.startAll ports events).Each (Logged P) := by
  induction events with
  | nil => exact .pure _
  | cons event events ih =>
      refine .bind signs_start fun job => ?_
      cases job with
      | none => exact .bind (signs_quiet fun _ => ⟨rfl, rfl⟩) fun _ => ih
      | some job =>
          show (if job.row.status.finished = true then _ else _ : WorkerThread γ _).Each _
          split
          · exact .bind (signs_ofHandler signs_ack) fun _ => ih
          · exact .bind ih fun _ => .pure _

theorem signs_handleEach (events : List IndexJobMessage) :
    (Interleaved.handleEach ports events).Each (Logged P) := by
  induction events with
  | nil => exact .pure _
  | cons event events ih => exact .bind signs_handle fun _ => .bind ih fun _ => .pure _

theorem signs_indexCases (tasks : List CaseTask) :
    (Interleaved.indexCases ports tasks).Each (Logged P) := by
  induction tasks with
  | nil => exact .pure _
  | cons task tasks ih =>
      exact .bind (signs_quiet leavesCases_projectCase) fun _ => .bind signs_activate fun _ =>
        .bind ih fun _ => .pure _

theorem signs_handleBatch (events : List IndexJobMessage) :
    (Interleaved.handleBatch ports events).Each (Logged P) := by
  unfold Interleaved.handleBatch
  split
  · refine signs_quiet (.of_keeps fun w => keeps_ticketBatch fun hsame h => ?_)
    exact ⟨hsame.cases.trans h.1, hsame.caseEvents.trans h.2⟩
  · refine .bind (signs_quiet fun _ => ⟨rfl, rfl⟩) fun ordered => .bind (.lift _) fun tasks =>
      .bind (.lift _) fun vectors => .bind (signs_quiet ?_) fun _ => signs_indexCases tasks
    exact leavesCases_callOutcome (upsertCollection_caseTables _ _)
  · exact signs_handleEach events

theorem signs_finishAll {results : BatchResults} (items : List PendingMessage) :
    (Interleaved.finishAll ports results items).Each (Logged P) := by
  induction items with
  | nil => exact .pure _
  | cons item items ih =>
      unfold Interleaved.finishAll
      split
      · exact .raise _
      · exact .bind signs_finishMessage fun _ => ih

/-- `_process`, by the length of the batch. -/
theorem signs_process (n : Nat) : ∀ pending : List PendingMessage, pending.length = n →
    (Interleaved.process ports pending).Each (Logged P) := by
  induction n using Nat.strong_induction_on with
  | _ n ih =>
      intro pending hlength
      rw [Interleaved.process]
      refine .bind (.handle (.bind (signs_handleBatch _) fun _ => .pure _) fun _ => .pure _) fun result => ?_
      cases result with
      | ok results => exact signs_finishAll pending
      | error e =>
          show (if e = .cancelled then _ else _ : HandlerThread γ Unit).Each _
          split
          · exact .raise _
          · rcases pending with _ | ⟨item, _ | ⟨item', items⟩⟩
            · exact .pure _
            · exact signs_failMessage
            · rw [List.length_cons, List.length_cons] at hlength
              have htake : ((item :: item' :: items).take ((items.length + 2) / 2)).length < n := by
                simp only [List.length_take, List.length_cons]
                omega
              have hdrop : ((item :: item' :: items).drop ((items.length + 2) / 2)).length < n := by
                simp only [List.length_drop, List.length_cons]
                omega
              exact .bind (ih _ htake _ rfl) fun _ => ih _ hdrop _ rfl

theorem signs_drain (messages : List IndexJobMessage) :
    (Interleaved.drain ports messages).Each (Logged P) := by
  refine .bind (signs_startAll messages) fun pending => ?_
  show ((groups pending).forM fun group => Interleaved.ofHandler (Interleaved.process ports group) :
    WorkerThread γ PUnit).Each _
  induction groups pending with
  | nil => exact .pure _
  | cons group groups ih => exact .bind (signs_ofHandler (signs_process _ group rfl)) fun _ => ih

end consumers

/-! ## Everything that goes on -/

section activity

variable {P : ActorContext → Prop}

theorem signs_worker (events : List IndexJobMessage) {x : WorkerThread γ Unit} (h : x.Each (Logged P)) :
    (Interleaved.worker events x).Each (Logged P) := by
  refine .bind (signs_quiet fun w => ?_) fun given => ?_
  · by_cases hsub : events.Subperm w.queue
    · rw [if_pos hsub]
      exact receiveAll_caseTables events w
    · rw [if_neg hsub]
      exact ⟨rfl, rfl⟩
  · split
    · exact .handle h fun e => .bind (signs_quiet fun _ => ⟨rfl, rfl⟩) fun _ => .raise _
    · exact .pure _

theorem signs_publish (outboxId : Nat) (outcome : PublishOutcome) :
    (Interleaved.publish outboxId outcome : WorkerThread γ Unit).Each (Logged P) := by
  have hwrite : ∀ f : World γ → World γ, (∀ w, (f w).cases = w.cases ∧ (f w).caseEvents = w.caseEvents) →
      (Thread.atomic {} (Prog.write f) : WorkerThread γ Unit).Each (Logged P) :=
    fun f h => signs_quiet (.write h)
  refine .bind (signs_quiet (.read _)) fun found => ?_
  cases found with
  | none => exact .pure _
  | some row =>
      show (if row.publishStatus = .pending then _ else _ : WorkerThread γ Unit).Each _
      split
      · cases outcome with
        | published =>
            exact .bind (hwrite _ fun _ => ⟨rfl, rfl⟩) fun _ => hwrite _ fun _ => ⟨rfl, rfl⟩
        | failed => exact hwrite _ fun _ => ⟨rfl, rfl⟩
        | unmarked =>
            exact .bind (hwrite _ fun _ => ⟨rfl, rfl⟩) fun _ => hwrite _ fun _ => ⟨rfl, rfl⟩
      · exact .pure _

theorem signs_requestIndex (request : IndexJobCreate) (jobId : NewId) :
    (Interleaved.requestIndex request jobId : WorkerThread γ Unit).Each (Logged P) := by
  unfold Interleaved.requestIndex
  split
  · exact .pure _
  · refine signs_quiet fun w => ?_
    rcases transaction_cases _ w with ⟨e, hrun⟩ | ⟨a, w', hadd, hrun⟩
    · rw [hrun]
      exact ⟨rfl, rfl⟩
    · rw [hrun]
      split at hadd
      · next hjob =>
          cases hadd
          exact addJob_caseTables hjob
      · cases hadd

theorem signs_detached {ε α : Type} {x : Thread Access (World γ) ε α} (h : x.Each (Logged P)) :
    (Interleaved.detached x).Each (Logged P) :=
  .handle (.bind h fun _ => .pure _) fun _ => .pure _

/-- **Only requests sign**, with their actors: the workers, the publisher, the operator and the
ingestion sign with nobody's. -/
theorem signs_activity (settings : CaseSettings) {label : Label γ}
    (hP : ∀ call request, label = .api call request → P call.actor) :
    (Interleaved.activity settings label).Each (Logged P) := by
  cases label with
  | api call r => exact signs_detached (signs_request (hP call r rfl) r)
  | requestIndex r jobId => exact signs_detached (signs_requestIndex r jobId)
  | ingest tickets documents chunks => exact signs_quiet (.write fun _ => ⟨rfl, rfl⟩)
  | retry jobId traceId =>
      refine signs_quiet (.write fun w => ?_)
      unfold Indexing.retry
      split
      · exact ⟨rfl, rfl⟩
      · split <;> exact ⟨rfl, rfl⟩
  | publish outboxId outcome => exact signs_detached (signs_publish outboxId outcome)
  | consume ports event => exact signs_detached (signs_worker [event] signs_consume)
  | drain ports events => exact signs_detached (signs_worker events (signs_drain events))

end activity

/-! ## The desk -/

/-- Everything in the case tables and in the reviews names an actor of whom `P` holds. -/
structure Attributed (P : ActorContext → Prop) (d : ReviewDesk γ) : Prop where
  events : ∀ e ∈ d.world.caseEvents, ∃ actor, P actor ∧ Names e actor
  createdBy : ∀ row ∈ d.world.cases, ∃ actor, P actor ∧ row.createdBy = actor.actorId
  reviewer : ∀ row ∈ d.world.cases, ∀ name, row.reviewer = some name →
    ∃ actor, P actor ∧ name = actor.actorId
  reviews : ∀ review ∈ d.reviews, ∃ actor, P actor ∧ review.actorId = actor.actorId ∧
    review.actorRole = actor.actorRole.value

section desk

variable {P : ActorContext → Prop} {d : ReviewDesk γ}

theorem Attributed.mono {P' : ActorContext → Prop} (himp : ∀ actor, P actor → P' actor)
    (h : Attributed P d) : Attributed P' d := by
  refine ⟨fun e he => ?_, fun row hrow => ?_, fun row hrow name hname => ?_, fun review hreview => ?_⟩
  · obtain ⟨actor, hP, hby⟩ := h.events e he
    exact ⟨actor, himp actor hP, hby⟩
  · obtain ⟨actor, hP, hby⟩ := h.createdBy row hrow
    exact ⟨actor, himp actor hP, hby⟩
  · obtain ⟨actor, hP, hby⟩ := h.reviewer row hrow name hname
    exact ⟨actor, himp actor hP, hby⟩
  · obtain ⟨actor, hP, hby⟩ := h.reviews review hreview
    exact ⟨actor, himp actor hP, hby⟩

/-- Only those have signed what is new. -/
theorem Attributed.signed {w : World γ} (h : Attributed P d) (hsigned : Signed P d.world w) :
    Attributed P { d with world := w } := by
  refine ⟨fun e he => ?_, fun row hrow => ?_, fun row hrow name hname => ?_, h.reviews⟩
  · exact (hsigned.events e he).elim (h.events e) id
  · rcases hsigned.createdBy row hrow with ⟨row', hrow', hsame⟩ | hnew
    · rw [← hsame]
      exact h.createdBy row' hrow'
    · exact hnew
  · rcases hsigned.reviewer row hrow name hname with ⟨row', hrow', hsame⟩ | hnew
    · exact h.reviewer row' hrow' name hsame
    · exact hnew

theorem keeps_attributed_onCases {α : Type} {x : Service γ α} (h : ∀ w, Signed P w (x w).2) :
    Prog.Keeps (Attributed P) (onCases x) := by
  refine .of_snd fun d hd => ?_
  have hsigned := h d.world
  unfold onCases
  cases hx : x d.world with
  | mk r w =>
      rw [hx] at hsigned
      cases r <;> exact hd.signed hsigned

/-- **A review of a diagnosis** is signed by its actor, and so is the draft that it leads to. -/
theorem keeps_attributed_reviewDiagnosis {call : CaseCall} (hP : P call.actor) (newReviewId : NewId)
    (sessionId : String) (payload : DiagnosisReviewRequest) :
    Prog.Keeps (Attributed P) (reviewDiagnosis call newReviewId sessionId payload : Reviewing γ _) := by
  have hsession : ∀ f : DiagnosisSessionModel → DiagnosisSessionModel,
      Prog.Keeps (Attributed P) (Prog.write (updateSession sessionId f) : Reviewing γ Unit) :=
    fun f => .write fun _ h => ⟨h.events, h.createdBy, h.reviewer, h.reviews⟩
  have hdraft : ∀ (draft : DraftValues) (w : World γ), Signed P w (createDraft call draft w).2 := by
    intro draft w
    refine (signed_create (fun row hrow => ?_) w).toSigned
    cases hrow
    exact ⟨rfl, call.actor, hP, rfl⟩
  have hfollow : ∀ result reviewId, Prog.Keeps (Attributed P)
      (followReview call sessionId result reviewId payload : Reviewing γ _) := by
    intro result reviewId
    unfold followReview
    cases payload.reviewResult with
    | confirmed =>
        refine .bind (keeps_getByReview _) (fun found => ?_)
        cases found with
        | some case => exact .pure _
        | none =>
            refine .bind (.bind (.read _) (fun session => ?_)) (fun _ => .pure _)
            split
            · exact keeps_attributed_onCases (hdraft _)
            · exact .raise _
    | needsMoreInfo => exact .bind (hsession _) (fun _ => .pure _)
    | rejected => exact .bind (hsession _) (fun _ => .pure _)
  unfold reviewDiagnosis
  refine .bind (.read _) (fun session => .bind (.read _) (fun result => ?_))
  split
  · refine .bind .raiseIf (fun _ => .bind .raiseIf (fun _ => .bind .raiseIf (fun _ =>
      .bind .raiseIf (fun _ => .bind (.transaction fun d₁ review d₂ hd h => ?_) (fun _ =>
        .bind (hfollow _ _) (fun _ => .pure _))))))
    rcases appendReview_eq_ok h with ⟨-, -, rfl⟩ | ⟨-, -, rfl⟩
    · exact hd
    · refine ⟨hd.events, hd.createdBy, hd.reviewer, fun review hreview => ?_⟩
      rcases List.mem_append.mp hreview with hold | hnew
      · exact hd.reviews review hold
      · rw [List.mem_singleton.mp hnew]
        exact ⟨call.actor, hP, rfl, rfl⟩
  · exact .raise _

end desk

end EnergyAgent.Cases
