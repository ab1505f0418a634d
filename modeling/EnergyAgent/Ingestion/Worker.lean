import EnergyAgent.Indexing.Consumer
import EnergyAgent.Ingestion.Versions

/-!
# The index worker in the library

The consumer works on the columns it knows. Whatever it does with the message of a manual, it moves the
library: it closes documents, fails them, or writes elsewhere.
-/

namespace EnergyAgent.Ingestion

open EnergyAgent.Lib EnergyAgent.Indexing
open EnergyAgent.Persistence (World VectorRow)

variable {γ : Type}

/-- The world is what the worker sees of the library after some moves. -/
def Follows (lib : Library γ) (w : World γ) : Prop :=
  ∃ moves lib', (librarySystem γ).run lib moves = some lib' ∧ lib'.world = w

section follows

variable {lib : Library γ} {w w' : World γ}

theorem Follows.move (h : Follows lib w) (move : Move γ)
    (hmove : ∀ lib' : Library γ, lib'.world = w → ∃ next, lib'.step move = some next ∧ next.world = w') :
    Follows lib w' := by
  obtain ⟨moves, lib', hrun, hworld⟩ := h
  obtain ⟨next, hstep, hnext⟩ := hmove lib' hworld
  refine ⟨moves ++ [move], next, ?_, hnext⟩
  rw [TransitionSystem.run_concat, hrun]
  exact hstep

/-- What is written elsewhere. -/
theorem Follows.elsewhere (h : Follows lib w) (hdocuments : w'.documents = w.documents)
    (hchunks : w'.chunks = w.chunks) : Follows lib w' := by
  obtain ⟨moves, lib', hrun, rfl⟩ := h
  refine ⟨moves ++ [.elsewhere lib'.objects w'], { lib' with rest := w' }, ?_, ?_⟩
  · rw [TransitionSystem.run_concat, hrun]
    rfl
  · show { w' with documents := lib'.world.documents, chunks := lib'.world.chunks } = w'
    rw [← hdocuments, ← hchunks]

theorem world_closeManual (document : Persistence.ManualDocumentModel) (docId : String)
    (lib : Library γ) :
    (closeManual docId document.version lib).world = indexManual document docId lib.world := by
  have hdocuments : ∀ row : DocumentRow, (row.close docId document.version).toManualDocumentModel =
      if row.docId = docId ∧ row.version = document.version ∧ row.effective = true then
        { row.toManualDocumentModel with indexStatus := .indexed, indexErrorCode := none }
      else row.toManualDocumentModel := by
    intro row
    unfold DocumentRow.close
    split <;> rfl
  have hchunks : ∀ row : ChunkRow, (row.index docId document.version).indexRow =
      if row.docId = docId ∧ row.version = document.version then { row.indexRow with indexed := true }
      else row.indexRow := by
    intro row
    unfold ChunkRow.index
    split <;> rfl
  unfold indexManual Library.world closeManual
  simp only [List.map_map]
  congr 1
  · exact List.map_congr_left fun row _ => hdocuments row
  · exact List.map_congr_left fun row _ => hchunks row

theorem world_failManual {job : IndexJobModel} (htype : job.entityType = .manualDocument)
    (errorCode : String) (lib : Library γ) :
    (failManual job.entityId job.entityVersion errorCode lib).world = failEntity job errorCode lib.world := by
  have hdocuments : ∀ row : DocumentRow,
      (row.failIndex job.entityId job.entityVersion errorCode).toManualDocumentModel =
        if row.docId = job.entityId ∧ row.indexGeneration = some job.entityVersion then
          { row.toManualDocumentModel with indexStatus := .failed, indexErrorCode := some errorCode }
        else row.toManualDocumentModel := by
    intro row
    unfold DocumentRow.failIndex
    split <;> rfl
  unfold failEntity Library.world failManual
  rw [htype]
  simp only [List.map_map]
  congr 1
  exact List.map_congr_left fun row _ => hdocuments row

theorem Follows.indexManual (h : Follows lib w) (document : Persistence.ManualDocumentModel)
    (docId : String) : Follows lib (indexManual document docId w) := by
  refine h.move (.close docId document.version) fun lib' hworld => ⟨_, rfl, ?_⟩
  rw [world_closeManual, hworld]

theorem Follows.failEntity (h : Follows lib w) (job : IndexJobModel) (errorCode : String) :
    Follows lib (failEntity job errorCode w) := by
  cases htype : job.entityType with
  | manualDocument =>
      refine h.move (.fail job.entityId job.entityVersion errorCode) fun lib' hworld => ⟨_, rfl, ?_⟩
      rw [world_failManual htype, hworld]
  | maintenanceTicket =>
      unfold Indexing.failEntity
      rw [htype]
      exact h.elsewhere rfl rfl
  | diagnosisCase =>
      unfold Indexing.failEntity
      rw [htype]
      exact h.elsewhere rfl rfl
  | templateGraph =>
      unfold Indexing.failEntity
      rw [htype]
      exact h

theorem Follows.fail (h : Follows lib w) (jobId errorCode errorMessage : String) (retry : Bool) :
    Follows lib (fail jobId errorCode errorMessage retry w) := by
  unfold Indexing.fail
  split
  · exact h
  · next job _ =>
      have hjob : Follows lib (w.updateJob jobId (failedJob errorCode errorMessage retry)) :=
        h.elsewhere rfl rfl
      by_cases hretry : retry = true
      · rw [if_pos hretry]
        exact hjob
      · rw [if_neg hretry]
        exact hjob.failEntity job errorCode

/-! ## The consumer -/

variable {ports : ConsumerPorts γ} {event : IndexJobMessage}

theorem follows_handleManual {ports : IndexPorts γ} :
    Prog.Keeps (Follows lib) (handleManual ports event) := by
  unfold handleManual
  refine .bind (.read _) (fun found => ?_)
  cases found with
  | none => exact .raise _
  | some document =>
      refine .bind .raiseIf (fun _ => .bind (.read _) (fun _ => .bind (.lift _) (fun _ => ?_)))
      refine .bind (keeps_vectorUpsert fun _ h => h.elsewhere rfl rfl) (fun _ => ?_)
      exact .bind (.write fun _ h => h.indexManual _ _) (fun _ => .pure _)

theorem follows_ackMessage {outcome : Except PortError Unit} :
    Prog.Keeps (Follows lib) (ackMessage outcome event) :=
  .bind (.lift _) (fun _ => .write fun _ h => h.elsewhere rfl rfl)

theorem follows_publishFailed {outcome : CallOutcome} {dead : Bool} :
    Prog.Keeps (Follows lib) (publishFailed outcome dead event) := by
  refine keeps_callOutcome (fun w h => ?_) outcome
  split
  · exact h
  · exact h.elsewhere rfl rfl

theorem follows_work (hmanual : event.entityType = .manualDocument) {job : IndexJobRecord} :
    Prog.Keeps (Follows lib) (work ports event job) := by
  refine .handle ?_ fun e => ?_
  · have hhandle : handle ports.handlers event = handleManual ports.handlers event := by
      unfold handle
      rw [hmanual]
    unfold tryHandle
    rw [hhandle]
    exact .bind follows_handleManual fun _ =>
      .bind (.write fun _ h => h.elsewhere rfl rfl) fun _ => follows_ackMessage
  · have failed : Prog.Keeps (Follows lib)
        (failMessage ports event job.row.attemptCount job.row.maxAttempts e) :=
      .bind (.write fun _ h => h.fail _ _ _ _) fun _ =>
        .bind follows_publishFailed fun _ => follows_ackMessage
    cases e with
    | cancelled => exact .raise _
    | stale => exact .bind (.write fun _ h => h.elsewhere rfl rfl) fun _ => follows_ackMessage
    | permanent code => exact failed
    | failure code typeName => exact failed

theorem follows_ofHandler {α : Type} {x : Handler γ α} (h : Prog.Keeps (Follows lib) x) :
    Prog.Keeps (Follows lib) (ofHandler x) := by
  refine .of_snd fun w hw => ?_
  have hsnd : (ofHandler x w).2 = (x w).2 := by
    unfold ofHandler
    split
    · next hx => rw [hx]
    · next hx => rw [hx]
  rw [hsnd]
  exact h.snd hw

theorem follows_startJob {jobId : String} : Prog.Keeps (Follows lib) (startJob (γ := γ) jobId) := by
  refine .transaction fun w rec w' h hstart => ?_
  split at hstart
  · next result hresult =>
      cases hstart
      rcases start_cases hresult with ⟨-, -, rfl⟩ | ⟨_, _, -, -, ⟨-, -, rfl⟩ | ⟨-, -, rfl⟩⟩
      · exact h
      · exact h
      · exact h.elsewhere rfl rfl
  · cases hstart

/-- **A delivery is a run of moves**, however it ends. -/
theorem follows_consume (hmanual : event.entityType = .manualDocument) :
    Prog.Keeps (Follows lib) (consume ports event) := by
  refine .bind follows_startJob fun job => ?_
  cases job with
  | none =>
      exact follows_ofHandler (.bind follows_publishFailed fun _ => follows_ackMessage)
  | some job =>
      show Prog.Keeps (Follows lib) (if job.row.status.finished then
        ofHandler (ackMessage (ports.lastAck event) event) else ofHandler (work ports event job))
      split
      · exact follows_ofHandler follows_ackMessage
      · exact follows_ofHandler (follows_work hmanual)

/-- The consumer, on what it sees of a library: the library moves along. -/
theorem consume_moves (hmanual : event.entityType = .manualDocument) (lib : Library γ) :
    ∃ moves lib', (librarySystem γ).run lib moves = some lib' ∧
      lib'.world = (consume ports event lib.world).2 :=
  (follows_consume hmanual).snd ⟨[], lib, rfl, rfl⟩

end follows

end EnergyAgent.Ingestion
