import EnergyAgent.Cases.Application
import EnergyAgent.Indexing.Batch
import EnergyAgent.Lib.Blanks
import Mathlib.Algebra.Order.BigOperators.Group.List
import Mathlib.Algebra.Order.Group.Nat
import Mathlib.Data.List.Induction

/-!
# The text that is embedded for a case

Three functions index a case: `_index` of the case service, `_case` of the worker and its
`_case_batch`. `_index` strips the parts of the text and leaves the blank ones out; the other two
join the parts that are not empty as they are, and take a stored text over both.
-/

namespace EnergyAgent.Cases

open EnergyAgent.Lib EnergyAgent.Persistence EnergyAgent.Indexing

variable {γ : Type}

/-! ## Joined parts -/

section parts

/-- The parts of `build_embedding_text`, joined. -/
def joinStripped (parts : List String) : String :=
  Text.join "\n" ((parts.filter (fun part => ¬ Text.isBlank part)).map Text.strip)

/-- The parts of `_case` and `_case_batch`, joined. -/
def joinRaw (parts : List String) : String := Text.join "\n" (parts.filter (· ≠ ""))

/-- What a part adds to the length of the raw text, with its separator. -/
def rawWeight (part : String) : Nat := if part = "" then 0 else part.length + 1

/-- What a part adds to the length of the stripped text, with its separator. -/
def strippedWeight (part : String) : Nat :=
  if Text.isBlank part then 0 else (Text.strip part).length + 1

theorem length_joinRaw (parts : List String) :
    (joinRaw parts).length = (parts.map rawWeight).sum - 1 := by
  have hspaced : Text.spaced (parts.filter (· ≠ "")) = (parts.map rawWeight).sum := by
    induction parts with
    | nil => rfl
    | cons part parts ih =>
        rw [List.map_cons, List.sum_cons, ← ih]
        by_cases h : part = ""
        · simp [h, rawWeight]
        · simp [h, rawWeight, Text.spaced_cons]
  unfold joinRaw
  rw [Text.length_join rfl, hspaced]

theorem length_joinStripped (parts : List String) :
    (joinStripped parts).length = (parts.map strippedWeight).sum - 1 := by
  have hspaced : Text.spaced ((parts.filter (fun part => ¬ Text.isBlank part)).map Text.strip) =
      (parts.map strippedWeight).sum := by
    induction parts with
    | nil => rfl
    | cons part parts ih =>
        rw [List.map_cons, List.sum_cons, ← ih]
        by_cases h : Text.isBlank part
        · simp [h, strippedWeight]
        · simp [h, strippedWeight, Text.spaced_cons]
  unfold joinStripped
  rw [Text.length_join rfl, hspaced]

theorem not_isBlank_ne_empty {part : String} (h : ¬ Text.isBlank part = true) : part ≠ "" := by
  rintro rfl
  exact h rfl

/-- Stripping a part never makes the text longer. -/
theorem strippedWeight_le (part : String) : strippedWeight part ≤ rawWeight part := by
  unfold strippedWeight rawWeight
  by_cases hblank : Text.isBlank part
  · simp [hblank]
  · have hlength := Text.length_strip_le part
    simp [hblank, not_isBlank_ne_empty hblank, hlength]

/-- A part that weighs the same in both texts is one that stripping leaves alone. -/
theorem strip_eq_of_weight {part : String} (h : rawWeight part ≤ strippedWeight part) :
    Text.strip part = part := by
  unfold strippedWeight rawWeight at h
  by_cases hempty : part = ""
  · rw [hempty]
    rfl
  · rw [if_neg hempty] at h
    by_cases hblank : Text.isBlank part
    · rw [if_pos hblank] at h
      omega
    · rw [if_neg hblank] at h
      apply Text.strip_eq_of_length
      omega

/-- The weight of a text is 0 or at least 2, so its length determines it. -/
theorem sum_rawWeight_ne_one (parts : List String) : (parts.map rawWeight).sum ≠ 1 := by
  have hweight : ∀ part, rawWeight part = 0 ∨ 2 ≤ rawWeight part := by
    intro part
    unfold rawWeight
    by_cases hempty : part = ""
    · exact Or.inl (if_pos hempty)
    · have hlength : part.length ≠ 0 := fun h => hempty (String.length_eq_zero_iff.mp h)
      rw [if_neg hempty]
      omega
  have hsum : (parts.map rawWeight).sum = 0 ∨ 2 ≤ (parts.map rawWeight).sum := by
    induction parts with
    | nil => exact Or.inl rfl
    | cons part parts ih =>
        rw [List.map_cons, List.sum_cons]
        have hpart := hweight part
        omega
  omega

theorem sum_strippedWeight_le (parts : List String) :
    (parts.map strippedWeight).sum ≤ (parts.map rawWeight).sum :=
  List.sum_le_sum fun part _ => strippedWeight_le part

/-- Texts of one weight have parts of one weight. -/
theorem strip_eq_of_sum {parts : List String}
    (h : (parts.map rawWeight).sum ≤ (parts.map strippedWeight).sum) :
    ∀ part ∈ parts, Text.strip part = part := by
  induction parts with
  | nil => intro part hpart; cases hpart
  | cons first parts ih =>
      rw [List.map_cons, List.map_cons, List.sum_cons, List.sum_cons] at h
      have hfirst := strippedWeight_le first
      have hrest := sum_strippedWeight_le parts
      intro part hpart
      rcases List.mem_cons.mp hpart with rfl | hpart
      · apply strip_eq_of_weight
        omega
      · apply ih _ part hpart
        omega

/-- **The two constructions agree** on the parts that stripping leaves alone, and on no others. -/
theorem joinRaw_eq_iff {parts : List String} :
    joinRaw parts = joinStripped parts ↔ ∀ part ∈ parts, Text.strip part = part := by
  constructor
  · intro h
    have hlength := congrArg String.length h
    rw [length_joinRaw, length_joinStripped] at hlength
    have hone := sum_rawWeight_ne_one parts
    have hle := sum_strippedWeight_le parts
    apply strip_eq_of_sum
    omega
  · intro h
    have hfilter : parts.filter (· ≠ "") = parts.filter (fun part => ¬ Text.isBlank part) := by
      apply List.filter_congr
      intro part hpart
      have hblank := @Text.strip_eq_empty_iff part
      rw [h part hpart] at hblank
      by_cases hempty : part = "" <;> simp_all
    have hmap : (parts.filter (fun part => ¬ Text.isBlank part)).map Text.strip =
        parts.filter (fun part => ¬ Text.isBlank part) := by
      calc (parts.filter (fun part => ¬ Text.isBlank part)).map Text.strip
          = (parts.filter (fun part => ¬ Text.isBlank part)).map id := by
            apply List.map_congr_left
            intro part hpart
            exact h part (List.mem_filter.mp hpart).1
        _ = parts.filter (fun part => ¬ Text.isBlank part) := List.map_id _
    unfold joinRaw joinStripped
    rw [hmap, hfilter]

theorem joinStripped_eq_empty_iff {parts : List String} :
    joinStripped parts = "" ↔ ∀ part ∈ parts, Text.isBlank part = true := by
  constructor
  · intro h part hpart
    by_contra hblank
    have hlength := length_joinStripped parts
    rw [h] at hlength
    have hweight : 2 ≤ strippedWeight part := by
      have hne : Text.strip part ≠ "" := fun hempty => hblank (Text.strip_eq_empty_iff.mp hempty)
      have hpos : (Text.strip part).length ≠ 0 := fun h0 => hne (String.length_eq_zero_iff.mp h0)
      unfold strippedWeight
      rw [if_neg hblank]
      omega
    have hsum : strippedWeight part ≤ (parts.map strippedWeight).sum :=
      List.single_le_sum (fun _ _ => Nat.zero_le _) _ (List.mem_map_of_mem hpart)
    have hzero : "".length = 0 := rfl
    omega
  · intro h
    have hnone : parts.filter (fun part => ¬ Text.isBlank part) = [] := by
      apply List.filter_eq_nil_iff.mpr
      intro part hpart
      simp [h part hpart]
    unfold joinStripped
    rw [hnone]
    rfl

end parts

/-! ## The three paths -/

/-- The parts of the text of a case. -/
def embeddingParts (case : DiagnosisCase) : List String :=
  [case.row.deviceType.getD "", case.row.deviceModel.getD "", case.row.alarmName.getD "",
    case.row.symptomSummary.getD "", case.row.timeseriesFeatures.getD "", case.row.rootCause,
    Text.join "；" case.resolutionSteps]

/-- `_index`, `_case` and `_case_batch`. -/
inductive IndexPath
  | sync | worker | batch
  deriving DecidableEq, Repr

/-- The text a path embeds and stores. -/
def IndexPath.text (case : DiagnosisCase) : IndexPath → Except HandlerError String
  | .sync => .ok (buildEmbeddingText case)
  | .worker => caseText case.row
  | .batch => caseText case.row

/-- The case with another stored text. -/
def DiagnosisCase.storing (case : DiagnosisCase) (stored : Option String) : DiagnosisCase :=
  ⟨{ case.row with embeddingText := stored }, case.readable⟩

/-- What is stored for the case after the paths of a history have indexed it, in this order; a new
case has no text. -/
def storedText (case : DiagnosisCase) (history : List IndexPath) : Option String :=
  history.foldl (fun stored path => (path.text (case.storing stored)).toOption) none

section histories

variable (case : DiagnosisCase)

theorem text_sync (stored : Option String) :
    IndexPath.sync.text (case.storing stored) = .ok (joinStripped (embeddingParts case)) := rfl

/-- Without a stored text the worker joins the parts. -/
theorem caseText_of_none {stored : Option String} (h : Text.truthy stored = none) :
    caseText (case.storing stored).row = .ok (joinRaw (embeddingParts case)) := by
  have hsteps : case.row.resolutionSteps = some case.resolutionSteps := by
    obtain ⟨steps, hsome⟩ := Option.isSome_iff_exists.mp case.readable.1
    rw [DiagnosisCase.resolutionSteps, hsome]
    rfl
  unfold caseText DiagnosisCase.storing
  dsimp only
  rw [h, hsteps]
  rfl

theorem caseText_of_some {text : String} (h : text ≠ "") :
    caseText (case.storing (some text)).row = .ok text := by
  unfold caseText DiagnosisCase.storing Text.truthy
  dsimp only
  rw [if_neg h]

/-- What the next path to index the case finds: a stripped text of an earlier `_index`, or parts
that it joins as they are, or the text that such a join has stored. -/
inductive Kept (history : List IndexPath) (stored : Option String) : Prop
  | stripped (hsync : .sync ∈ history) (hne : joinStripped (embeddingParts case) ≠ "")
      (h : stored = some (joinStripped (embeddingParts case)))
  | raw (hnot : .sync ∈ history → joinStripped (embeddingParts case) = "")
      (h : caseText (case.storing stored).row = .ok (joinRaw (embeddingParts case)))

theorem Kept.step {history : List IndexPath} {stored : Option String}
    (h : Kept case history stored) (path : IndexPath) :
    Kept case (history ++ [path]) (path.text (case.storing stored)).toOption := by
  have hraw : caseText (case.storing (some (joinRaw (embeddingParts case)))).row =
      .ok (joinRaw (embeddingParts case)) := by
    by_cases hempty : joinRaw (embeddingParts case) = ""
    · rw [hempty]
      exact (caseText_of_none case rfl).trans (by rw [hempty])
    · exact caseText_of_some case hempty
  -- the two asynchronous paths embed and store one text
  have hworker : ∀ path : IndexPath, path ≠ .sync →
      path.text (case.storing stored) = caseText (case.storing stored).row →
      Kept case (history ++ [path]) (path.text (case.storing stored)).toOption := by
    intro path hpath htext
    cases h with
    | stripped hsync hne h =>
        rw [htext, h, caseText_of_some case hne]
        exact .stripped (List.mem_append_left _ hsync) hne rfl
    | raw hnot h =>
        rw [htext, h]
        refine .raw (fun hmem => hnot ?_) hraw
        rcases List.mem_append.mp hmem with hmem | hmem
        · exact hmem
        · exact absurd (List.mem_singleton.mp hmem).symm hpath
  cases path with
  | sync =>
      rw [text_sync]
      by_cases hne : joinStripped (embeddingParts case) = ""
      · refine .raw (fun _ => hne) ?_
        rw [hne]
        exact caseText_of_none case rfl
      · exact .stripped (List.mem_append_right _ (List.mem_singleton_self _)) hne rfl
  | worker => exact hworker .worker (by decide) rfl
  | batch => exact hworker .batch (by decide) rfl

theorem kept (history : List IndexPath) : Kept case history (storedText case history) := by
  induction history using List.reverseRecOn with
  | nil => exact .raw (fun h => nomatch h) (caseText_of_none case rfl)
  | append_singleton history path ih =>
      unfold storedText at ih ⊢
      rw [List.foldl_append]
      exact ih.step case path

end histories

/-- **The paths embed one text** for the cases whose parts have no blanks around them, and for those
with a part that is not blank which `_index` has indexed before; for no others. -/
theorem paths_agree_iff (case : DiagnosisCase) (history : List IndexPath) :
    (∀ path path' : IndexPath, path.text (case.storing (storedText case history)) =
        path'.text (case.storing (storedText case history))) ↔
      (∀ part ∈ embeddingParts case, Text.strip part = part) ∨
        .sync ∈ history ∧ ∃ part ∈ embeddingParts case, Text.isBlank part = false := by
  have hsome : joinStripped (embeddingParts case) ≠ "" ↔
      ∃ part ∈ embeddingParts case, Text.isBlank part = false := by
    rw [Ne, joinStripped_eq_empty_iff]
    push Not
    simp only [Bool.not_eq_true]
  have hall : (∀ path path' : IndexPath, path.text (case.storing (storedText case history)) =
        path'.text (case.storing (storedText case history))) ↔
      caseText (case.storing (storedText case history)).row =
        .ok (joinStripped (embeddingParts case)) := by
    constructor
    · intro h
      exact h .worker .sync
    · intro h path path'
      have hone : ∀ path : IndexPath, path.text (case.storing (storedText case history)) =
          .ok (joinStripped (embeddingParts case)) := by
        intro path
        cases path with
        | sync => rfl
        | worker => exact h
        | batch => exact h
      rw [hone, hone]
  rw [hall, ← hsome]
  cases kept case history with
  | stripped hsync hne h =>
      rw [h, caseText_of_some case hne]
      exact iff_of_true rfl (Or.inr ⟨hsync, hne⟩)
  | raw hnot h =>
      rw [h, Except.ok.injEq, joinRaw_eq_iff]
      constructor
      · intro hparts
        exact Or.inl hparts
      · rintro (hparts | ⟨hsync, hne⟩)
        · exact hparts
        · exact absurd (hnot hsync) hne

/-- A case whose root cause came with a line break. -/
def paddedCase : DiagnosisCase where
  row :=
    { caseId := "case-1"
      sourceSessionId := "session-1"
      sourceRunId := "run-1"
      sourceReviewId := "review-1"
      sourceTicketId := none
      deviceType := some "inverter"
      deviceModel := some "SG250HX"
      manufacturer := none
      alarmName := some "over temperature"
      symptomSummary := none
      timeseriesFeatures := none
      rootCause := "blocked fan\n"
      resolutionSteps := some ["clean the fan"]
      safetyNotes := some []
      evidenceRefs := some ["manual:1"]
      reviewStatus := .approved
      reviewer := none
      reviewComment := none
      caseVersion := 1
      embeddingText := none
      indexStatus := .pending
      indexErrorCode := none
      isActive := false
      supersedesCaseId := none
      createdBy := "operator" }
  readable := by decide

/-- `_index` drops the line break and the worker keeps it. -/
theorem padded_case_disagrees : ¬ ∀ (case : DiagnosisCase) (history : List IndexPath)
    (path path' : IndexPath), path.text (case.storing (storedText case history)) =
      path'.text (case.storing (storedText case history)) := by
  intro hall
  have hagree := Except.ok.inj (hall paddedCase [] .sync .worker)
  revert hagree
  decide

/-! ## What the paths store -/

/-- The case is in the table with this text. -/
def HasText (k text : String) (w : World γ) : Prop :=
  ∃ row, w.getCase k = some row ∧ row.embeddingText = some text

theorem HasText.congr {k text : String} {w w' : World γ} (h : HasText k text w)
    (hcases : w'.cases = w.cases) : HasText k text w' := by
  obtain ⟨row, hrow, htext⟩ := h
  exact ⟨row, (World.getCase_congr hcases).trans hrow, htext⟩

/-- An update that leaves the text of the case alone. -/
theorem HasText.update {k k' text : String} {w : World γ}
    {f : DiagnosisCaseModel → DiagnosisCaseModel} (h : HasText k text w)
    (hkey : ∀ row, (f row).caseId = row.caseId)
    (hf : k = k' → ∀ row, row.embeddingText = some text → (f row).embeddingText = some text) :
    HasText k text (w.updateCase k' f) := by
  obtain ⟨row, hrow, htext⟩ := h
  by_cases hk : k = k'
  · subst hk
    refine ⟨f row, ?_, hf rfl row htext⟩
    rw [World.getCase_updateCase_self hkey, hrow]
    rfl
  · refine ⟨row, ?_, htext⟩
    rw [World.getCase_updateCase_ne hkey hk, hrow]

theorem hasText_setIndex {k text : String} {status : CaseIndexStatus} {errorCode : Option String}
    {active : Bool} : Prog.Triple (fun _ => True)
      (setIndex k status errorCode (some text) active : Service γ DiagnosisCase)
      (fun _ => HasText k text) (fun _ _ => True) := by
  refine .bind (Q := fun _ => HasText k text) (.transaction ?_ (fun _ _ _ _ => trivial))
    (fun row => .lift (fun _ _ _ h => h) (fun _ _ _ _ => trivial))
  intro w row w' _ h
  obtain ⟨model, hmodel, -, rfl⟩ := applySetIndex_eq_ok h
  refine ⟨setIndexRow status errorCode (some text) active model, ?_, rfl⟩
  have hkey : ∀ r, (setIndexRow status errorCode (some text) active r).caseId = r.caseId :=
    fun _ => rfl
  rw [World.getCase_updateCase_self hkey, hmodel]
  rfl

/-- `_index` stores its text also when a provider fails. -/
theorem index_stores {call : CaseCall} {case case' : DiagnosisCase} {w w' : World γ}
    (h : index call case w = (.ok case', w')) :
    HasText case.row.caseId (buildEmbeddingText case) w' := by
  have hindex : Prog.Triple (fun _ => True) (index call case : Service γ DiagnosisCase)
      (fun _ => HasText case.row.caseId (buildEmbeddingText case)) (fun _ _ => True) := by
    refine .handle (E := fun _ _ => True) ?_ (fun _ => hasText_setIndex)
    refine .bind (Q := fun _ _ => True) (.lift (fun _ _ _ h => h) (fun _ _ _ h => h)) fun embedded => ?_
    exact .bind (Prog.Keeps.of_snd fun _ _ => trivial) (fun _ => hasText_setIndex)
  exact hindex.ok trivial h

theorem hasText_setCaseIndex {k text : String} {status : IndexStatus} {active : Bool} {w : World γ}
    {row : DiagnosisCaseModel} (hrow : w.getCase k = some row) :
    HasText k text (setCaseIndex k status active (some text) w) := by
  refine ⟨indexRow status active (some text) row, ?_, rfl⟩
  unfold setCaseIndex
  rw [World.getCase_updateCase_self (indexRow_caseId _ _ _), hrow]
  rfl

theorem HasText.supersedeOriginal {k text : String} {ports : IndexPorts γ} {event : IndexJobMessage}
    {case : DiagnosisCaseModel} :
    Prog.Keeps (HasText k text) (Indexing.supersedeOriginal ports event case) := by
  unfold Indexing.supersedeOriginal
  cases case.supersededId with
  | none => exact .pure _
  | some old =>
      refine .bind .raiseIf fun _ => .transaction ?_
      intro w _ w' h hdone
      rcases supersedeOld_cases hdone with ⟨rfl, -⟩ | ⟨row, rec, -, -, hadd⟩
      · exact h
      · refine HasText.congr ?_ (addJob_caseTable hadd)
        exact h.update supersededRow_caseId fun _ _ htext => htext

/-- The single handler stores the text it embeds. -/
theorem upsertCase_stores {ports : IndexPorts γ} {event : IndexJobMessage} {case : DiagnosisCaseModel}
    {w w' : World γ} {result : HandlerResult} (hcase : w.getCase event.entityId = some case)
    (h : upsertCase ports event case w = (.ok result, w')) :
    ∃ text, caseText case = .ok text ∧ HasText event.entityId text w' := by
  obtain ⟨run, -⟩ := upsertCase_eq_ok h
  have hprojected : run.projected.getCase event.entityId = some case := by
    have hsame := keeps_projectCase.of_eq run.projected_eq (SameButGraph.refl _)
    obtain ⟨graph, projections, hsame⟩ := hsame
    rw [hsame]
    exact (World.getCase_congr rfl).trans hcase
  exact ⟨run.text, run.text_eq,
    HasText.supersedeOriginal.of_eq run.superseded_eq (hasText_setCaseIndex hprojected)⟩

/-- The last loop of the batch stores the text of each of its tasks, and it leaves a stored text
alone where each task of the case has that text. -/
theorem hasText_indexCases {ports : IndexPorts γ} {k text : String} :
    ∀ {tasks : List CaseTask} {w w' : World γ} {results : BatchResults},
      (∀ task ∈ tasks, task.event.entityId = k → task.text = text) →
      (w.getCase k).isSome → (HasText k text w ∨ ∃ task ∈ tasks, task.event.entityId = k) →
      indexCases ports tasks w = (.ok results, w') → HasText k text w'
  | [], w, w', results, _, _, hstored, h => by
    cases h
    rcases hstored with hstored | ⟨task, htask, -⟩
    · exact hstored
    · cases htask
  | task :: tasks, w, w', results, htexts, hsome, hstored, h => by
    unfold indexCases at h
    obtain ⟨degraded, w₁, hproject, h₁⟩ := Prog.bind_eq_ok h
    rw [Prog.bind_write] at h₁
    obtain ⟨rest, w₂, hrest, h₂⟩ := Prog.bind_eq_ok h₁
    cases h₂
    obtain ⟨graph, projections, rfl⟩ := keeps_projectCase.of_eq hproject (SameButGraph.refl w)
    obtain ⟨row, hrow⟩ := Option.isSome_iff_exists.mp hsome
    refine hasText_indexCases (fun t ht => htexts t (List.mem_cons_of_mem _ ht)) ?_ ?_ hrest
    · unfold setCaseIndex
      by_cases hk : k = task.event.entityId
      · subst hk
        rw [World.getCase_updateCase_self (indexRow_caseId _ _ _), Option.isSome_map]
        exact hsome
      · rw [World.getCase_updateCase_ne (indexRow_caseId _ _ _) hk]
        exact hsome
    · by_cases hk : task.event.entityId = k
      · left
        rw [← htexts task (List.mem_cons_self ..) hk, hk]
        exact hasText_setCaseIndex hrow
      · rcases hstored with hstored | ⟨later, hlater, hid⟩
        · left
          exact HasText.update (hstored.congr rfl) (indexRow_caseId _ _ _)
            fun hself => absurd hself.symm hk
        · right
          refine ⟨later, ?_, hid⟩
          rcases List.mem_cons.mp hlater with rfl | hlater
          · exact absurd hid hk
          · exact hlater

/-- The batch handler stores the text it embeds. -/
theorem caseBatch_stores {ports : IndexPorts γ} {events : List IndexJobMessage} {w w' : World γ}
    {results : BatchResults} (h : caseBatch ports events w = (.ok results, w')) :
    ∃ tasks, orderCases w events = .ok tasks ∧
      ∀ task ∈ tasks, caseText task.case = .ok task.text ∧
        HasText task.event.entityId task.text w' := by
  unfold caseBatch at h
  rw [Prog.bind_read] at h
  obtain ⟨tasks, htasks, h₁⟩ := Prog.bind_lift_eq_ok h
  obtain ⟨vectors, -, h₂⟩ := Prog.bind_lift_eq_ok h₁
  obtain ⟨_, w₁, hupsert, h₃⟩ := Prog.bind_eq_ok h₂
  obtain ⟨-, rfl⟩ := vectorUpsert_eq_ok hupsert
  have hfound : ∀ task ∈ tasks, w.getCase task.event.entityId = some task.case ∧
      caseText task.case = .ok task.text := by
    intro task htask
    obtain ⟨-, hcheck, htext⟩ := orderCases_checked htasks task htask
    exact ⟨checkCase_eq_ok hcheck, htext⟩
  refine ⟨tasks, htasks, fun task htask => ⟨(hfound task htask).2, ?_⟩⟩
  obtain ⟨hcase, htext⟩ := hfound task htask
  refine hasText_indexCases ?_ ?_ (Or.inr ⟨task, htask, rfl⟩) h₃
  · intro other hother hid
    obtain ⟨hcase', htext'⟩ := hfound other hother
    rw [hid, hcase] at hcase'
    rw [← Option.some.inj hcase', htext] at htext'
    exact (Except.ok.inj htext').symm
  · have hsame : (upsertCollection .case (caseVectors tasks vectors) w).getCase task.event.entityId =
        w.getCase task.event.entityId := World.getCase_congr rfl
    rw [hsame, hcase]
    rfl

end EnergyAgent.Cases
