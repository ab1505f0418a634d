import EnergyAgent.Agent.Delivery
import Mathlib.Algebra.Order.Ring.Unbundled.Rat

/-!
# Candidate causes by rule

What `evaluate_candidate_rules` proposes from the evidence that `evidence_aggregator` collects, and
how `check_generation` judges it. The checker looks at the ids only: a reference is one to the graph
when it starts with `graph:`. That this is the type of the item is due to how the aggregator names
the items, and to the types that the searches put on their rows.
-/

namespace EnergyAgent.Agent

open EnergyAgent.Lib

/-! ## How evidence is named -/

/-- The values of `SourceType`. -/
def searchTypes : List String := ["manual", "ticket", "case", "graph"]

/-- The type of a row is one of `RetrievalCandidate`, when the row has one. -/
def RankedRow.Typed (row : RankedRow) : Prop := ∀ type, row.sourceType = some type → type ∈ searchTypes

/-- The searches answer with rows of their own types. -/
def ToolData.Typed (toolData : ToolData) : Prop :=
  ∀ result package rows, toolData.manuals = some result ∨ toolData.tickets = some result →
    result.data = some package → package.ranked = some rows → ∀ row ∈ rows, row.Typed

/-- The id of an item is made from its type. -/
structure Evidence.Named (types : List String) (e : Evidence) : Prop where
  typed : e.sourceType ∈ types
  id_eq : ∃ name, e.evidenceId = e.sourceType ++ ":" ++ name

/-- All types of evidence. -/
def evidenceTypes : List String := ["device", "alarm", "timeseries"] ++ searchTypes

theorem named_deviceEvidence (d : DeviceProfile) : (deviceEvidence d).Named ["device"] :=
  ⟨List.mem_singleton_self _, d.deviceId, rfl⟩

theorem named_alarmEvidence (d : AlarmDetail) : (alarmEvidence d).Named ["alarm"] :=
  ⟨List.mem_singleton_self _, d.alarmId, rfl⟩

theorem named_timeseriesEvidence (deviceId runId : String) (trends : List (String × String)) :
    (timeseriesEvidence deviceId runId trends).Named ["timeseries"] :=
  ⟨List.mem_singleton_self _, deviceId ++ ":" ++ runId, by
    simp only [timeseriesEvidence, String.append_assoc]
    rfl⟩

theorem named_graphEvidence (alarm : AlarmContext) (row : GraphRelation) :
    (graphEvidence alarm row).Named searchTypes :=
  ⟨show "graph" ∈ searchTypes by decide, row.alarmName.getD alarm.alarmName ++ ":" ++ row.faultCause, by
    simp only [graphEvidence, String.append_assoc]
    rfl⟩

theorem named_rankedEvidence {defaultType : String} (hdefault : defaultType ∈ searchTypes)
    {row : RankedRow} (hrow : row.Typed) : (rankedEvidence defaultType row).Named searchTypes := by
  refine ⟨?_, row.sourceId ++ ((Text.truthy row.chunkId).map (":" ++ ·)).getD "", ?_⟩
  · show row.sourceType.getD defaultType ∈ searchTypes
    cases htype : row.sourceType with
    | none => exact hdefault
    | some type => exact hrow type htype
  · simp only [rankedEvidence, String.append_assoc]

/-- A tag is read off the front of a text by the first colon. -/
theorem isPrefix_colon {tag type : List Char} (htag : ':' ∉ tag) (htype : ':' ∉ type)
    (name : List Char) : tag ++ [':'] <+: type ++ ':' :: name ↔ tag = type := by
  induction tag generalizing type with
  | nil =>
      cases type with
      | nil => simp
      | cons c type =>
          have hc : ':' ≠ c := fun h => htype (h ▸ List.mem_cons_self ..)
          simp [hc]
  | cons d tag ih =>
      cases type with
      | nil =>
          have hd : d ≠ ':' := fun h => htag (h ▸ List.mem_cons_self ..)
          simp [hd]
      | cons c type =>
          have htag' : ':' ∉ tag := fun h => htag (List.mem_cons_of_mem _ h)
          have htype' : ':' ∉ type := fun h => htype (List.mem_cons_of_mem _ h)
          rw [List.cons_append, List.cons_append, List.cons_prefix_cons, ih htag' htype', List.cons.injEq]

theorem Evidence.Named.graph_iff {e : Evidence} (h : e.Named evidenceTypes) :
    Text.startsWith e.evidenceId "graph:" = true ↔ e.sourceType = "graph" := by
  obtain ⟨name, hid⟩ := h.id_eq
  have hcolon : ∀ type ∈ evidenceTypes, ':' ∉ type.toList := by decide
  have hsplit : e.evidenceId.toList = e.sourceType.toList ++ ':' :: name.toList := by
    rw [hid, String.toList_append, String.toList_append, List.append_assoc]
    rfl
  show (("graph".toList ++ [':']).isPrefixOf e.evidenceId.toList) = true ↔ _
  rw [List.isPrefixOf_iff_prefix, hsplit, isPrefix_colon (by decide) (hcolon _ h.typed),
    String.toList_inj, eq_comm]

theorem Evidence.Named.mono {types types' : List String} {e : Evidence} (h : e.Named types)
    (hsub : types ⊆ types') : e.Named types' :=
  ⟨hsub h.typed, h.id_eq⟩

/-! ## What the tools contribute -/

section contributions

variable {state : DiagnosisState} {toolData : ToolData} {evidence : List Evidence}

/-- A tool contributes what is read from its payload, or nothing. -/
theorem contribution_forall {δ : Type} {P : List Evidence → Prop} {result : Option (ToolResult δ)}
    {read : δ → Option (List Evidence)} (hnil : P [])
    (hread : ∀ payload items, read payload = some items → P items)
    (h : contribution result read = some evidence) : P evidence := by
  unfold contribution at h
  split at h
  · next result =>
      split at h
      · obtain ⟨payload, -, hitems⟩ := Option.bind_eq_some_iff.mp h
        exact hread payload evidence hitems
      · cases h
        exact hnil
  · cases h
    exact hnil

theorem dictContribution_forall {δ : Type} {P : List Evidence → Prop}
    {result : Option (ToolResult δ)} {read : δ → Option (List Evidence)} (hnil : P [])
    (hread : ∀ r payload items, result = some r → r.data = some payload →
      read payload = some items → P items)
    (h : dictContribution result read = some evidence) : P evidence := by
  unfold dictContribution at h
  split at h
  · next result =>
      split at h
      · cases hdata : result.data with
        | none =>
            rw [hdata] at h
            cases h
            exact hnil
        | some payload =>
            rw [hdata] at h
            exact hread result payload evidence rfl hdata h
      · cases h
        exact hnil
  · cases h
    exact hnil

theorem device_contribution (h : contribution toolData.device (fun d => some [deviceEvidence d]) =
    some evidence) : evidence = [] ∨ ∃ d, evidence = [deviceEvidence d] := by
  refine contribution_forall (P := fun items => items = [] ∨ ∃ d, items = [deviceEvidence d])
    (Or.inl rfl) ?_ h
  intro d items hitems
  cases hitems
  exact Or.inr ⟨d, rfl⟩

theorem alarm_contribution (h : contribution toolData.alarm (fun d => some [alarmEvidence d]) =
    some evidence) : evidence = [] ∨ ∃ d, evidence = [alarmEvidence d] := by
  refine contribution_forall (P := fun items => items = [] ∨ ∃ d, items = [alarmEvidence d])
    (Or.inl rfl) ?_ h
  intro d items hitems
  cases hitems
  exact Or.inr ⟨d, rfl⟩

theorem timeseries_contribution (h : timeseriesContribution state toolData = some evidence) :
    ∀ e ∈ evidence, e.Named ["timeseries"] := by
  unfold timeseriesContribution at h
  split at h
  · cases h
    exact fun e he => absurd he List.not_mem_nil
  · next context =>
      refine contribution_forall (P := fun items => ∀ e ∈ items, e.Named ["timeseries"])
        (fun e he => absurd he List.not_mem_nil) ?_ h
      intro trends items hitems e he
      cases hitems
      rw [List.mem_singleton.mp he]
      exact named_timeseriesEvidence ..

theorem search_contribution {defaultType : String} {result : Option (ToolResult SearchPackage)}
    (hdefault : defaultType ∈ searchTypes)
    (htyped : ∀ r package rows, result = some r → r.data = some package →
      package.ranked = some rows → ∀ row ∈ rows, row.Typed)
    (h : searchEvidence defaultType result = some evidence) : ∀ e ∈ evidence, e.Named searchTypes := by
  refine dictContribution_forall (P := fun items => ∀ e ∈ items, e.Named searchTypes)
    (fun e he => absurd he List.not_mem_nil) ?_ h
  intro r package items hresult hdata hitems e he
  obtain ⟨rows, hrows, rfl⟩ := Option.map_eq_some_iff.mp hitems
  obtain ⟨row, hrow, rfl⟩ := List.mem_map.mp he
  exact named_rankedEvidence hdefault (htyped r package rows hresult hdata hrows row hrow)

theorem graph_contribution (h : graphContribution state toolData = some evidence) :
    ∀ e ∈ evidence, e.Named searchTypes := by
  refine dictContribution_forall (P := fun items => ∀ e ∈ items, e.Named searchTypes)
    (fun e he => absurd he List.not_mem_nil) ?_ h
  intro r package items _ _ hitems e he
  obtain ⟨alarm, -, hread⟩ := Option.bind_eq_some_iff.mp hitems
  obtain ⟨rows, -, rfl⟩ := Option.map_eq_some_iff.mp hread
  obtain ⟨row, -, rfl⟩ := List.mem_map.mp he
  exact named_graphEvidence alarm row

/-- The evidence in the order in which it is collected: the device, the alarm, then the items of
other types. -/
theorem collectedEvidence_spec (htyped : toolData.Typed)
    (h : collectedEvidence state toolData = some evidence) :
    ∃ device alarm rest, evidence = device ++ alarm ++ rest ∧
      (device = [] ∨ ∃ d, device = [deviceEvidence d]) ∧
      (alarm = [] ∨ ∃ d, alarm = [alarmEvidence d]) ∧
      ∀ e ∈ rest, e.Named ("timeseries" :: searchTypes) := by
  unfold collectedEvidence at h
  obtain ⟨device, hdevice, h⟩ := Option.bind_eq_some_iff.mp h
  obtain ⟨alarm, halarm, h⟩ := Option.bind_eq_some_iff.mp h
  obtain ⟨timeseries, htimeseries, h⟩ := Option.bind_eq_some_iff.mp h
  obtain ⟨manuals, hmanuals, h⟩ := Option.bind_eq_some_iff.mp h
  obtain ⟨tickets, htickets, h⟩ := Option.bind_eq_some_iff.mp h
  obtain ⟨graph, hgraph, h⟩ := Option.bind_eq_some_iff.mp h
  cases h
  refine ⟨device, alarm, timeseries ++ manuals ++ tickets ++ graph, ?_, device_contribution hdevice,
    alarm_contribution halarm, ?_⟩
  · simp only [List.append_assoc]
  · intro e he
    have hsub : searchTypes ⊆ "timeseries" :: searchTypes := List.subset_cons_self ..
    simp only [List.mem_append] at he
    rcases he with ((he | he) | he) | he
    · exact (timeseries_contribution htimeseries e he).mono (by simp)
    · exact (search_contribution (by decide) (fun r package rows hr =>
        htyped r package rows (Or.inl hr)) hmanuals e he).mono hsub
    · exact (search_contribution (by decide) (fun r package rows hr =>
        htyped r package rows (Or.inr hr)) htickets e he).mono hsub
    · exact (graph_contribution hgraph e he).mono hsub

end contributions

/-! ## Evidence without gaps -/

/-- The ids tell which items the graph gave, and of the first two items one is not from it. -/
structure Checkable (evidence : List Evidence) : Prop where
  graph_iff : ∀ e ∈ evidence, Text.startsWith e.evidenceId "graph:" = true ↔ e.sourceType = "graph"
  leading : ∃ e ∈ evidence.take 2, Text.startsWith e.evidenceId "graph:" = false

theorem evidenceAggregator_evidence {state aggregated : DiagnosisState}
    {toolData toolData' : ToolData}
    (h : evidenceAggregator state toolData = .update aggregated toolData') :
    ∃ collected, collectedEvidence state toolData = some collected ∧
      aggregated.evidence = collected.foldl (Table.upsert Evidence.evidenceId) [] := by
  unfold evidenceAggregator at h
  split at h
  · cases h
  · next collected hcollected =>
      cases h
      exact ⟨collected, hcollected, rfl⟩

/-- Without gaps the evidence has a device and an alarm. -/
theorem types_of_evidenceGaps {state : DiagnosisState} (h : evidenceGaps state = []) :
    "device" ∈ state.evidence.map Evidence.sourceType ∧
      "alarm" ∈ state.evidence.map Evidence.sourceType := by
  unfold evidenceGaps at h
  simp only [List.append_eq_nil_iff, report_eq_nil] at h
  exact ⟨not_not.mp h.1.1.1, not_not.mp h.1.1.2⟩

/-- **Collected evidence without gaps is checkable**: it starts with the device, whose id no other
item can take. -/
theorem checkable_of_aggregated {state aggregated : DiagnosisState} {toolData toolData' : ToolData}
    (htyped : toolData.Typed)
    (hbuilt : evidenceAggregator state toolData = .update aggregated toolData')
    (hgaps : evidenceGaps aggregated = []) : Checkable aggregated.evidence := by
  obtain ⟨collected, hcollected, hevidence⟩ := evidenceAggregator_evidence hbuilt
  obtain ⟨device, alarm, rest, rfl, hdevice, halarm, hrest⟩ :=
    collectedEvidence_spec htyped hcollected
  have hmem : ∀ e ∈ aggregated.evidence, e ∈ device ++ alarm ++ rest := by
    intro e he
    rw [hevidence] at he
    exact (Table.mem_foldl_upsert he).resolve_left List.not_mem_nil
  have hdevices : ∀ e ∈ device, e.Named ["device"] := by
    intro e he
    rcases hdevice with rfl | ⟨d, rfl⟩
    · exact absurd he List.not_mem_nil
    · exact List.mem_singleton.mp he ▸ named_deviceEvidence d
  have halarms : ∀ e ∈ alarm, e.Named ["alarm"] := by
    intro e he
    rcases halarm with rfl | ⟨d, rfl⟩
    · exact absurd he List.not_mem_nil
    · exact List.mem_singleton.mp he ▸ named_alarmEvidence d
  have hnamed : ∀ e ∈ aggregated.evidence, e.Named evidenceTypes := by
    intro e he
    rcases List.mem_append.mp (hmem e he) with hfirst | he
    · rcases List.mem_append.mp hfirst with he | he
      · exact (hdevices e he).mono (by decide)
      · exact (halarms e he).mono (by decide)
    · exact (hrest e he).mono (by decide)
  -- the only item of type device is the one of the device tool
  have hleads : ∃ d, device = [deviceEvidence d] := by
    obtain ⟨e, he, htype⟩ := List.mem_map.mp (types_of_evidenceGaps hgaps).1
    rcases hdevice with rfl | hdevice
    · rcases List.mem_append.mp (hmem e he) with he | he
      · have hother := (halarms e he).typed
        rw [htype] at hother
        exact absurd hother (by decide)
      · have hother := (hrest e he).typed
        rw [htype] at hother
        exact absurd hother (by decide)
    · exact hdevice
  obtain ⟨d, rfl⟩ := hleads
  refine ⟨fun e he => (hnamed e he).graph_iff, ?_⟩
  have hkeys : [(deviceEvidence d).evidenceId] <+: aggregated.evidence.map Evidence.evidenceId := by
    rw [hevidence]
    exact Table.keys_isPrefix_foldl_upsert (alarm ++ rest) [deviceEvidence d]
  cases hlist : aggregated.evidence with
  | nil =>
      rw [hlist] at hkeys
      exact absurd (List.prefix_nil.mp hkeys) (List.cons_ne_nil _ _)
  | cons first others =>
      rw [hlist, List.map_cons, List.cons_prefix_cons] at hkeys
      refine ⟨first, by cases others <;> simp, ?_⟩
      rw [← hkeys.1, Bool.eq_false_iff, ne_eq, (named_deviceEvidence d).mono (by decide) |>.graph_iff]
      exact show ¬ "device" = "graph" by decide

/-! ## The causes -/

section causes

variable (lower : String → String) (evidence : List Evidence) (feedback : String)

/-- The ids of the items that speak for the rule by themselves. -/
def ruleRefs (rule : CandidateRule) : List String :=
  (evidence.filter fun e => mentions lower rule.evidenceTerms e.summary).map Evidence.evidenceId

/-- What one rule proposes. -/
def ruleCause (rule : CandidateRule) : Option CandidateCause :=
  let searchable := Text.join " " (evidence.map Evidence.summary) ++ " " ++ feedback
  let refs := ruleRefs lower evidence rule
  if refs = [] ∧ ¬ mentions lower rule.evidenceTerms searchable then none
  else some {
    cause := rule.cause
    confidence := min (rule.baseConfidence + if feedback = "" then 0 else 1 / 10) (4 / 5)
    supportingEvidence := if refs = [] then (evidence.take 2).map Evidence.evidenceId else refs
    contradictingEvidence := []
    missingInformation := rule.missingInformation
    needManualConfirmation := true : CandidateCause }

/-- Some item speaks for the rule, and all that do are from the graph. -/
def GraphOnly (rule : CandidateRule) : Prop :=
  (∃ e ∈ evidence, mentions lower rule.evidenceTerms e.summary = true) ∧
    ∀ e ∈ evidence, mentions lower rule.evidenceTerms e.summary = true → e.sourceType = "graph"

theorem evaluateCandidateRules_eq (template : DiagnosisTemplate) :
    evaluateCandidateRules lower template evidence feedback =
      ((template.candidateRules.filterMap (ruleCause lower evidence feedback)).insertionSort
        fun a b => b.confidence ≤ a.confidence).take 4 := rfl

end causes

section judged

variable {lower : String → String} {evidence : List Evidence} {feedback : String}
  {rule : CandidateRule} {cause : CandidateCause}

theorem mem_ruleRefs {ref : String} : ref ∈ ruleRefs lower evidence rule ↔
    ∃ e ∈ evidence, mentions lower rule.evidenceTerms e.summary = true ∧ e.evidenceId = ref := by
  simp only [ruleRefs, List.mem_map, List.mem_filter, and_assoc]

theorem ruleRefs_eq_nil : ruleRefs lower evidence rule = [] ↔
    ∀ e ∈ evidence, ¬ mentions lower rule.evidenceTerms e.summary = true := by
  simp only [ruleRefs, List.map_eq_nil_iff, List.filter_eq_nil_iff]

theorem ruleCause_eq_some (h : ruleCause lower evidence feedback rule = some cause) :
    cause.confidence ≤ 4 / 5 ∧ cause.supportingEvidence =
      if ruleRefs lower evidence rule = [] then (evidence.take 2).map Evidence.evidenceId
      else ruleRefs lower evidence rule := by
  unfold ruleCause at h
  dsimp only at h
  split at h
  · cases h
  · cases h
    exact ⟨min_le_right _ _, rfl⟩

/-- The references of a cause lead to evidence; the checker drops it for the graph alone. -/
theorem Checkable.ruleCause_spec (hcheckable : Checkable evidence)
    (h : ruleCause lower evidence feedback rule = some cause) :
    cause.supportingEvidence ≠ [] ∧
      (∀ ref ∈ cause.supportingEvidence, ref ∈ evidence.map Evidence.evidenceId) ∧
      (cause.Grounded evidence ↔ ¬ GraphOnly lower evidence rule) := by
  obtain ⟨-, hrefs⟩ := ruleCause_eq_some h
  obtain ⟨e₀, he₀, hnot₀⟩ := hcheckable.leading
  have hknown : ∀ ref ∈ cause.supportingEvidence, ref ∈ evidence.map Evidence.evidenceId := by
    intro ref href
    rw [hrefs] at href
    split at href
    · obtain ⟨e, he, rfl⟩ := List.mem_map.mp href
      exact List.mem_map_of_mem (List.mem_of_mem_take he)
    · obtain ⟨e, he, -, rfl⟩ := mem_ruleRefs.mp href
      exact List.mem_map_of_mem he
  by_cases hnone : ruleRefs lower evidence rule = []
  · -- the first two items stand in, and one of them is not from the graph
    rw [if_pos hnone] at hrefs
    have hfirst : e₀.evidenceId ∈ cause.supportingEvidence := hrefs ▸ List.mem_map_of_mem he₀
    have hne : cause.supportingEvidence ≠ [] := List.ne_nil_of_mem hfirst
    refine ⟨hne, hknown, iff_of_true ⟨hne, hknown, e₀.evidenceId, hfirst, by simp [hnot₀]⟩ ?_⟩
    rintro ⟨⟨e, he, hmentions⟩, -⟩
    exact ruleRefs_eq_nil.mp hnone e he hmentions
  · rw [if_neg hnone] at hrefs
    have hne : cause.supportingEvidence ≠ [] := hrefs ▸ hnone
    refine ⟨hne, hknown, ?_, ?_⟩
    · rintro ⟨-, -, ref, href, hnot⟩ ⟨-, hgraph⟩
      rw [hrefs] at href
      obtain ⟨e, he, hmentions, rfl⟩ := mem_ruleRefs.mp href
      exact hnot ((hcheckable.graph_iff e he).mpr (hgraph e he hmentions))
    · intro hother
      have hsome : ∃ e ∈ evidence, mentions lower rule.evidenceTerms e.summary = true := by
        by_contra hall
        exact hnone (ruleRefs_eq_nil.mpr (fun e he hmentions => hall ⟨e, he, hmentions⟩))
      have hsource : ∃ e ∈ evidence,
          mentions lower rule.evidenceTerms e.summary = true ∧ e.sourceType ≠ "graph" := by
        by_contra hall
        refine hother ⟨hsome, fun e he hmentions => ?_⟩
        by_contra hne'
        exact hall ⟨e, he, hmentions, hne'⟩
      obtain ⟨e, he, hmentions, hne'⟩ := hsource
      refine ⟨hne, hknown, e.evidenceId, hrefs ▸ mem_ruleRefs.mpr ⟨e, he, hmentions, rfl⟩, ?_⟩
      rw [hcheckable.graph_iff e he]
      exact hne'

/-- A cause with references to evidence has one violation, if any. -/
theorem causeViolation_graph {known : List String} (hne : cause.supportingEvidence ≠ [])
    (hknown : ∀ ref ∈ cause.supportingEvidence, ref ∈ known) {violation : String}
    (h : causeViolation known cause = some violation) : violation = "GRAPH_ONLY_STRONG_CLAIM" := by
  unfold causeViolation at h
  split at h
  · next hnil => exact absurd hnil hne
  · split at h
    · next hunknown =>
        obtain ⟨ref, href, hnot⟩ := hunknown
        exact absurd (hknown ref href) hnot
    · split at h
      · exact (Option.some.inj h).symm
      · cases h

end judged

theorem evaluateCandidateRules_sorted (lower : String → String) (template : DiagnosisTemplate)
    (evidence : List Evidence) (feedback : String) :
    (evaluateCandidateRules lower template evidence feedback).Pairwise
      fun a b => b.confidence ≤ a.confidence := by
  have htotal : Std.Total fun a b : CandidateCause => b.confidence ≤ a.confidence :=
    ⟨fun a b => le_total b.confidence a.confidence⟩
  have htrans : IsTrans CandidateCause fun a b => b.confidence ≤ a.confidence :=
    ⟨fun a b c hab hbc => le_trans hbc hab⟩
  rw [evaluateCandidateRules_eq]
  exact (List.pairwise_insertionSort _ _).sublist (List.take_sublist ..)

theorem mem_evaluateCandidateRules {lower : String → String} {template : DiagnosisTemplate}
    {evidence : List Evidence} {feedback : String} {cause : CandidateCause}
    (h : cause ∈ evaluateCandidateRules lower template evidence feedback) :
    ∃ rule ∈ template.candidateRules, ruleCause lower evidence feedback rule = some cause := by
  rw [evaluateCandidateRules_eq] at h
  exact List.mem_filterMap.mp ((List.mem_insertionSort _).mp (List.mem_of_mem_take h))

/-- **Candidates by rule can be checked.** Drafted from collected evidence without gaps, there are at
most four, the most confident first, each with references to evidence. All that `check_generation`
reports about any of them is that a claim rests on the graph alone, and a cause is dropped for that
exactly when some item speaks for its rule and all that do are from the graph. -/
theorem rule_candidates_checkable {state aggregated : DiagnosisState} {toolData toolData' : ToolData}
    (htyped : toolData.Typed)
    (hbuilt : evidenceAggregator state toolData = .update aggregated toolData')
    (hgaps : evidenceGaps aggregated = []) (lower : String → String)
    (template : DiagnosisTemplate) (feedback : String) {drafted : DiagnosisState}
    (hevidence : drafted.evidence = aggregated.evidence)
    (hcauses : drafted.candidateCauses =
      evaluateCandidateRules lower template aggregated.evidence feedback) :
    drafted.candidateCauses.length ≤ 4 ∧
    (drafted.candidateCauses.Pairwise fun a b => b.confidence ≤ a.confidence) ∧
    (∀ cause ∈ drafted.candidateCauses, cause.confidence ≤ 4 / 5 ∧ cause.supportingEvidence ≠ [] ∧
      ∀ ref ∈ cause.supportingEvidence, ref ∈ drafted.evidence.map Evidence.evidenceId) ∧
    (∀ causes ⊆ drafted.candidateCauses,
      ∀ violation ∈ (checkGeneration causes drafted.evidence).violations,
        violation = "GRAPH_ONLY_STRONG_CLAIM") ∧
    (∀ cause ∈ drafted.candidateCauses, ∃ rule ∈ template.candidateRules,
      ruleCause lower drafted.evidence feedback rule = some cause) ∧
    ∀ rule, ∀ cause ∈ drafted.candidateCauses,
      ruleCause lower drafted.evidence feedback rule = some cause →
        (cause ∉ drafted.supportedCandidates ↔ GraphOnly lower drafted.evidence rule) := by
  have hcheckable : Checkable drafted.evidence :=
    hevidence ▸ checkable_of_aggregated htyped hbuilt hgaps
  rw [← hevidence] at hcauses
  have hrule : ∀ cause ∈ drafted.candidateCauses, ∃ rule ∈ template.candidateRules,
      ruleCause lower drafted.evidence feedback rule = some cause :=
    fun cause hc => mem_evaluateCandidateRules (hcauses ▸ hc)
  have hrefs : ∀ cause ∈ drafted.candidateCauses, cause.supportingEvidence ≠ [] ∧
      ∀ ref ∈ cause.supportingEvidence, ref ∈ drafted.evidence.map Evidence.evidenceId := by
    intro cause hc
    obtain ⟨rule, -, hsome⟩ := hrule cause hc
    obtain ⟨hne, hknown, -⟩ := hcheckable.ruleCause_spec hsome
    exact ⟨hne, hknown⟩
  refine ⟨?_, ?_, ?_, ?_, hrule, ?_⟩
  · rw [hcauses, evaluateCandidateRules_eq]
    exact List.length_take_le ..
  · rw [hcauses]
    exact evaluateCandidateRules_sorted lower template drafted.evidence feedback
  · intro cause hc
    obtain ⟨rule, -, hsome⟩ := hrule cause hc
    exact ⟨(ruleCause_eq_some hsome).1, hrefs cause hc⟩
  · intro causes hsub violation hv
    obtain ⟨cause, hc, hviolation⟩ := List.mem_filterMap.mp (mem_sortedSet.mp hv)
    obtain ⟨hne, hknown⟩ := hrefs cause (hsub hc)
    exact causeViolation_graph hne hknown hviolation
  · intro rule cause hc hsome
    rw [mem_supportedCandidates, (hcheckable.ruleCause_spec hsome).2.2]
    simp only [hc, true_and, not_not]

/-- What the tools answer about the fan. -/
def fanToolData : ToolData where
  device := some answeringEnvironment.device
  alarm := some answeringEnvironment.alarm
  timeseries := some answeringEnvironment.timeseries
  manuals := some answeringEnvironment.manuals

/-- The run about the fan, with its evidence. -/
def fanAggregated : DiagnosisState :=
  { fanInitial with
    phase := .evidenceReady
    evidence := ((collectedEvidence fanInitial fanToolData).getD []).foldl
      (Table.upsert Evidence.evidenceId) []
    evidenceRefs := (((collectedEvidence fanInitial fanToolData).getD []).foldl
      (Table.upsert Evidence.evidenceId) []).map Evidence.evidenceId }

/-- The same run, with what the rules of the template propose. -/
def fanDrafted : DiagnosisState :=
  { fanAggregated with
    candidateCauses := evaluateCandidateRules id sampleTemplate fanAggregated.evidence "" }

theorem fanToolData_typed : fanToolData.Typed := by
  rintro result package rows (hresult | hresult) hdata hrows row hrow
  · cases hresult
    cases hdata
    cases hrows
    rw [List.mem_singleton.mp hrow]
    rintro type htype
    cases htype
    decide
  · cases hresult

theorem fan_candidates_checkable :
    fanDrafted.candidateCauses.map CandidateCause.supportingEvidence = [["manual:manual-1"]] ∧
    fanDrafted.candidateCauses.length ≤ 4 ∧
    ∀ rule, ∀ cause ∈ fanDrafted.candidateCauses,
      ruleCause id fanDrafted.evidence "" rule = some cause →
        (cause ∉ fanDrafted.supportedCandidates ↔ GraphOnly id fanDrafted.evidence rule) := by
  have hchecked := rule_candidates_checkable fanToolData_typed
    (show evidenceAggregator fanInitial fanToolData = .update fanAggregated fanToolData from rfl)
    (by decide) id sampleTemplate ""
    (show fanDrafted.evidence = fanAggregated.evidence from rfl) rfl
  exact ⟨by decide +kernel, hchecked.1, hchecked.2.2.2.2.2⟩

end EnergyAgent.Agent
