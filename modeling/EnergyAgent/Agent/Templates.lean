import EnergyAgent.Agent.State
import EnergyAgent.Lib.Table
import EnergyAgent.Lib.Text
import Mathlib.Algebra.GroupWithZero.Nat
import Mathlib.Algebra.Order.Ring.Unbundled.Rat
import Mathlib.Data.List.Dedup
import Mathlib.Data.List.Sort

/-!
# Diagnosis templates

The templates with their registry and routing (`templates/registry.py`) and the rules that turn
evidence into candidate causes (`templates/rules.py`). What a template says about measurements,
metrics, the default window and the graph goes to the tools only and is left out.
-/

namespace EnergyAgent.Agent

open EnergyAgent.Lib

structure CandidateRule where
  cause : String
  evidenceTerms : List String
  missingInformation : List String
  baseConfidence : Rat := 11 / 20

/-- `DiagnosisTemplate`, with the fields that the workflow reads. -/
structure DiagnosisTemplate where
  templateId : String
  templateVersion : String
  deviceType : String
  deviceAliases : List String
  alarmCategory : String
  alarmPatterns : List String
  alarmAliases : List String
  planSteps : List String
  candidateRules : List CandidateRule
  clarificationRules : List String
  inspectionSteps : List String
  safetyNotes : List String
  asks : clarificationRules ≠ []

structure TemplateRegistry where
  templates : List DiagnosisTemplate
  unique : (templates.map DiagnosisTemplate.templateId).Nodup

/-- `sorted(set(values))`. -/
def sortedSet (values : List String) : List String := values.dedup.insertionSort (· ≤ ·)

@[simp] theorem mem_sortedSet {s : String} {values : List String} :
    s ∈ sortedSet values ↔ s ∈ values := by
  rw [sortedSet, List.mem_insertionSort, List.mem_dedup]

theorem sortedSet_eq_nil {values : List String} : sortedSet values = [] ↔ values = [] := by
  simp only [List.eq_nil_iff_forall_not_mem, mem_sortedSet]

namespace TemplateRegistry

/-- `get`; `none` is a `TemplateNotFoundError`. -/
def get (registry : TemplateRegistry) (templateId : String) : Option DiagnosisTemplate :=
  Table.get DiagnosisTemplate.templateId registry.templates templateId

/-- The score and the basis on which a template is a candidate. -/
def score (lower : String → String) (device alarm category text : String)
    (template : DiagnosisTemplate) : Option (Nat × List String) :=
  let aliases := (template.deviceType :: template.deviceAliases).map lower
  let terms := (template.alarmPatterns ++ template.alarmAliases).map lower
  if device ≠ "" ∧ device ∉ aliases then none
  else
    let hits : List (Nat × String) :=
      (if device ≠ "" then [(4, "device_type")] else []) ++
      (if alarm ≠ "" ∧ terms.any (Text.contains alarm) then [(3, "alarm_name")] else []) ++
      (if category ≠ "" ∧ category = lower template.alarmCategory then [(2, "alarm_category")]
        else []) ++
      (if text ≠ "" ∧ terms.any (Text.contains text) then [(1, "controlled_term")] else [])
    let total := (hits.map Prod.fst).sum
    if total ≠ 0 ∧ ((alarm = "" ∧ category = "" ∧ text = "") ∨
        (if device ≠ "" then 1 else 0) < hits.length) then
      some (total, hits.map Prod.snd)
    else none

/-- `route`: the one template with the best score, with its basis, or the text of the error. -/
def route (registry : TemplateRegistry) (lower : String → String)
    (deviceType alarmName alarmCategory userText : Option String) :
    Except String (DiagnosisTemplate × String) :=
  let normal (text : Option String) : String := lower (Text.strip (text.getD ""))
  let candidates := registry.templates.filterMap fun t =>
    (score lower (normal deviceType) (normal alarmName) (normal alarmCategory) (normal userText)
      t).map fun (n, basis) => (n, t, Text.join "+" basis)
  let bestScore := (candidates.map Prod.fst).foldl max 0
  match candidates.filter fun c => c.1 = bestScore with
  | [] => .error "TEMPLATE_UNSUPPORTED_DEVICE_OR_ALARM"
  | [best] => .ok best.2
  | _ => .error "TEMPLATE_AMBIGUOUS"

theorem route_mem {registry : TemplateRegistry} {lower : String → String}
    {deviceType alarmName alarmCategory userText : Option String} {template : DiagnosisTemplate}
    {basis : String}
    (h : registry.route lower deviceType alarmName alarmCategory userText = .ok (template, basis)) :
    template ∈ registry.templates := by
  unfold route at h
  dsimp only at h
  split at h
  · cases h
  · next best heq =>
      have hbest : best ∈ [best] := List.mem_singleton_self _
      rw [← heq] at hbest
      obtain ⟨t, ht, hscore⟩ := List.mem_filterMap.mp (List.mem_of_mem_filter hbest)
      obtain ⟨⟨n, b⟩, -, rfl⟩ := Option.map_eq_some_iff.mp hscore
      cases h
      exact ht
  · cases h

/-- A routed template is found again under its id. -/
theorem get_of_mem {registry : TemplateRegistry} {template : DiagnosisTemplate}
    (h : template ∈ registry.templates) : registry.get template.templateId = some template :=
  Table.get_of_mem registry.unique h

end TemplateRegistry

/-- The terms occur in the text, in whatever case. -/
def mentions (lower : String → String) (terms : List String) (text : String) : Bool :=
  terms.any fun term => Text.contains (lower text) (lower term)

/-- `evaluate_candidate_rules`: the rules that the evidence or the feedback speaks for, the most
confident first. -/
def evaluateCandidateRules (lower : String → String) (template : DiagnosisTemplate)
    (evidence : List Evidence) (feedback : String) : List CandidateCause :=
  let searchable := Text.join " " (evidence.map Evidence.summary) ++ " " ++ feedback
  let candidates := template.candidateRules.filterMap fun rule =>
    let refs := (evidence.filter fun e => mentions lower rule.evidenceTerms e.summary).map
      Evidence.evidenceId
    if refs = [] ∧ ¬ mentions lower rule.evidenceTerms searchable then none
    else some {
      cause := rule.cause
      confidence := min (rule.baseConfidence + if feedback = "" then 0 else 1 / 10) (4 / 5)
      supportingEvidence :=
        if refs = [] then (evidence.take 2).map Evidence.evidenceId else refs
      contradictingEvidence := []
      missingInformation := rule.missingInformation
      needManualConfirmation := true : CandidateCause }
  (candidates.insertionSort fun a b => b.confidence ≤ a.confidence).take 4

end EnergyAgent.Agent
