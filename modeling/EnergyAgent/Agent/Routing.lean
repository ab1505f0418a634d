import EnergyAgent.Agent.Templates

/-!
# Which template `route` takes

A template qualifies for a question if it is of the device's type and speaks of the alarm, its category
or the text, as far as the question has them. Of the templates that qualify `route` takes the one with
the most points, and no other must have as many.
-/

namespace EnergyAgent.Agent

open EnergyAgent.Lib

/-- What is asked for, without blanks around it and in lower case; an empty text was not given. -/
structure RouteQuery where
  device : String
  alarm : String
  category : String
  text : String

section matching

variable (lower : String → String)

def RouteQuery.of (deviceType alarmName alarmCategory userText : Option String) : RouteQuery where
  device := lower (Text.strip (deviceType.getD ""))
  alarm := lower (Text.strip (alarmName.getD ""))
  category := lower (Text.strip (alarmCategory.getD ""))
  text := lower (Text.strip (userText.getD ""))

namespace DiagnosisTemplate

variable (q : RouteQuery) (t : DiagnosisTemplate)

/-- The device is the template's or an alias of it, in whatever case. -/
def MatchesDevice : Prop := q.device ∈ (t.deviceType :: t.deviceAliases).map lower

/-- A pattern or alias of the template's alarm occurs in the text. -/
def Speaks (text : String) : Prop :=
  ∃ term ∈ t.alarmPatterns ++ t.alarmAliases, Text.contains text (lower term) = true

def MatchesAlarm : Prop := q.alarm ≠ "" ∧ Speaks lower t q.alarm

def MatchesCategory : Prop := q.category ≠ "" ∧ q.category = lower t.alarmCategory

def MatchesText : Prop := q.text ≠ "" ∧ Speaks lower t q.text

/-- Where the question has none of an alarm, a category and a text, the device is enough. -/
def Qualifies : Prop :=
  (q.device ≠ "" → MatchesDevice lower q t) ∧
    ((q.alarm = "" ∧ q.category = "" ∧ q.text = "" ∧ q.device ≠ "") ∨
      MatchesAlarm lower q t ∨ MatchesCategory lower q t ∨ MatchesText lower q t)

instance (text : String) : Decidable (Speaks lower t text) :=
  inferInstanceAs (Decidable (∃ term ∈ t.alarmPatterns ++ t.alarmAliases, _))

instance : Decidable (MatchesDevice lower q t) := inferInstanceAs (Decidable (_ ∈ _))
instance : Decidable (MatchesAlarm lower q t) := inferInstanceAs (Decidable (_ ∧ _))
instance : Decidable (MatchesCategory lower q t) := inferInstanceAs (Decidable (_ ∧ _))
instance : Decidable (MatchesText lower q t) := inferInstanceAs (Decidable (_ ∧ _))
instance : Decidable (Qualifies lower q t) := inferInstanceAs (Decidable (_ ∧ _))

/-- What speaks for the template, with its points. -/
def grounds : List (Nat × String) :=
  (if q.device ≠ "" then [(4, "device_type")] else []) ++
    (if MatchesAlarm lower q t then [(3, "alarm_name")] else []) ++
    (if MatchesCategory lower q t then [(2, "alarm_category")] else []) ++
    (if MatchesText lower q t then [(1, "controlled_term")] else [])

def points : Nat := ((grounds lower q t).map Prod.fst).sum

def basis : String := Text.join "+" ((grounds lower q t).map Prod.snd)

end DiagnosisTemplate

open DiagnosisTemplate

variable {lower} {q : RouteQuery} {t : DiagnosisTemplate}

theorem any_terms_iff (text : String) :
    ((t.alarmPatterns ++ t.alarmAliases).map lower).any (Text.contains text) = true ↔
      Speaks lower t text := by
  rw [List.any_map, List.any_eq_true]
  exact Iff.rfl

/-- The template has points and more grounds than the device, or is asked for by the device alone. -/
theorem grounds_iff (hdevice : q.device ≠ "" → MatchesDevice lower q t) :
    (points lower q t ≠ 0 ∧ ((q.alarm = "" ∧ q.category = "" ∧ q.text = "") ∨
      (if q.device ≠ "" then 1 else 0) < (grounds lower q t).length)) ↔ Qualifies lower q t := by
  have hnone : q.alarm = "" ∧ q.category = "" ∧ q.text = "" →
      ¬ MatchesAlarm lower q t ∧ ¬ MatchesCategory lower q t ∧ ¬ MatchesText lower q t :=
    fun ⟨ha, hc, ht⟩ => ⟨fun h => h.1 ha, fun h => h.1 hc, fun h => h.1 ht⟩
  unfold Qualifies points grounds
  by_cases hd : q.device = "" <;> by_cases hA : MatchesAlarm lower q t <;>
    by_cases hC : MatchesCategory lower q t <;> by_cases hT : MatchesText lower q t <;>
    simp_all

/-- The score of a template is that of its grounds, if it qualifies. -/
theorem score_eq : TemplateRegistry.score lower q.device q.alarm q.category q.text t =
    if Qualifies lower q t then some (points lower q t, (grounds lower q t).map Prod.snd)
    else none := by
  have hgrounds : (if q.device ≠ "" then [(4, "device_type")] else []) ++
      (if q.alarm ≠ "" ∧ ((t.alarmPatterns ++ t.alarmAliases).map lower).any (Text.contains q.alarm)
        then [(3, "alarm_name")] else []) ++
      (if q.category ≠ "" ∧ q.category = lower t.alarmCategory then [(2, "alarm_category")] else []) ++
      (if q.text ≠ "" ∧ ((t.alarmPatterns ++ t.alarmAliases).map lower).any (Text.contains q.text)
        then [(1, "controlled_term")] else []) = grounds lower q t := by
    simp only [any_terms_iff]
    rfl
  unfold TemplateRegistry.score
  dsimp only
  rw [hgrounds]
  by_cases hdevice : q.device ≠ "" ∧ q.device ∉ (t.deviceType :: t.deviceAliases).map lower
  · rw [if_pos hdevice, if_neg fun h => hdevice.2 (h.1 hdevice.1)]
  · have hdevice' : q.device ≠ "" → MatchesDevice lower q t := by
      intro hgiven
      by_contra hnot
      exact hdevice ⟨hgiven, hnot⟩
    rw [if_neg hdevice]
    have hiff := @grounds_iff lower q t hdevice'
    by_cases hqualifies : Qualifies lower q t
    · rw [if_pos hqualifies]
      exact if_pos (hiff.mpr hqualifies)
    · rw [if_neg hqualifies]
      exact if_neg fun h => hqualifies (hiff.mp h)

end matching

/-! ## The best of those that qualify -/

section best

variable {lower : String → String} {q : RouteQuery}

open DiagnosisTemplate

/-- The template qualifies and no other has as many points. -/
def Ahead (lower : String → String) (q : RouteQuery) (templates : List DiagnosisTemplate)
    (t : DiagnosisTemplate) : Prop :=
  t ∈ templates ∧ Qualifies lower q t ∧
    ∀ t' ∈ templates, t' ≠ t → Qualifies lower q t' → points lower q t' < points lower q t

/-- Two templates qualify and share the most points. -/
def Tied (lower : String → String) (q : RouteQuery) (templates : List DiagnosisTemplate) : Prop :=
  ∃ t ∈ templates, ∃ t' ∈ templates, t ≠ t' ∧ Qualifies lower q t ∧ Qualifies lower q t' ∧
    points lower q t = points lower q t' ∧
    ∀ other ∈ templates, Qualifies lower q other → points lower q other ≤ points lower q t

variable {templates : List DiagnosisTemplate}

/-- The templates that qualify, and the most points of them. -/
def qualified (lower : String → String) (q : RouteQuery) (templates : List DiagnosisTemplate) :
    List DiagnosisTemplate := templates.filter (Qualifies lower q)

def mostPoints (lower : String → String) (q : RouteQuery) (templates : List DiagnosisTemplate) :
    Nat := ((qualified lower q templates).map (points lower q)).foldl max 0

/-- Those that have the most points. -/
def winners (lower : String → String) (q : RouteQuery) (templates : List DiagnosisTemplate) :
    List DiagnosisTemplate :=
  (qualified lower q templates).filter fun t => points lower q t = mostPoints lower q templates

theorem mem_qualified {t : DiagnosisTemplate} :
    t ∈ qualified lower q templates ↔ t ∈ templates ∧ Qualifies lower q t := by
  unfold qualified
  rw [List.mem_filter, decide_eq_true_iff]

theorem mem_winners {t : DiagnosisTemplate} : t ∈ winners lower q templates ↔
    (t ∈ templates ∧ Qualifies lower q t) ∧ points lower q t = mostPoints lower q templates := by
  unfold winners
  rw [List.mem_filter, decide_eq_true_iff, mem_qualified]

theorem le_foldl_max (values : List Nat) :
    ∀ start, start ≤ values.foldl max start ∧ ∀ n ∈ values, n ≤ values.foldl max start := by
  induction values with
  | nil => exact fun start => ⟨Nat.le_refl start, fun _ h => nomatch h⟩
  | cons value values ih =>
      intro start
      obtain ⟨hstart, hvalues⟩ := ih (max start value)
      refine ⟨(Nat.le_max_left _ _).trans hstart, fun n hn => ?_⟩
      rcases List.mem_cons.mp hn with rfl | hn
      · exact (Nat.le_max_right _ _).trans hstart
      · exact hvalues n hn

theorem foldl_max_mem (values : List Nat) : ∀ start, values.foldl max start ∈ start :: values := by
  induction values with
  | nil => exact fun start => List.mem_singleton_self start
  | cons value values ih =>
      intro start
      rcases List.mem_cons.mp (ih (max start value)) with hself | hmem
      · have hchoice : max start value = start ∨ max start value = value := by omega
        rcases hchoice with hmax | hmax
        · exact List.mem_cons.mpr (Or.inl (hself.trans hmax))
        · exact List.mem_cons_of_mem _ (List.mem_cons.mpr (Or.inl (hself.trans hmax)))
      · exact List.mem_cons_of_mem _ (List.mem_cons_of_mem _ hmem)

theorem points_le_mostPoints {t : DiagnosisTemplate} (ht : t ∈ templates)
    (hqualifies : Qualifies lower q t) : points lower q t ≤ mostPoints lower q templates := by
  apply (le_foldl_max _ 0).2
  exact List.mem_map_of_mem (mem_qualified.mpr ⟨ht, hqualifies⟩)

/-- Where a template qualifies, one has the most points. -/
theorem winners_ne_nil {t : DiagnosisTemplate} (ht : t ∈ templates)
    (hqualifies : Qualifies lower q t) : winners lower q templates ≠ [] := by
  have hle := points_le_mostPoints ht hqualifies
  have hwinner : ∃ w, w ∈ winners lower q templates := by
    rcases List.mem_cons.mp (foldl_max_mem ((qualified lower q templates).map (points lower q)) 0) with
      hzero | hmem
    · refine ⟨t, mem_winners.mpr ⟨⟨ht, hqualifies⟩, ?_⟩⟩
      have hmost : mostPoints lower q templates = 0 := hzero
      omega
    · obtain ⟨w, hw, hpoints⟩ := List.mem_map.mp hmem
      exact ⟨w, mem_winners.mpr ⟨mem_qualified.mp hw, hpoints⟩⟩
  obtain ⟨w, hw⟩ := hwinner
  exact List.ne_nil_of_mem hw

theorem ahead_of_winners {t : DiagnosisTemplate} (h : winners lower q templates = [t]) :
    Ahead lower q templates t := by
  have hself : t ∈ winners lower q templates := by
    rw [h]
    exact List.mem_singleton_self t
  obtain ⟨⟨ht, hqualifies⟩, hpoints⟩ := mem_winners.mp hself
  refine ⟨ht, hqualifies, fun t' ht' hne hqualifies' => ?_⟩
  have hle := points_le_mostPoints ht' hqualifies'
  rw [hpoints]
  refine lt_of_le_of_ne hle fun heq => hne ?_
  have hmem := mem_winners.mpr ⟨⟨ht', hqualifies'⟩, heq⟩
  rw [h] at hmem
  exact List.mem_singleton.mp hmem

theorem tied_of_winners {t t' : DiagnosisTemplate} {rest : List DiagnosisTemplate}
    (hnodup : templates.Nodup) (h : winners lower q templates = t :: t' :: rest) :
    Tied lower q templates := by
  have hwinners : (winners lower q templates).Nodup := (hnodup.filter _).filter _
  rw [h] at hwinners
  have hne : t ≠ t' := by
    rintro rfl
    exact (List.nodup_cons.mp hwinners).1 (List.mem_cons_self ..)
  have hmem : ∀ w ∈ t :: t' :: rest, (w ∈ templates ∧ Qualifies lower q w) ∧
      points lower q w = mostPoints lower q templates := by
    intro w hw
    rw [← h] at hw
    exact mem_winners.mp hw
  obtain ⟨⟨ht, hqualifies⟩, hpoints⟩ := hmem t (List.mem_cons_self ..)
  obtain ⟨⟨ht', hqualifies'⟩, hpoints'⟩ := hmem t' (List.mem_cons_of_mem _ (List.mem_cons_self ..))
  refine ⟨t, ht, t', ht', hne, hqualifies, hqualifies', hpoints.trans hpoints'.symm, ?_⟩
  intro other hother hq
  rw [hpoints]
  exact points_le_mostPoints hother hq

theorem Ahead.unique {t t' : DiagnosisTemplate} (h : Ahead lower q templates t)
    (h' : Ahead lower q templates t') : t = t' := by
  by_contra hne
  have hlt := h.2.2 t' h'.1 (Ne.symm hne) h'.2.1
  have hlt' := h'.2.2 t h.1 hne h.2.1
  omega

theorem Ahead.not_tied {t : DiagnosisTemplate} (h : Ahead lower q templates t) :
    ¬ Tied lower q templates := by
  rintro ⟨a, ha, b, hb, hne, hqa, hqb, hsame, hmost⟩
  have hle := hmost t h.1 h.2.1
  by_cases hat : a = t
  · have hlt := h.2.2 b hb (fun hbt => hne (hat.trans hbt.symm)) hqb
    omega
  · have hlt := h.2.2 a ha hat hqa
    omega

end best

/-! ## `route` -/

namespace TemplateRegistry

variable {lower : String → String} {deviceType alarmName alarmCategory userText : Option String}

open DiagnosisTemplate

theorem candidates_eq (q : RouteQuery) (templates : List DiagnosisTemplate) :
    (templates.filterMap fun t =>
      (score lower q.device q.alarm q.category q.text t).map fun (n, b) => (n, t, Text.join "+" b)) =
      (qualified lower q templates).map fun t => (points lower q t, t, basis lower q t) := by
  unfold qualified
  induction templates with
  | nil => rfl
  | cons t templates ih =>
      rw [List.filterMap_cons, ih, score_eq]
      by_cases hqualifies : Qualifies lower q t
      · rw [if_pos hqualifies, List.filter_cons_of_pos (by simpa using hqualifies)]
        rfl
      · rw [if_neg hqualifies, List.filter_cons_of_neg (by simpa using hqualifies)]
        rfl

theorem route_eq (registry : TemplateRegistry) :
    registry.route lower deviceType alarmName alarmCategory userText =
      match winners lower (.of lower deviceType alarmName alarmCategory userText)
        registry.templates with
      | [] => .error "TEMPLATE_UNSUPPORTED_DEVICE_OR_ALARM"
      | [t] => .ok (t, basis lower (.of lower deviceType alarmName alarmCategory userText) t)
      | _ => .error "TEMPLATE_AMBIGUOUS" := by
  obtain ⟨q, hq⟩ : ∃ q, RouteQuery.of lower deviceType alarmName alarmCategory userText = q := ⟨_, rfl⟩
  have hcandidates : (registry.templates.filterMap fun t =>
      (score lower (lower (Text.strip (deviceType.getD ""))) (lower (Text.strip (alarmName.getD "")))
        (lower (Text.strip (alarmCategory.getD ""))) (lower (Text.strip (userText.getD ""))) t).map
          fun hit => (hit.1, t, Text.join "+" hit.2)) =
      (qualified lower q registry.templates).map fun t => (points lower q t, t, basis lower q t) := by
    rw [← candidates_eq, ← hq]
    rfl
  have hbest : ((qualified lower q registry.templates).map fun t =>
      (points lower q t, t, basis lower q t)).filter (fun c =>
        c.1 = (((qualified lower q registry.templates).map fun t =>
          (points lower q t, t, basis lower q t)).map Prod.fst).foldl max 0) =
      (winners lower q registry.templates).map fun t => (points lower q t, t, basis lower q t) := by
    rw [List.map_map, List.filter_map]
    rfl
  unfold TemplateRegistry.route
  dsimp only
  simp only [hcandidates, hbest, hq]
  rcases winners lower q registry.templates with _ | ⟨t, _ | ⟨t', rest⟩⟩ <;> rfl

/-- The three ends of `route`. -/
theorem route_cases (registry : TemplateRegistry) (lower : String → String)
    (deviceType alarmName alarmCategory userText : Option String) {q : RouteQuery}
    (hq : RouteQuery.of lower deviceType alarmName alarmCategory userText = q) :
    (∃ t, Ahead lower q registry.templates t ∧
      registry.route lower deviceType alarmName alarmCategory userText = .ok (t, basis lower q t)) ∨
    (Tied lower q registry.templates ∧
      registry.route lower deviceType alarmName alarmCategory userText =
        .error "TEMPLATE_AMBIGUOUS") ∨
    ((∀ t ∈ registry.templates, ¬ Qualifies lower q t) ∧
      registry.route lower deviceType alarmName alarmCategory userText =
        .error "TEMPLATE_UNSUPPORTED_DEVICE_OR_ALARM") := by
  have hroute := @route_eq lower deviceType alarmName alarmCategory userText registry
  rw [hq] at hroute
  cases hwinners : winners lower q registry.templates with
  | nil =>
      right
      right
      rw [hwinners] at hroute
      exact ⟨fun t ht hqualifies => winners_ne_nil ht hqualifies hwinners, hroute⟩
  | cons t rest =>
      cases rest with
      | nil =>
          left
          rw [hwinners] at hroute
          exact ⟨t, ahead_of_winners hwinners, hroute⟩
      | cons t' rest =>
          right
          left
          rw [hwinners] at hroute
          exact ⟨tied_of_winners registry.unique.of_map hwinners, hroute⟩

theorem route_ok_iff (registry : TemplateRegistry) {q : RouteQuery}
    (hq : RouteQuery.of lower deviceType alarmName alarmCategory userText = q)
    (t : DiagnosisTemplate) (b : String) :
    registry.route lower deviceType alarmName alarmCategory userText = .ok (t, b) ↔
      Ahead lower q registry.templates t ∧ b = basis lower q t := by
  rcases route_cases registry lower deviceType alarmName alarmCategory userText hq with
    ⟨winner, hahead, hroute⟩ | ⟨htied, hroute⟩ | ⟨hnone, hroute⟩
  · rw [hroute]
    constructor
    · intro h
      cases h
      exact ⟨hahead, rfl⟩
    · rintro ⟨hahead', rfl⟩
      rw [hahead.unique hahead']
  · rw [hroute]
    exact iff_of_false (fun h => nomatch h) fun h => h.1.not_tied htied
  · rw [hroute]
    exact iff_of_false (fun h => nomatch h) fun h => hnone t h.1.1 h.1.2.1

theorem route_ambiguous_iff (registry : TemplateRegistry) {q : RouteQuery}
    (hq : RouteQuery.of lower deviceType alarmName alarmCategory userText = q) :
    registry.route lower deviceType alarmName alarmCategory userText = .error "TEMPLATE_AMBIGUOUS" ↔
      Tied lower q registry.templates := by
  rcases route_cases registry lower deviceType alarmName alarmCategory userText hq with
    ⟨winner, hahead, hroute⟩ | ⟨htied, hroute⟩ | ⟨hnone, hroute⟩
  · rw [hroute]
    exact iff_of_false (fun h => nomatch h) hahead.not_tied
  · exact iff_of_true hroute htied
  · rw [hroute]
    refine iff_of_false (by simp) ?_
    rintro ⟨t, ht, -, -, -, hqualifies, -⟩
    exact hnone t ht hqualifies

theorem route_notFound_iff (registry : TemplateRegistry) {q : RouteQuery}
    (hq : RouteQuery.of lower deviceType alarmName alarmCategory userText = q) :
    registry.route lower deviceType alarmName alarmCategory userText =
        .error "TEMPLATE_UNSUPPORTED_DEVICE_OR_ALARM" ↔
      ∀ t ∈ registry.templates, ¬ Qualifies lower q t := by
  rcases route_cases registry lower deviceType alarmName alarmCategory userText hq with
    ⟨winner, hahead, hroute⟩ | ⟨htied, hroute⟩ | ⟨hnone, hroute⟩
  · rw [hroute]
    exact iff_of_false (fun h => nomatch h) fun h => h winner hahead.1 hahead.2.1
  · rw [hroute]
    refine iff_of_false (by simp) fun h => ?_
    obtain ⟨t, ht, -, -, -, hqualifies, -⟩ := htied
    exact h t ht hqualifies
  · exact iff_of_true hroute hnone

/-- The ends only speak of which templates there are. -/
theorem route_perm {registry other : TemplateRegistry}
    (h : other.templates.Perm registry.templates) :
    other.route lower deviceType alarmName alarmCategory userText =
      registry.route lower deviceType alarmName alarmCategory userText := by
  obtain ⟨q, hq⟩ : ∃ q, RouteQuery.of lower deviceType alarmName alarmCategory userText = q := ⟨_, rfl⟩
  have hmem : ∀ t, t ∈ other.templates ↔ t ∈ registry.templates := fun t => h.mem_iff
  rcases route_cases registry lower deviceType alarmName alarmCategory userText hq with
    ⟨winner, hahead, hroute⟩ | ⟨htied, hroute⟩ | ⟨hnone, hroute⟩
  · rw [hroute, route_ok_iff other hq]
    refine ⟨?_, rfl⟩
    unfold Ahead at hahead ⊢
    simp only [hmem]
    exact hahead
  · rw [hroute, route_ambiguous_iff other hq]
    unfold Tied at htied ⊢
    simp only [hmem]
    exact htied
  · rw [hroute, route_notFound_iff other hq]
    simp only [hmem]
    exact hnone

/-- **`route` takes the template that is ahead**, with its grounds; it raises `TemplateAmbiguous`
exactly for a tie and `TemplateNotFound` exactly where no template qualifies; and the order of the
templates does not matter. -/
theorem route_spec (registry : TemplateRegistry) (lower : String → String)
    (deviceType alarmName alarmCategory userText : Option String) :
    (∀ t b, registry.route lower deviceType alarmName alarmCategory userText = .ok (t, b) ↔
      Ahead lower (.of lower deviceType alarmName alarmCategory userText) registry.templates t ∧
        b = basis lower (.of lower deviceType alarmName alarmCategory userText) t) ∧
    (registry.route lower deviceType alarmName alarmCategory userText =
        .error "TEMPLATE_AMBIGUOUS" ↔
      Tied lower (.of lower deviceType alarmName alarmCategory userText) registry.templates) ∧
    (registry.route lower deviceType alarmName alarmCategory userText =
        .error "TEMPLATE_UNSUPPORTED_DEVICE_OR_ALARM" ↔
      ∀ t ∈ registry.templates,
        ¬ Qualifies lower (.of lower deviceType alarmName alarmCategory userText) t) ∧
    ∀ other : TemplateRegistry, other.templates.Perm registry.templates →
      other.route lower deviceType alarmName alarmCategory userText =
        registry.route lower deviceType alarmName alarmCategory userText :=
  ⟨route_ok_iff registry rfl, route_ambiguous_iff registry rfl, route_notFound_iff registry rfl,
    fun _ h => route_perm h⟩

end TemplateRegistry

end EnergyAgent.Agent
