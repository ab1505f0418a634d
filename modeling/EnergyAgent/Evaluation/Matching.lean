import EnergyAgent.Lib.CharClass
import EnergyAgent.Lib.Lines

/-!
# Matching of root causes

`evaluation/matching.py`: a root cause is compared in a normal form, without white space and without
the characters of a class. The class is read as Python reads it: in `\\-_` the hyphen stands between
two characters, so that it makes a range from the backslash to the underscore. The range holds `]` and
`^` as well, and the hyphen itself is not in it.
-/

namespace EnergyAgent.Evaluation

open EnergyAgent.Lib EnergyAgent.Lib.Text

/-- What the comparison takes from the Unicode data base: `unicodedata.normalize("NFKC", ·)` and
`str.casefold`. -/
structure UnicodeForms where
  nfkc : List Char → List Char
  casefold : List Char → List Char

/-- The pattern of the characters that are deleted. -/
def separatorPattern : String := "[\\s，。；、,:：;（）()\\\\-_/]+"

def separatorClass : CharClass := (repeatedClass separatorPattern).get (by decide)

section matching

variable (forms : UnicodeForms)

def normalizeRootCause (value : List Char) : List Char :=
  let normalized := forms.casefold (forms.nfkc value)
  substituteRuns separatorClass.contains [] false normalized

def rootCauseMatches (candidate canonicalRootCauseId : List Char)
    (acceptedAliases : List (List Char)) : Bool :=
  let expected := normalizeRootCause forms canonicalRootCauseId ::
    acceptedAliases.map (normalizeRootCause forms)
  expected.contains (normalizeRootCause forms candidate)

def rankHit (candidates : List (List Char)) (canonicalRootCauseId : List Char)
    (acceptedAliases : List (List Char)) (topK : Int) : Bool :=
  (upTo topK candidates).any fun item =>
    rootCauseMatches forms item canonicalRootCauseId acceptedAliases

end matching

/-! ## What should be deleted, and what is -/

/-- The characters that the pattern lists. -/
def separators : List Char :=
  ['，', '。', '；', '、', ',', ':', '：', ';', '（', '）', '(', ')', '\\', '-', '_', '/']

def listed (c : Char) : Bool := isSpace c || separators.contains c

def hyphen (c : Char) : Bool := c == '-'

/-- `]` and `^`, which lie between the backslash and the underscore. -/
def between (c : Char) : Bool := c == ']' || c == '^'

/-- The characters on which the pattern and its reading agree that they stay. -/
def plain (c : Char) : Bool := !listed c && !between c

theorem separatorClass_eq : separatorClass = ⟨false, [.space, .literal '，', .literal '。', .literal '；',
    .literal '、', .literal ',', .literal ':', .literal '：', .literal ';', .literal '（', .literal '）',
    .literal '(', .literal ')', .range '\\' '_', .literal '/']⟩ := by decide

/-- The range holds four characters. -/
theorem between_backslash_underscore (c : Char) :
    ('\\' ≤ c ∧ c ≤ '_') ↔ c = '\\' ∨ c = ']' ∨ c = '^' ∨ c = '_' := by
  constructor
  · rintro ⟨hlo, hhi⟩
    have hlo : 92 ≤ c.toNat := hlo
    have hhi : c.toNat ≤ 95 := hhi
    have hcode : c.toNat = 92 ∨ c.toNat = 93 ∨ c.toNat = 94 ∨ c.toNat = 95 := by omega
    rcases hcode with h | h | h | h
    · exact .inl (Char.toNat_inj.mp h)
    · exact .inr (.inl (Char.toNat_inj.mp h))
    · exact .inr (.inr (.inl (Char.toNat_inj.mp h)))
    · exact .inr (.inr (.inr (Char.toNat_inj.mp h)))
  · rintro (rfl | rfl | rfl | rfl) <;> decide

/-- The class has every listed character but the hyphen, and `]` and `^`. -/
theorem contains_separatorClass (c : Char) :
    separatorClass.contains c = true ↔
      (listed c = true ∧ hyphen c = false) ∨ between c = true := by
  simp only [separatorClass_eq, CharClass.contains, List.any_cons, List.any_nil, ClassItem.contains,
    Bool.bne_false, Bool.or_false, Bool.or_eq_true, Bool.and_eq_true, decide_eq_true_eq,
    between_backslash_underscore, beq_iff_eq, listed, List.contains_iff_mem, separators, hyphen,
    between, beq_eq_false_iff_ne, List.mem_cons, List.not_mem_nil, or_false]
  have hspace : isSpace '-' = false := by decide
  by_cases hc : c = '-'
  · subst hc
    simp [hspace]
  · simp only [hc, false_or, ne_eq, not_false_eq_true, and_true]
    refine iff_of_eq ?_
    ac_rfl

theorem hyphen_listed {c : Char} (h : hyphen c = true) : listed c = true ∧ between c = false := by
  simp only [hyphen, beq_iff_eq] at h
  subst h
  decide

theorem between_not_listed {c : Char} (h : between c = true) : listed c = false := by
  simp only [between, Bool.or_eq_true, beq_iff_eq] at h
  rcases h with rfl | rfl <;> decide

/-- What the code keeps. -/
theorem not_contains_eq (c : Char) : (!separatorClass.contains c) = (plain c || hyphen c) := by
  have hclass := contains_separatorClass c
  unfold plain
  by_cases hhyphen : hyphen c = true
  · obtain ⟨hlisted, hbetween⟩ := hyphen_listed hhyphen
    grind
  · grind

/-- What should be kept. -/
theorem not_listed_eq (c : Char) : (!listed c) = (plain c || between c) := by
  unfold plain
  cases hbetween : between c
  · simp
  · simp [between_not_listed hbetween]

section separators

variable (forms : UnicodeForms)

theorem normalizeRootCause_stable {value : List Char} (h : forms.casefold (forms.nfkc value) = value) :
    normalizeRootCause forms value = value.filter fun c => plain c || hyphen c := by
  unfold normalizeRootCause
  rw [h, substituteRuns_nil]
  exact List.filter_congr fun c _ => not_contains_eq c

/-- The text without white space and listed characters. -/
def bare (value : List Char) : List Char := value.filter fun c => !listed c

theorem bare_eq (value : List Char) : bare value = value.filter fun c => plain c || between c :=
  List.filter_congr fun c _ => not_listed_eq c

/-- White space and listed characters make no difference, and other characters do. -/
structure IgnoresSeparators (s t : List Char) : Prop where
  ignores : bare s = bare t → normalizeRootCause forms s = normalizeRootCause forms t
  conversely : normalizeRootCause forms s = normalizeRootCause forms t → bare s = bare t
  candidate : bare s = bare t → ∀ canonicalId aliases,
    rootCauseMatches forms s canonicalId aliases = rootCauseMatches forms t canonicalId aliases
  canonicalId : bare s = bare t → ∀ candidate aliases,
    rootCauseMatches forms candidate s aliases = rootCauseMatches forms candidate t aliases
  accepted : bare s = bare t → ∀ candidate canonicalId before after,
    rootCauseMatches forms candidate canonicalId (before ++ s :: after) =
      rootCauseMatches forms candidate canonicalId (before ++ t :: after)

variable {forms}

/-- A match depends on the normal forms only, so that it is enough to compare these. -/
theorem IgnoresSeparators.of_iff {s t : List Char}
    (h : bare s = bare t ↔ normalizeRootCause forms s = normalizeRootCause forms t) :
    IgnoresSeparators forms s t where
  ignores := h.mp
  conversely := h.mpr
  candidate hbare canonicalId aliases := by
    simp only [rootCauseMatches, h.mp hbare]
  canonicalId hbare candidate aliases := by
    simp only [rootCauseMatches, h.mp hbare]
  accepted hbare candidate canonicalId before after := by
    simp only [rootCauseMatches, List.map_append, List.map_cons, h.mp hbare]

/-- **Separators in root causes.** For texts that the two Unicode forms leave unchanged, matching
ignores separators exactly when, with the same plain characters in both, the hyphens agree just when
the characters `]` and `^` do. -/
theorem ignoresSeparators_iff (s t : List Char) (hs : forms.casefold (forms.nfkc s) = s)
    (ht : forms.casefold (forms.nfkc t) = t) :
    IgnoresSeparators forms s t ↔
      (s.filter plain = t.filter plain →
        (gaps plain hyphen s = gaps plain hyphen t ↔ gaps plain between s = gaps plain between t)) := by
  have hnormal : normalizeRootCause forms s = normalizeRootCause forms t ↔
      s.filter plain = t.filter plain ∧ gaps plain hyphen s = gaps plain hyphen t := by
    rw [normalizeRootCause_stable forms hs, normalizeRootCause_stable forms ht]
    exact filter_or_eq_iff s t
  have hbare : bare s = bare t ↔
      s.filter plain = t.filter plain ∧ gaps plain between s = gaps plain between t := by
    rw [bare_eq, bare_eq]
    exact filter_or_eq_iff s t
  constructor
  · intro h hplain
    constructor
    · intro hhyphens
      exact (hbare.mp (h.conversely (hnormal.mpr ⟨hplain, hhyphens⟩))).2
    · intro hbetween
      exact (hnormal.mp (h.ignores (hbare.mpr ⟨hplain, hbetween⟩))).2
  · intro h
    apply IgnoresSeparators.of_iff
    rw [hnormal, hbare]
    constructor
    · rintro ⟨hplain, hbetween⟩
      exact ⟨hplain, (h hplain).mpr hbetween⟩
    · rintro ⟨hplain, hhyphens⟩
      exact ⟨hplain, (h hplain).mp hhyphens⟩

end separators

/-- The Unicode forms of ASCII texts. -/
def asciiForms : UnicodeForms where
  nfkc value := value
  casefold value := value.map Char.toLower

theorem spaced_stop_ignored : IgnoresSeparators asciiForms "fan, stop".toList "fan_stop".toList := by
  rw [ignoresSeparators_iff _ _ (by decide) (by decide)]
  decide

/-- A hyphen is not ignored, and a caret is. -/
theorem hyphen_kept : ¬ IgnoresSeparators asciiForms "fan-stop".toList "fan stop".toList ∧
    ¬ IgnoresSeparators asciiForms "10^3".toList "103".toList := by
  constructor
  · intro h
    exact absurd (h.ignores (by decide)) (by decide)
  · intro h
    exact absurd (h.conversely (by decide)) (by decide)

end EnergyAgent.Evaluation
