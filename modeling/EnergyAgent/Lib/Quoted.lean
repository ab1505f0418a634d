import Mathlib.Data.List.Infix
import Mathlib.Tactic.Common

/-!
# Quoted literals

A literal between double quotes in which a backslash escapes the next character and, in languages
with interpolation, `${` opens an expression. A text that is written into such a literal with only
its quotes escaped is read back where it contains neither, and only there.
-/

namespace EnergyAgent.Lib.Quoted

/-- How a language reads its literals. -/
structure Rules where
  /-- What a backslash and the next character stand for. -/
  escaped : Char → Option Char
  escaped_quote : escaped '"' = some '"'
  /-- Does `${` open an expression? -/
  interpolation : Bool

section reading

variable (rules : Rules)

/-- Read a literal from behind its opening quote: its value and what follows the closing quote.
There is no value where the literal does not end, or where it is more than a literal. `escape` says
that a backslash came before. -/
def readFrom : Bool → List Char → Option (List Char × List Char)
  | _, [] => none
  | true, c :: cs =>
      (rules.escaped c).bind fun e => (readFrom false cs).map fun p => (e :: p.1, p.2)
  | false, c :: cs =>
      if c = '"' then some ([], cs)
      else if c = '\\' then readFrom true cs
      else if rules.interpolation ∧ c = '$' ∧ cs.head? = some '{' then none
      else (readFrom false cs).map fun p => (c :: p.1, p.2)

def read (cs : List Char) : Option (List Char × List Char) := readFrom rules false cs

/-- Every quote behind a backslash. -/
def escapeQuotes (s : List Char) : List Char :=
  s.flatMap fun c => if c = '"' then ['\\', '"'] else [c]

/-- The texts that a literal can hold as they are, once their quotes are escaped. -/
def Plain (s : List Char) : Prop :=
  '\\' ∉ s ∧ (rules.interpolation = true → ¬ ['$', '{'] <:+: s)

instance (s : List Char) : Decidable (Plain rules s) := inferInstanceAs (Decidable (_ ∧ _))

theorem read_quote (cs : List Char) : read rules ('"' :: cs) = some ([], cs) := rfl

theorem read_escape (d : Char) (ds : List Char) : read rules ('\\' :: d :: ds) =
    (rules.escaped d).bind fun e => (read rules ds).map fun p => (e :: p.1, p.2) := rfl

theorem read_opens {c : Char} {cs : List Char} (hquote : c ≠ '"') (hback : c ≠ '\\')
    (hopens : rules.interpolation ∧ c = '$' ∧ cs.head? = some '{') : read rules (c :: cs) = none := by
  show (if c = '"' then some ([], cs) else _) = _
  rw [if_neg hquote, if_neg hback, if_pos hopens]

theorem read_plain {c : Char} {cs : List Char} (hquote : c ≠ '"') (hback : c ≠ '\\')
    (hopens : ¬ (rules.interpolation ∧ c = '$' ∧ cs.head? = some '{')) :
    read rules (c :: cs) = (read rules cs).map fun p => (c :: p.1, p.2) := by
  show (if c = '"' then some ([], cs) else _) = _
  rw [if_neg hquote, if_neg hback, if_neg hopens]
  rfl

theorem escapeQuotes_quote (s : List Char) : escapeQuotes ('"' :: s) = '\\' :: '"' :: escapeQuotes s :=
  rfl

theorem escapeQuotes_cons {c : Char} (hquote : c ≠ '"') (s : List Char) :
    escapeQuotes (c :: s) = c :: escapeQuotes s := by
  show (if c = '"' then ['\\', '"'] else [c]) ++ escapeQuotes s = _
  rw [if_neg hquote]
  rfl

/-- Nothing is escaped in a text without quotes. -/
theorem escapeQuotes_eq_self {s : List Char} (h : '"' ∉ s) : escapeQuotes s = s := by
  induction s with
  | nil => rfl
  | cons c s ih =>
      have hquote : c ≠ '"' := fun hc => h (hc ▸ List.mem_cons_self ..)
      rw [escapeQuotes_cons hquote, ih fun hmem => h (List.mem_cons_of_mem _ hmem)]

/-- The character behind the first one is a brace in the escaped text where it is one in the text. -/
theorem head?_escapeQuotes (s post : List Char) :
    (escapeQuotes s ++ '"' :: post).head? = some '{' ↔ s.head? = some '{' := by
  cases s with
  | nil =>
      show some '"' = some '{' ↔ none = some '{'
      decide
  | cons c s =>
      by_cases hquote : c = '"'
      · subst hquote
        show some '\\' = some '{' ↔ some '"' = some '{'
        decide
      · rw [escapeQuotes_cons hquote]
        exact Iff.rfl

theorem opens_cons {c : Char} {s : List Char} :
    ['$', '{'] <:+: c :: s ↔ (c = '$' ∧ s.head? = some '{') ∨ ['$', '{'] <:+: s := by
  rw [List.infix_cons_iff]
  apply or_congr_left
  rw [List.cons_prefix_cons]
  apply and_congr
  · exact eq_comm
  · cases s with
    | nil => simp
    | cons d s => simp [List.cons_prefix_cons, eq_comm]

theorem plain_cons {c : Char} {s : List Char} : Plain rules (c :: s) ↔
    c ≠ '\\' ∧ ¬ (rules.interpolation = true ∧ c = '$' ∧ s.head? = some '{') ∧ Plain rules s := by
  unfold Plain
  rw [List.mem_cons, opens_cons]
  grind

/-- The rest of a literal is shorter than the text it was read from. -/
theorem length_read_lt : ∀ {cs v r : List Char}, read rules cs = some (v, r) → r.length < cs.length
  | [], v, r, h => nomatch h
  | c :: cs, v, r, h => by
    by_cases hquote : c = '"'
    · subst hquote
      cases h
      exact Nat.lt_succ_self _
    · by_cases hback : c = '\\'
      · subst hback
        cases cs with
        | nil => cases h
        | cons d ds =>
            rw [read_escape] at h
            obtain ⟨e, -, hrest⟩ := Option.bind_eq_some_iff.mp h
            obtain ⟨p, hread, hp⟩ := Option.map_eq_some_iff.mp hrest
            cases hp
            have hlt := length_read_lt hread
            simp only [List.length_cons]
            omega
      · by_cases hopens : rules.interpolation ∧ c = '$' ∧ cs.head? = some '{'
        · rw [read_opens rules hquote hback hopens] at h
          cases h
        · rw [read_plain rules hquote hback hopens] at h
          obtain ⟨p, hread, hp⟩ := Option.map_eq_some_iff.mp h
          cases hp
          have hlt := length_read_lt hread
          simp only [List.length_cons]
          omega

/-- A plain text is read back. -/
theorem read_of_plain {s : List Char} (h : Plain rules s) (post : List Char) :
    read rules (escapeQuotes s ++ '"' :: post) = some (s, post) := by
  induction s with
  | nil => rfl
  | cons c s ih =>
      obtain ⟨hback, hopens, hplain⟩ := (plain_cons rules).mp h
      by_cases hquote : c = '"'
      · subst hquote
        rw [escapeQuotes_quote, List.cons_append, List.cons_append, read_escape,
          rules.escaped_quote, Option.bind_some, ih hplain]
        rfl
      · rw [← head?_escapeQuotes s post] at hopens
        rw [escapeQuotes_cons hquote, List.cons_append, read_plain rules hquote hback hopens,
          ih hplain]
        rfl

/-- A literal that ends at its own quote has at most as many characters as the text that was
written into it, and fewer where that text is not plain: an escape takes two characters of it for
one of the value. -/
theorem plain_of_length {post : List Char} :
    ∀ {s v : List Char}, read rules (escapeQuotes s ++ '"' :: post) = some (v, post) →
      v.length ≤ s.length ∧ (s.length ≤ v.length → Plain rules s)
  | [], v, h => by
    cases h
    exact ⟨Nat.le_refl 0, fun _ => ⟨List.not_mem_nil, fun _ => by decide⟩⟩
  | c :: s, v, h => by
    by_cases hquote : c = '"'
    · subst hquote
      rw [escapeQuotes_quote, List.cons_append, List.cons_append, read_escape,
        rules.escaped_quote, Option.bind_some] at h
      obtain ⟨p, hread, hp⟩ := Option.map_eq_some_iff.mp h
      obtain ⟨v', r⟩ := p
      cases hp
      obtain ⟨hle, hplain⟩ := plain_of_length hread
      refine ⟨Nat.succ_le_succ hle, fun hge => (plain_cons rules).mpr ⟨by decide, ?_, ?_⟩⟩
      · rintro ⟨-, hdollar, -⟩
        cases hdollar
      · exact hplain (Nat.le_of_succ_le_succ hge)
    · rw [escapeQuotes_cons hquote, List.cons_append] at h
      by_cases hback : c = '\\'
      · subst hback
        cases s with
        | nil =>
            -- the backslash escapes the closing quote
            change read rules ('\\' :: '"' :: post) = _ at h
            rw [read_escape, rules.escaped_quote, Option.bind_some] at h
            obtain ⟨p, hread, hp⟩ := Option.map_eq_some_iff.mp h
            cases hp
            exact absurd (length_read_lt rules hread) (Nat.lt_irrefl _)
        | cons d s =>
            by_cases hd : d = '"'
            · -- it escapes the backslash put before a quote, and that quote ends the literal
              subst hd
              rw [escapeQuotes_quote, List.cons_append, List.cons_append, read_escape] at h
              obtain ⟨e, -, hrest⟩ := Option.bind_eq_some_iff.mp h
              rw [read_quote, Option.map_some, Option.some.injEq, Prod.mk.injEq] at hrest
              have hlength := congrArg List.length hrest.2
              rw [List.length_append, List.length_cons] at hlength
              omega
            · rw [escapeQuotes_cons hd, List.cons_append, read_escape] at h
              obtain ⟨e, -, hrest⟩ := Option.bind_eq_some_iff.mp h
              obtain ⟨p, hread, hp⟩ := Option.map_eq_some_iff.mp hrest
              obtain ⟨v', r⟩ := p
              cases hp
              obtain ⟨hle, -⟩ := plain_of_length hread
              simp only [List.length_cons]
              refine ⟨by omega, fun hge => ?_⟩
              omega
      · by_cases hopens : rules.interpolation ∧ c = '$' ∧
            (escapeQuotes s ++ '"' :: post).head? = some '{'
        · rw [read_opens rules hquote hback hopens] at h
          cases h
        · rw [read_plain rules hquote hback hopens] at h
          rw [head?_escapeQuotes] at hopens
          obtain ⟨p, hread, hp⟩ := Option.map_eq_some_iff.mp h
          obtain ⟨v', r⟩ := p
          cases hp
          obtain ⟨hle, hplain⟩ := plain_of_length hread
          refine ⟨Nat.succ_le_succ hle, fun hge => ?_⟩
          exact (plain_cons rules).mpr ⟨hback, hopens, hplain (Nat.le_of_succ_le_succ hge)⟩

/-- **A text is read back** from a literal with its quotes escaped exactly where it is plain. -/
theorem read_escapeQuotes_iff {s post : List Char} :
    read rules (escapeQuotes s ++ '"' :: post) = some (s, post) ↔ Plain rules s :=
  ⟨fun h => (plain_of_length rules h).2 (Nat.le_refl _), fun h => read_of_plain rules h post⟩

end reading

end EnergyAgent.Lib.Quoted
