import EnergyAgent.Lib.Text

/-!
# Character classes of regular expressions

`[...]` of Python's `re`, read as its parser reads it: an escape is one item, a hyphen between two
characters makes a range, and only a hyphen at an end is itself. The last section is about deleting
characters: `re.sub("[...]+", "", text)` deletes the characters of the class.
-/

namespace EnergyAgent.Lib

/-- An item of a class. -/
inductive ClassItem
  /-- `\s` -/
  | space
  | literal (c : Char)
  | range (first last : Char)
  deriving DecidableEq, Repr

structure CharClass where
  negated : Bool
  items : List ClassItem
  deriving DecidableEq, Repr

def ClassItem.contains (c : Char) : ClassItem → Bool
  | .space => Text.isSpace c
  | .literal d => c == d
  | .range first last => first ≤ c && c ≤ last

def CharClass.contains (cls : CharClass) (c : Char) : Bool :=
  cls.items.any (·.contains c) != cls.negated

/-! ## Reading a class -/

/-- One character of a class, or an escape; of letters only `\s` is known here. -/
def classAtom : List Char → Option (ClassItem × List Char)
  | [] | ['\\'] => none
  | '\\' :: c :: rest =>
      if c = 's' then some (.space, rest)
      else if c.isAlphanum then none
      else some (.literal c, rest)
  | c :: rest => some (.literal c, rest)

/-- The items up to the closing bracket, which is a character itself in the first place. A range needs
two characters in their order. The first argument bounds the number of items. -/
def classItems : Nat → List ClassItem → List Char → Option (List ClassItem × List Char)
  | 0, _, _ => none
  | fuel + 1, items, text =>
      if items ≠ [] ∧ text.head? = some ']' then some (items, text.tail)
      else
        (classAtom text).bind fun (first, rest) =>
          match rest with
          | '-' :: ']' :: rest => some (items ++ [first, .literal '-'], rest)
          | '-' :: rest =>
              (classAtom rest).bind fun (last, rest) =>
                match first, last with
                | .literal lo, .literal hi =>
                    if lo ≤ hi then classItems fuel (items ++ [.range lo hi]) rest else none
                | _, _ => none
          | rest => classItems fuel (items ++ [first]) rest

/-- A class, and what follows it in the pattern. -/
def parseClass : List Char → Option (CharClass × List Char)
  | '[' :: '^' :: rest => (classItems rest.length [] rest).map fun (items, rest) => (⟨true, items⟩, rest)
  | '[' :: rest => (classItems rest.length [] rest).map fun (items, rest) => (⟨false, items⟩, rest)
  | _ => none

example : (parseClass "[a\\-z]".toList).map (·.1.items) =
    some [.literal 'a', .literal '-', .literal 'z'] := by decide

/-- The class of a pattern `[...]+`. -/
def repeatedClass (pattern : String) : Option CharClass :=
  (parseClass pattern.toList).bind fun (cls, rest) => if rest = ['+'] then some cls else none

/-! ## Deleting characters -/

/-- `re.sub` of the longest runs of characters that satisfy `p`; `inRun` says that the character
before was one of them. -/
def substituteRuns (p : Char → Bool) (replacement : List Char) (inRun : Bool) :
    List Char → List Char
  | [] => []
  | c :: cs =>
      if p c then (if inRun then [] else replacement) ++ substituteRuns p replacement true cs
      else c :: substituteRuns p replacement false cs

/-- To replace runs by nothing is to delete their characters. -/
theorem substituteRuns_nil (p : Char → Bool) (inRun : Bool) (text : List Char) :
    substituteRuns p [] inRun text = text.filter fun c => !p c := by
  induction text generalizing inRun with
  | nil => rfl
  | cons c cs ih =>
      unfold substituteRuns
      by_cases hc : p c = true
      · simp [hc, ih]
      · simp [hc, ih]

/-! ## Letters and marks -/

section gaps

variable {α : Type*} (letter mark : α → Bool)

/-- The marks before each letter, and behind the last. -/
def gaps : List α → List (List α)
  | [] => [[]]
  | c :: cs =>
      if letter c then [] :: gaps cs
      else if mark c then
        match gaps cs with
        | [] => [[c]]
        | first :: rest => (c :: first) :: rest
      else gaps cs

/-- The letters with their gaps. -/
def weave : List α → List (List α) → List α
  | _, [] => []
  | [], gap :: _ => gap
  | c :: cs, gap :: rest => gap ++ c :: weave cs rest

variable {letter mark}

theorem gaps_ne_nil (l : List α) : gaps letter mark l ≠ [] := by
  induction l with
  | nil => exact List.cons_ne_nil _ _
  | cons c cs ih =>
      unfold gaps
      split
      · exact List.cons_ne_nil _ _
      · split
        · split <;> exact List.cons_ne_nil _ _
        · exact ih

theorem weave_mark (c : α) (cs first : List α) (rest : List (List α)) :
    weave cs ((c :: first) :: rest) = c :: weave cs (first :: rest) := by
  cases cs <;> rfl

theorem weave_gaps (l : List α) : weave (l.filter letter) (gaps letter mark l) =
    l.filter fun c => letter c || mark c := by
  induction l with
  | nil => rfl
  | cons c cs ih =>
      by_cases hletter : letter c = true
      · simp [gaps, weave, hletter, ih]
      · by_cases hmark : mark c = true
        · cases hgaps : gaps letter mark cs with
          | nil => exact absurd hgaps (gaps_ne_nil cs)
          | cons first rest =>
              rw [hgaps] at ih
              simp [gaps, hletter, hmark, hgaps, weave_mark, ih]
        · simp [gaps, hletter, hmark, ih]

/-- Characters that are neither letters nor marks leave no gap. -/
theorem gaps_filter (l : List α) :
    gaps letter mark (l.filter fun c => letter c || mark c) = gaps letter mark l := by
  induction l with
  | nil => rfl
  | cons c cs ih =>
      by_cases hletter : letter c = true
      · simp [gaps, hletter, ih]
      · by_cases hmark : mark c = true
        · simp [gaps, hletter, hmark, ih]
        · simp [gaps, hletter, hmark, ih]

/-- **Letters and marks.** Two lists have the same letters and marks when they have the same letters
with the same marks between them. -/
theorem filter_or_eq_iff (l l' : List α) :
    (l.filter fun c => letter c || mark c) = l'.filter (fun c => letter c || mark c) ↔
      l.filter letter = l'.filter letter ∧ gaps letter mark l = gaps letter mark l' := by
  constructor
  · intro h
    have hletters : ∀ m : List α,
        (m.filter fun c => letter c || mark c).filter letter = m.filter letter := by
      intro m
      rw [List.filter_filter]
      refine List.filter_congr fun c _ => ?_
      cases letter c <;> simp
    refine ⟨?_, ?_⟩
    · rw [← hletters l, ← hletters l', h]
    · rw [← gaps_filter l, ← gaps_filter l', h]
  · rintro ⟨hletters, hgaps⟩
    rw [← weave_gaps l, ← weave_gaps l', hletters, hgaps]

end gaps

end EnergyAgent.Lib
