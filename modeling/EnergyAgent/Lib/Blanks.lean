import EnergyAgent.Lib.Text
import Mathlib.Algebra.GroupWithZero.Nat
import Mathlib.Tactic.Common
import Mathlib.Data.List.TakeWhile

/-!
# What stripping leaves and what joining puts together

`trim p` drops the elements that satisfy `p` from both ends of a list; `str.strip()` is `trim isSpace`
of the code points. Nothing here depends on which characters are blank.
-/

namespace EnergyAgent.Lib

section trim

variable {α : Type*} (p : α → Bool)

def trim (l : List α) : List α := ((l.dropWhile p).reverse.dropWhile p).reverse

/-- `trim` cuts off two runs of `p`. -/
theorem exists_trim (l : List α) :
    ∃ a b, l = a ++ trim p l ++ b ∧ (∀ c ∈ a, p c = true) ∧ ∀ c ∈ b, p c = true := by
  refine ⟨l.takeWhile p, ((l.dropWhile p).reverse.takeWhile p).reverse, ?_, ?_, ?_⟩
  · have hback : trim p l ++ ((l.dropWhile p).reverse.takeWhile p).reverse = l.dropWhile p := by
      unfold trim
      rw [← List.reverse_append, List.takeWhile_append_dropWhile, List.reverse_reverse]
    rw [List.append_assoc, hback, List.takeWhile_append_dropWhile]
  · intro c hc
    exact List.mem_takeWhile_imp hc
  · intro c hc
    exact List.mem_takeWhile_imp (List.mem_reverse.mp hc)

theorem trim_within (l : List α) : trim p l <:+: l := by
  obtain ⟨a, b, hl, -, -⟩ := exists_trim p l
  exact ⟨a, b, hl.symm⟩

theorem length_trim_le (l : List α) : (trim p l).length ≤ l.length :=
  (trim_within p l).length_le

/-- Nothing was cut off where the length is the same. -/
theorem trim_eq_of_length {l : List α} (h : l.length ≤ (trim p l).length) : trim p l = l :=
  (trim_within p l).eq_of_length_le h

theorem trim_eq_nil_iff {l : List α} : trim p l = [] ↔ ∀ c ∈ l, p c = true := by
  constructor
  · intro h c hc
    obtain ⟨a, b, hl, ha, hb⟩ := exists_trim p l
    rw [h, List.append_nil] at hl
    rw [hl] at hc
    rcases List.mem_append.mp hc with hc | hc
    · exact ha c hc
    · exact hb c hc
  · intro h
    have hfront : l.dropWhile p = [] := List.dropWhile_eq_nil_iff.mpr h
    unfold trim
    rw [hfront]
    rfl

/-- What is left is blank only when all was. -/
theorem forall_mem_trim_iff {l : List α} :
    (∀ c ∈ trim p l, p c = true) ↔ ∀ c ∈ l, p c = true := by
  constructor
  · intro h c hc
    obtain ⟨a, b, hl, ha, hb⟩ := exists_trim p l
    rw [hl] at hc
    rcases List.mem_append.mp hc with hc | hc
    · rcases List.mem_append.mp hc with hc | hc
      · exact ha c hc
      · exact h c hc
    · exact hb c hc
  · intro h c hc
    exact h c ((trim_within p l).subset hc)

/-- The last element that is left does not satisfy `p`. -/
theorem getLast?_trim {l : List α} {c : α} (h : (trim p l).getLast? = some c) : p c = false := by
  unfold trim at h
  rw [List.getLast?_reverse] at h
  cases hdrop : (l.dropWhile p).reverse.dropWhile p with
  | nil =>
      rw [hdrop] at h
      cases h
  | cons d rest =>
      rw [hdrop] at h
      cases h
      have hhead := List.head?_dropWhile_not p (l.dropWhile p).reverse
      rw [hdrop] at hhead
      simpa using hhead

/-- The first element that is left does not satisfy `p`. -/
theorem head?_trim {l : List α} {c : α} (h : (trim p l).head? = some c) : p c = false := by
  have hprefix : trim p l <+: l.dropWhile p := by
    unfold trim
    rw [← List.reverse_suffix, List.reverse_reverse]
    exact List.dropWhile_suffix _
  obtain ⟨rest, hrest⟩ := hprefix
  have hhead := List.head?_dropWhile_not p l
  rw [← hrest, List.head?_append, h] at hhead
  simpa using hhead

/-- Dropping at the front stops at the latest before a part whose first element stays. -/
theorem infix_dropWhile {l m : List α} {c : α} (hhead : l.head? = some c) (hc : p c = false)
    (h : l <:+: m) : l <:+: m.dropWhile p := by
  obtain ⟨before, after, rfl⟩ := h
  rw [List.append_assoc]
  induction before with
  | nil =>
      cases l with
      | nil => cases hhead
      | cons d rest =>
          cases hhead
          exact ⟨[], after, by simp [hc]⟩
  | cons d before ih =>
      by_cases hd : p d = true
      · simpa [hd] using ih
      · exact ⟨d :: before, after, by simp [hd]⟩

/-- What is left of a part is in what is left of the whole. -/
theorem trim_infix_trim {l m : List α} (h : l <:+: m) : trim p l <:+: trim p m := by
  cases htrim : trim p l with
  | nil => exact List.nil_infix
  | cons c rest =>
      have hfront : p c = false := head?_trim p (l := l) (by rw [htrim]; rfl)
      have hback := getLast?_trim p (l := l) (c := (c :: rest).getLast (List.cons_ne_nil _ _))
        (by rw [htrim]; exact List.getLast?_eq_some_getLast _)
      have hin : c :: rest <:+: m := htrim ▸ (trim_within p l).trans h
      have hdropped := infix_dropWhile p rfl hfront hin
      -- the same at the other end
      rw [← List.reverse_infix] at hdropped
      have hdropped' := infix_dropWhile p (c := (c :: rest).getLast (List.cons_ne_nil _ _))
        (by rw [List.head?_reverse]; exact List.getLast?_eq_some_getLast _) hback hdropped
      rw [← List.reverse_infix, List.reverse_reverse] at hdropped'
      exact hdropped'

end trim

namespace Text

theorem toList_strip (s : String) : (strip s).toList = trim isSpace s.toList :=
  String.toList_ofList

theorem length_strip_le (s : String) : (strip s).length ≤ s.length := by
  rw [← String.length_toList, ← String.length_toList, toList_strip]
  exact length_trim_le isSpace s.toList

theorem strip_eq_of_length {s : String} (h : s.length ≤ (strip s).length) : strip s = s := by
  rw [← String.length_toList, ← String.length_toList, toList_strip] at h
  apply String.toList_injective
  rw [toList_strip]
  exact trim_eq_of_length isSpace h

theorem strip_eq_empty_iff {s : String} : strip s = "" ↔ isBlank s = true := by
  have htrim : strip s = "" ↔ trim isSpace s.toList = [] := by
    rw [← toList_strip]
    exact String.toList_eq_nil_iff.symm
  rw [htrim, trim_eq_nil_iff]
  exact List.all_eq_true.symm

/-- The length of the parts with one place for a separator after each of them. -/
def spaced (parts : List String) : Nat := (parts.map (fun part => part.length + 1)).sum

theorem spaced_cons (part : String) (parts : List String) :
    spaced (part :: parts) = part.length + 1 + spaced parts := rfl

/-- A join over a one-character separator has one separator less than it has parts. -/
theorem length_join {sep : String} (hsep : sep.length = 1) (parts : List String) :
    (join sep parts).length = spaced parts - 1 := by
  induction parts with
  | nil => rfl
  | cons part parts ih =>
      cases parts with
      | nil => rfl
      | cons next parts =>
          have hjoin : join sep (part :: next :: parts) = part ++ sep ++ join sep (next :: parts) := rfl
          have hnext := spaced_cons next parts
          rw [hjoin, String.length_append, String.length_append, ih, hsep, spaced_cons part]
          omega

theorem join_cons (sep part : String) (parts : List String) :
    join sep (part :: parts) = part ++ String.join (parts.map fun next => sep ++ next) := by
  induction parts generalizing part with
  | nil => simp [join]
  | cons next parts ih =>
      have hjoin : join sep (part :: next :: parts) = part ++ sep ++ join sep (next :: parts) := rfl
      rw [hjoin, ih, List.map_cons, String.join_cons]
      simp only [String.append_assoc]

/-- The parts before one of them and the parts behind it. -/
theorem join_split (sep part : String) (before after : List String) :
    join sep (before ++ part :: after) = String.join (before.map fun first => first ++ sep) ++ part ++
      String.join (after.map fun next => sep ++ next) := by
  induction before with
  | nil => simp [join_cons]
  | cons first before ih =>
      have hjoin : join sep (first :: (before ++ part :: after)) =
          first ++ sep ++ join sep (before ++ part :: after) := by
        cases before <;> rfl
      rw [List.cons_append, hjoin, ih, List.map_cons, String.join_cons]
      simp only [String.append_assoc]

end Text

end EnergyAgent.Lib
