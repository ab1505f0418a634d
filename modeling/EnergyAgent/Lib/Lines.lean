import EnergyAgent.Lib.Blanks
import Mathlib.Data.Fin.Tuple.Basic
import Mathlib.Data.List.Forall2
import Mathlib.Order.Monotone.Basic

/-!
# Lines, joined lines and windows

Texts as lists of code points: `str.splitlines()`, the join of parts over one separator, and the
slices of a fixed size that an overlap extends to windows. The last section puts items in order into
a list of places.
-/

namespace EnergyAgent.Lib

/-! ## Lines -/

namespace Text

/-- The characters at which `str.splitlines` ends a line. -/
def isLineBreak (c : Char) : Bool :=
  let n := c.toNat
  (0x0a ≤ n && n ≤ 0x0d) || (0x1c ≤ n && n ≤ 0x1e) || n == 0x85 || n == 0x2028 || n == 0x2029

/-- `str.splitlines`; `returned` says that the character before was a carriage return, which a line
feed only completes. -/
def splitlinesFrom (returned : Bool) : List Char → List (List Char)
  | [] => []
  | c :: cs =>
      if returned && c == '\n' then splitlinesFrom false cs
      else if isLineBreak c then [] :: splitlinesFrom (c == '\r') cs
      else match splitlinesFrom false cs with
        | [] => [[c]]
        | line :: lines => (c :: line) :: lines

def splitlines (text : List Char) : List (List Char) := splitlinesFrom false text

example : splitlines "a\r\nb\n\nc\n".toList = ["a".toList, "b".toList, [], "c".toList] := by decide

theorem splitlinesFrom_no_break {returned : Bool} {text line : List Char}
    (h : line ∈ splitlinesFrom returned text) : ∀ c ∈ line, isLineBreak c = false := by
  induction text generalizing returned line with
  | nil => exact absurd h List.not_mem_nil
  | cons c cs ih =>
      unfold splitlinesFrom at h
      split at h
      · exact ih h
      · split at h
        · rcases List.mem_cons.mp h with rfl | h
          · exact fun c hc => absurd hc List.not_mem_nil
          · exact ih h
        · next hbreak =>
            have hc : isLineBreak c = false := Bool.eq_false_iff.mpr hbreak
            split at h
            · rw [List.mem_singleton.mp h]
              exact fun d hd => List.mem_singleton.mp hd ▸ hc
            · next first rest heq =>
                rcases List.mem_cons.mp h with rfl | h
                · intro d hd
                  rcases List.mem_cons.mp hd with rfl | hd
                  · exact hc
                  · exact ih (heq ▸ List.mem_cons_self ..) d hd
                · exact ih (heq ▸ List.mem_cons_of_mem _ h)

/-- The first line is at the front of the text. -/
theorem splitlinesFrom_head {text line : List Char} {lines : List (List Char)}
    (h : splitlinesFrom false text = line :: lines) : line <+: text := by
  induction text generalizing line lines with
  | nil => cases h
  | cons c cs ih =>
      unfold splitlinesFrom at h
      simp only [Bool.false_and, Bool.false_eq_true, ↓reduceIte] at h
      split at h
      · cases h
        exact List.nil_prefix
      · split at h
        · cases h
          exact ⟨cs, rfl⟩
        · next first rest heq =>
            cases h
            exact List.prefix_cons_inj c |>.mpr (ih heq)

theorem splitlinesFrom_within {returned : Bool} {text line : List Char}
    (h : line ∈ splitlinesFrom returned text) : line <:+: text := by
  induction text generalizing returned line with
  | nil => exact absurd h List.not_mem_nil
  | cons c cs ih =>
      unfold splitlinesFrom at h
      split at h
      · exact (ih h).trans (List.suffix_cons c cs).isInfix
      · split at h
        · rcases List.mem_cons.mp h with rfl | h
          · exact List.nil_infix
          · exact (ih h).trans (List.suffix_cons c cs).isInfix
        · split at h
          · rw [List.mem_singleton.mp h]
            exact ⟨[], cs, rfl⟩
          · next first rest heq =>
              rcases List.mem_cons.mp h with rfl | h
              · exact (List.prefix_cons_inj c |>.mpr (splitlinesFrom_head heq)).isInfix
              · exact (ih (heq ▸ List.mem_cons_of_mem _ h)).trans (List.suffix_cons c cs).isInfix

/-- The lengths of parts, with one place for a separator after each of them. -/
def spread (parts : List (List Char)) : Nat := (parts.map fun part => part.length + 1).sum

theorem spread_cons (part : List Char) (parts : List (List Char)) :
    spread (part :: parts) = part.length + 1 + spread parts := rfl

theorem spread_append (parts parts' : List (List Char)) :
    spread (parts ++ parts') = spread parts + spread parts' := by
  unfold spread
  rw [List.map_append, List.sum_append]

/-- Each line but the last takes at least one more character of the text. -/
theorem spread_splitlinesFrom_le (returned : Bool) (text : List Char) :
    spread (splitlinesFrom returned text) ≤ text.length + 1 := by
  induction text generalizing returned with
  | nil => exact Nat.zero_le _
  | cons c cs ih =>
      unfold splitlinesFrom
      rw [List.length_cons]
      split
      · have hrest := ih false
        omega
      · split
        · have hrest := ih (c == '\r')
          rw [spread_cons, List.length_nil]
          omega
        · have hrest := ih false
          split
          · rw [spread_cons]
            simp [spread]
          · next first rest heq =>
              rw [heq, spread_cons] at hrest
              rw [spread_cons, List.length_cons]
              omega

end Text

/-! ## Joins -/

section joins

variable {α : Type*} {sep : α} {part : List α} {parts : List (List α)}

theorem infix_intercalate (h : part ∈ parts) : part <:+: List.intercalate [sep] parts := by
  induction parts with
  | nil => exact absurd h List.not_mem_nil
  | cons first parts ih =>
      cases parts with
      | nil =>
          rw [List.mem_singleton.mp h]
          exact ⟨[], [], by simp⟩
      | cons next parts =>
          rw [List.intercalate_cons_cons]
          rcases List.mem_cons.mp h with rfl | h
          · exact ⟨[], [sep] ++ List.intercalate [sep] (next :: parts), by simp⟩
          · exact (ih h).trans (List.suffix_append ..).isInfix

/-- A part without separators lies on one side of a separator. -/
theorem infix_append_cons (hpart : sep ∉ part) {left right : List α}
    (h : part <:+: left ++ sep :: right) : part <:+: left ∨ part <:+: right := by
  obtain ⟨before, after, heq⟩ := h
  rcases List.append_eq_append_iff.mp heq with ⟨rest, hleft, hrest⟩ | ⟨rest, hleft, hrest⟩
  · exact Or.inl ⟨before, rest, hleft.symm⟩
  · cases rest with
    | nil =>
        rw [List.append_nil] at hleft
        exact Or.inl (hleft ▸ ⟨before, [], by simp⟩)
    | cons c rest =>
        rw [List.cons_append] at hrest
        obtain ⟨hsep, hright⟩ := List.cons.inj hrest
        rcases List.append_eq_append_iff.mp hleft with ⟨tail, -, htail⟩ | ⟨tail, -, htail⟩
        · have hmem : c ∈ part := htail ▸ List.mem_append_right _ (List.mem_cons_self ..)
          exact absurd (hsep ▸ hmem) hpart
        · cases tail with
          | nil =>
              have hmem : c ∈ part := by
                rw [← List.nil_append part, ← htail]
                exact List.mem_cons_self ..
              exact absurd (hsep ▸ hmem) hpart
          | cons d tail =>
              obtain ⟨-, htail⟩ := List.cons.inj htail
              exact Or.inr ⟨tail, after, by rw [hright, htail]; rfl⟩

/-- A part without separators that occurs in a join occurs in one of the joined parts. -/
theorem infix_intercalate_iff (hpart : sep ∉ part) (hne : parts ≠ []) :
    part <:+: List.intercalate [sep] parts ↔ ∃ whole ∈ parts, part <:+: whole := by
  constructor
  · intro h
    induction parts with
    | nil => exact absurd rfl hne
    | cons first parts ih =>
        cases parts with
        | nil =>
            rw [List.intercalate_singleton] at h
            exact ⟨first, List.mem_singleton_self _, h⟩
        | cons next parts =>
            rw [List.intercalate_cons_cons, List.append_assoc, List.singleton_append] at h
            rcases infix_append_cons hpart h with h | h
            · exact ⟨first, List.mem_cons_self .., h⟩
            · obtain ⟨whole, hmem, hin⟩ := ih (List.cons_ne_nil _ _) h
              exact ⟨whole, List.mem_cons_of_mem _ hmem, hin⟩
  · rintro ⟨whole, hmem, hin⟩
    exact hin.trans (infix_intercalate hmem)

end joins

theorem Text.length_intercalate {sep : Char} {parts : List (List Char)} (hne : parts ≠ []) :
    (List.intercalate [sep] parts).length + 1 = Text.spread parts := by
  induction parts with
  | nil => exact absurd rfl hne
  | cons first parts ih =>
      cases parts with
      | nil => simp [Text.spread]
      | cons next parts =>
          have hrest := ih (List.cons_ne_nil _ _)
          rw [List.intercalate_cons_cons, Text.spread_cons, ← hrest]
          simp only [List.length_append, List.length_singleton]
          omega

/-! ## Windows -/

section windows

variable {α : Type*}

/-- `text[index : index + size]` for `index` in `range(0, len(text), size)`. -/
def slices (size : Nat) (text : List α) : List (List α) :=
  (List.range ((text.length + size - 1) / size)).map fun i => (text.drop (i * size)).take size

/-- A slice with the overlap before it. -/
def window (size overlap : Nat) (text : List α) (i : Nat) : List α :=
  (text.take ((i + 1) * size)).drop (i * size - overlap)

/-- `text[-overlap:] if overlap else ""` -/
def lastOf (overlap : Nat) (text : List α) : List α := text.drop (text.length - overlap)

/-- `items[:stop]`; a negative stop counts from the end. -/
def upTo (stop : Int) (items : List α) : List α :=
  if 0 ≤ stop then items.take stop.toNat else items.take (items.length - stop.natAbs)

/-- How many items `items[:stop]` has at most. -/
def upToCount (stop : Int) (length : Nat) : Nat :=
  if 0 ≤ stop then stop.toNat else length - stop.natAbs

theorem upTo_eq_take (stop : Int) (items : List α) :
    upTo stop items = items.take (upToCount stop items.length) := by
  unfold upTo upToCount
  split <;> rfl

theorem window_zero (size overlap : Nat) (text : List α) :
    window size overlap text 0 = text.take size := by
  simp [window]

/-- The overlap with the window before comes to the overlap with the text before. -/
theorem window_succ {size overlap : Nat} {text : List α} {i : Nat}
    (h : (i + 1) * size ≤ text.length) :
    lastOf overlap (window size overlap text i) ++ (text.drop ((i + 1) * size)).take size =
      window size overlap text (i + 1) := by
  have hbound : (i + 1) * size = i * size + size := Nat.succ_mul i size
  have hnext : (i + 1 + 1) * size = (i + 1) * size + size := Nat.succ_mul (i + 1) size
  have hlen : (text.take ((i + 1) * size)).length = (i + 1) * size := by
    rw [List.length_take]
    omega
  have hdrop : lastOf overlap (window size overlap text i) =
      (text.take ((i + 1) * size)).drop ((i + 1) * size - overlap) := by
    unfold lastOf window
    rw [List.length_drop, hlen, List.drop_drop]
    congr 1
    omega
  rw [hdrop, ← List.drop_append_of_le_length (by rw [hlen]; omega), ← List.take_add, ← hnext]
  rfl

theorem le_length_window {size overlap : Nat} {text : List α} {i : Nat}
    (h : (i + 1) * size ≤ text.length) : size ≤ (window size overlap text i).length := by
  have hbound : (i + 1) * size = i * size + size := Nat.succ_mul i size
  unfold window
  rw [List.length_drop, List.length_take]
  omega

/-- Slice `i` is there when the text goes on behind `i` full slices. -/
theorem lt_slices_iff {size : Nat} (hsize : 0 < size) (length i : Nat) :
    i < (length + size - 1) / size ↔ i * size < length := by
  rw [Nat.lt_iff_add_one_le, Nat.le_div_iff_mul_le hsize, Nat.succ_mul]
  omega

/-- The slices together are the list again. -/
theorem flatten_slices {size : Nat} (hsize : 0 < size) (text : List α) :
    (slices size text).flatten = text := by
  have htake : ∀ n, ((List.range n).map fun i => (text.drop (i * size)).take size).flatten =
      text.take (n * size) := by
    intro n
    induction n with
    | zero => simp
    | succ n ih =>
        rw [List.range_succ, List.map_append, List.flatten_append, ih, Nat.succ_mul, List.take_add]
        simp
  have hlast : ¬ (text.length + size - 1) / size * size < text.length := by
    rw [← lt_slices_iff hsize]
    exact Nat.lt_irrefl _
  unfold slices
  rw [htake]
  exact List.take_of_length_le (Nat.not_lt.mp hlast)

end windows

/-! ## Placing -/

section placing

variable {α β γ : Type*}

theorem exists_of_mem_forall₂ {R : α → β → Prop} {xs : List α} {ys : List β}
    (h : List.Forall₂ R xs ys) : ∀ x ∈ xs, ∃ y ∈ ys, R x y := by
  induction h with
  | nil => exact fun x hx => absurd hx List.not_mem_nil
  | cons hfirst _ ih =>
      intro x hx
      rcases List.mem_cons.mp hx with rfl | hx
      · exact ⟨_, List.mem_cons_self .., hfirst⟩
      · obtain ⟨y, hy, hR⟩ := ih x hx
        exact ⟨y, List.mem_cons_of_mem _ hy, hR⟩

theorem exists_of_mem_forall₂_right {R : α → β → Prop} {xs : List α} {ys : List β}
    (h : List.Forall₂ R xs ys) (y : β) (hy : y ∈ ys) : ∃ x ∈ xs, R x y :=
  exists_of_mem_forall₂ (List.Forall₂.flip (R := fun y x => R x y) h) y hy

/-- The items can be put into places in the order of the places, several into one if need be. -/
inductive PlacedInOrder (fits : α → β → Prop) : List α → List β → Prop
  | nil (places : List β) : PlacedInOrder fits [] places
  | put {item : α} {items : List α} {place : β} {places : List β} :
      fits item place → PlacedInOrder fits items (place :: places) →
        PlacedInOrder fits (item :: items) (place :: places)
  | pass {items : List α} {place : β} {places : List β} :
      PlacedInOrder fits items places → PlacedInOrder fits items (place :: places)

theorem PlacedInOrder.exists_fits {fits : α → β → Prop} {items : List α} {places : List β}
    (h : PlacedInOrder fits items places) : ∀ item ∈ items, ∃ place ∈ places, fits item place := by
  induction h with
  | nil => exact fun item hitem => absurd hitem List.not_mem_nil
  | put hfits _ ih =>
      intro item hitem
      rcases List.mem_cons.mp hitem with rfl | hitem
      · exact ⟨_, List.mem_cons_self .., hfits⟩
      · exact ih item hitem
  | pass _ ih =>
      intro item hitem
      obtain ⟨place, hplace, hfits⟩ := ih item hitem
      exact ⟨place, List.mem_cons_of_mem _ hplace, hfits⟩

theorem PlacedInOrder.all_in_first {fits : α → β → Prop} {items : List α} {place : β}
    (places : List β) (h : ∀ item ∈ items, fits item place) :
    PlacedInOrder fits items (place :: places) := by
  induction items with
  | nil => exact .nil _
  | cons item items ih =>
      exact .put (h item (List.mem_cons_self ..))
        (ih fun other hmem => h other (List.mem_cons_of_mem _ hmem))

/-- Places can be replaced by others that take the same. -/
theorem PlacedInOrder.transfer {fits : α → β → Prop} {fits' : α → γ → Prop} {items : List α}
    {olds : List β} {places : List γ}
    (hplaces : List.Forall₂ (fun old place => ∀ item, fits item old → fits' item place) olds places)
    (h : PlacedInOrder fits items olds) : PlacedInOrder fits' items places := by
  induction h generalizing places with
  | nil => exact .nil _
  | put hfits _ ih =>
      cases hplaces with
      | cons hfirst hrest => exact .put (hfirst _ hfits) (ih (.cons hfirst hrest))
  | pass _ ih =>
      cases hplaces with
      | cons hfirst hrest => exact .pass (ih hrest)

/-- Places can be merged in groups. -/
theorem PlacedInOrder.merge {fits : α → β → Prop} {fits' : α → γ → Prop} {items : List α}
    {groups : List (List β)} {places : List γ}
    (hgroups : List.Forall₂
      (fun group place => ∀ old ∈ group, ∀ item, fits item old → fits' item place) groups places)
    (h : PlacedInOrder fits items groups.flatten) : PlacedInOrder fits' items places := by
  generalize hold : groups.flatten = olds at h
  induction hgroups generalizing items olds with
  | nil =>
      cases hold
      cases h
      exact .nil _
  | @cons group place groups places hgroup _ ih =>
      -- inside one group, the place stays
      induction group generalizing items olds with
      | nil => exact .pass (ih _ hold h)
      | cons first group ihgroup =>
          rw [List.flatten_cons, List.cons_append] at hold
          generalize hfirst : first :: (group ++ groups.flatten) = all at hold
          subst hold
          induction h with
          | nil => exact .nil _
          | put hfits _ ihitems =>
              cases hfirst
              exact .put (hgroup _ (List.mem_cons_self ..) _ hfits) (ihitems rfl)
          | pass hrest _ =>
              cases hfirst
              exact ihgroup (fun old hmem => hgroup old (List.mem_cons_of_mem _ hmem)) _ rfl hrest

/-- Items for the first place, and items for it and the places behind it. -/
theorem PlacedInOrder.put_all {fits : α → β → Prop} {items items' : List α} {place : β}
    {places : List β}
    (h : ∀ item ∈ items, fits item place) (h' : PlacedInOrder fits items' (place :: places)) :
    PlacedInOrder fits (items ++ items') (place :: places) := by
  induction items with
  | nil => exact h'
  | cons item items ih =>
      exact .put (h item (List.mem_cons_self ..))
        (ih fun other hother => h other (List.mem_cons_of_mem _ hother))

/-- Put in order, the items go to places whose numbers do not decrease. -/
theorem PlacedInOrder.exists_monotone {fits : α → β → Prop} {items : List α} {places : List β}
    (h : PlacedInOrder fits items places) : ∃ place : Fin items.length → Fin places.length,
      Monotone place ∧ ∀ i, fits (items.get i) (places.get (place i)) := by
  induction h with
  | nil places => exact ⟨fun i => i.elim0, fun i => i.elim0, fun i => i.elim0⟩
  | @put item items place places hfits _ ih =>
      obtain ⟨f, hmono, hf⟩ := ih
      refine ⟨Fin.cons ⟨0, Nat.succ_pos _⟩ f, ?_, ?_⟩
      · intro i j hij
        cases i using Fin.cases with
        | zero => exact Nat.zero_le _
        | succ i =>
            cases j using Fin.cases with
            | zero => exact absurd hij (Fin.not_le.mpr (Fin.succ_pos i))
            | succ j => exact hmono (Fin.succ_le_succ_iff.mp hij)
      · intro i
        cases i using Fin.cases with
        | zero => exact hfits
        | succ i => exact hf i
  | pass _ ih =>
      obtain ⟨f, hmono, hf⟩ := ih
      exact ⟨fun i => (f i).succ, fun i j hij => Fin.succ_le_succ_iff.mpr (hmono hij), hf⟩

end placing

end EnergyAgent.Lib
