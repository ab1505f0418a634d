import Mathlib

/-!
# Tallies

A dictionary as the list of its entries in the order in which their keys came, and a `GROUP BY` as
a dictionary under the key by which the rows are grouped. What a dictionary weighs grows with every
row by the weight of the row, however the rows are spread over the keys.
-/

namespace EnergyAgent.Lib.Tally

variable {κ γ ε ρ : Type} [DecidableEq κ] (key : γ → κ)

/-- Rewrite the entry under the key of `g`, or add one; an entry keeps its place. -/
def alter (f : Option ε → ε) : List (γ × ε) → γ → List (γ × ε)
  | [], g => [(g, f none)]
  | p :: d, g => if key p.1 = key g then (p.1, f (some p.2)) :: d else p :: alter f d g

/-- `counts[key] = counts.get(key, 0) + n` -/
def add (n : Nat) (counts : List (γ × Nat)) (g : γ) : List (γ × Nat) :=
  alter key (fun m => m.getD 0 + n) counts g

/-- The rows of `GROUP BY`: a member of each group, and how many there are. -/
def groupBy (rows : List γ) : List (γ × Nat) := rows.foldl (add key 1) []

def weigh (μ : γ → ε → Nat) (d : List (γ × ε)) : Nat := (d.map fun p => μ p.1 p.2).sum

variable {key} {f : Option ε → ε} {μ : γ → ε → Nat} {d : List (γ × ε)} {g : γ}

theorem weigh_cons (p : γ × ε) : weigh μ (p :: d) = μ p.1 p.2 + weigh μ d := by
  simp [weigh]

theorem weigh_alter {n : Nat} (hnone : μ g (f none) = n)
    (hsome : ∀ g' e, key g' = key g → μ g' (f (some e)) = μ g' e + n) :
    weigh μ (alter key f d g) = weigh μ d + n := by
  induction d with
  | nil => simp [alter, weigh, hnone]
  | cons p d ih =>
      rw [alter]
      split
      · next hkey =>
          rw [weigh_cons, weigh_cons, hsome p.1 p.2 hkey]
          omega
      · rw [weigh_cons, weigh_cons, ih]
        omega

theorem weigh_foldl {by_ : ρ → γ} {f : ρ → Option ε → ε} {w : ρ → Nat} {rows : List ρ}
    (hnone : ∀ r ∈ rows, μ (by_ r) (f r none) = w r)
    (hsome : ∀ r ∈ rows, ∀ g e, key g = key (by_ r) → μ g (f r (some e)) = μ g e + w r) :
    weigh μ (rows.foldl (fun d r => alter key (f r) d (by_ r)) d) =
      weigh μ d + (rows.map w).sum := by
  induction rows generalizing d with
  | nil => rfl
  | cons r rows ih =>
      obtain ⟨hnone, hnones⟩ := List.forall_mem_cons.mp hnone
      obtain ⟨hsome, hsomes⟩ := List.forall_mem_cons.mp hsome
      rw [List.foldl_cons, ih hnones hsomes, weigh_alter hnone hsome, List.map_cons, List.sum_cons,
        Nat.add_assoc]

theorem keys_alter : (alter key f d g).map (fun p => key p.1) =
    if key g ∈ d.map (fun p => key p.1) then d.map (fun p => key p.1)
    else d.map (fun p => key p.1) ++ [key g] := by
  induction d with
  | nil => rfl
  | cons p d ih =>
      rw [alter]
      by_cases hkey : key p.1 = key g
      · rw [if_pos hkey, if_pos (by simp [hkey])]
        rfl
      · have hmem : key g ∈ (p :: d).map (fun p => key p.1) ↔ key g ∈ d.map (fun p => key p.1) := by
          rw [List.map_cons, List.mem_cons, or_iff_right (Ne.symm hkey)]
        rw [if_neg hkey, List.map_cons, ih]
        simp only [hmem]
        split <;> rfl

theorem nodup_alter (h : (d.map fun p => key p.1).Nodup) :
    ((alter key f d g).map fun p => key p.1).Nodup := by
  rw [keys_alter]
  split
  · exact h
  · next hg =>
      rw [← List.concat_eq_append]
      exact h.concat hg

theorem nodup_foldl {by_ : ρ → γ} {f : ρ → Option ε → ε} (rows : List ρ)
    (h : (d.map fun p => key p.1).Nodup) :
    ((rows.foldl (fun d r => alter key (f r) d (by_ r)) d).map fun p => key p.1).Nodup := by
  induction rows generalizing d with
  | nil => exact h
  | cons r rows ih => exact ih (nodup_alter h)

/-- Which keys there are depends on the rows alone. -/
theorem keys_foldl {δ : Type} {d' : List (γ × δ)} {by_ : ρ → γ} {f : ρ → Option ε → ε}
    {f' : ρ → Option δ → δ} (rows : List ρ)
    (h : (d.map fun p => key p.1) = d'.map fun p => key p.1) :
    (rows.foldl (fun d r => alter key (f r) d (by_ r)) d).map (fun p => key p.1) =
      (rows.foldl (fun d r => alter key (f' r) d (by_ r)) d').map fun p => key p.1 := by
  induction rows generalizing d d' with
  | nil => exact h
  | cons r rows ih => exact ih (by rw [keys_alter, keys_alter, h])

theorem alter_of_notMem (h : key g ∉ d.map fun p => key p.1) :
    alter key f d g = d ++ [(g, f none)] := by
  induction d with
  | nil => rfl
  | cons p d ih =>
      rw [List.map_cons, List.mem_cons, not_or] at h
      rw [alter, if_neg (Ne.symm h.1), ih h.2]
      rfl

/-- A dictionary of entries under keys of their own is the list of the entries. -/
theorem foldl_entries {entries : List (γ × ε)} (h : ((d ++ entries).map fun p => key p.1).Nodup) :
    entries.foldl (fun d p => alter key (fun _ => p.2) d p.1) d = d ++ entries := by
  induction entries generalizing d with
  | nil => exact (List.append_nil d).symm
  | cons p entries ih =>
      have hp : key p.1 ∉ d.map fun p => key p.1 := by
        intro hmem
        rw [List.map_append] at h
        exact (List.disjoint_of_nodup_append h) hmem (by simp)
      rw [List.foldl_cons, alter_of_notMem hp, ih (by simpa using h), List.append_assoc]
      rfl

theorem forall_alter {P : ε → Prop} (hnone : P (f none)) (hsome : ∀ e, P e → P (f (some e)))
    (h : ∀ p ∈ d, P p.2) : ∀ p ∈ alter key f d g, P p.2 := by
  induction d with
  | nil => simpa [alter] using hnone
  | cons p d ih =>
      obtain ⟨hp, hd⟩ := List.forall_mem_cons.mp h
      rw [alter]
      split
      · exact List.forall_mem_cons.mpr ⟨hsome _ hp, hd⟩
      · exact List.forall_mem_cons.mpr ⟨hp, ih hd⟩

theorem weigh_add {p : γ → Bool} (hp : ∀ g', key g' = key g → p g' = p g) {n : Nat}
    {counts : List (γ × Nat)} : weigh (fun g m => if p g then m else 0) (add key n counts g) =
      weigh (fun g m => if p g then m else 0) counts + if p g then n else 0 := by
  refine weigh_alter (by simp) fun g' m hkey => ?_
  rw [hp g' hkey]
  split <;> simp

/-- A condition that tells no two members of a group apart counts the rows that satisfy it. -/
theorem weigh_groupBy {p : γ → Bool} (hp : ∀ g g', key g = key g' → p g = p g') (rows : List γ) :
    weigh (fun g m => if p g then m else 0) (groupBy key rows) = rows.countP p := by
  have hrows : ∀ counts : List (γ × Nat),
      weigh (fun g m => if p g then m else 0) (rows.foldl (add key 1) counts) =
        weigh (fun g m => if p g then m else 0) counts + rows.countP p := by
    induction rows with
    | nil => simp
    | cons g rows ih =>
        intro counts
        rw [List.foldl_cons, ih, weigh_add fun g' => hp g' g, List.countP_cons]
        omega
  exact (hrows []).trans (Nat.zero_add _)

section lookup

variable [DecidableEq γ] {ν : ε → Nat} {k : γ}

theorem weigh_of_notMem (h : k ∉ d.map Prod.fst) :
    weigh (fun g e => if g = k then ν e else 0) d = 0 := by
  refine List.sum_eq_zero fun n hn => ?_
  obtain ⟨p, hp, rfl⟩ := List.mem_map.mp hn
  have hne : p.1 ≠ k := fun heq => h (heq ▸ List.mem_map_of_mem hp)
  exact if_neg hne

/-- What an entry weighs is what the dictionary weighs under its key. -/
theorem weigh_lookup (h : (d.map Prod.fst).Nodup) :
    weigh (fun g e => if g = k then ν e else 0) d = ((d.lookup k).map ν).getD 0 := by
  induction d with
  | nil => rfl
  | cons p d ih =>
      obtain ⟨hp, hd⟩ := List.nodup_cons.mp h
      rw [weigh_cons]
      by_cases hk : p.1 = k
      · subst hk
        rw [weigh_of_notMem hp]
        simp [List.lookup]
      · rw [ih hd, if_neg hk, Nat.zero_add, List.lookup, (beq_eq_false_iff_ne).mpr (Ne.symm hk)]

theorem lookup_isSome (h : k ∈ d.map Prod.fst) : ∃ e, d.lookup k = some e := by
  rw [← Option.isSome_iff_exists, List.lookup_isSome_iff]
  obtain ⟨p, hp, rfl⟩ := List.mem_map.mp h
  exact ⟨p, hp, by simp⟩

theorem lookup_of_mem (h : (d.map Prod.fst).Nodup) {p : γ × ε} (hp : p ∈ d) :
    d.lookup p.1 = some p.2 := by
  induction d with
  | nil => simp at hp
  | cons q d ih =>
      obtain ⟨hq, hd⟩ := List.nodup_cons.mp h
      rcases List.mem_cons.mp hp with rfl | hp
      · simp [List.lookup]
      · have hne : p.1 ≠ q.1 := fun heq => hq (heq ▸ List.mem_map_of_mem hp)
        rw [List.lookup, beq_eq_false_iff_ne.mpr hne]
        exact ih hd hp

/-- The keys share what the dictionary weighs. -/
theorem sum_weigh_keys (h : (d.map Prod.fst).Nodup) :
    ((d.map Prod.fst).map fun k => weigh (fun g e => if g = k then ν e else 0) d).sum =
      weigh (fun _ e => ν e) d := by
  rw [weigh, List.map_map]
  refine congrArg List.sum (List.map_congr_left fun p hp => ?_)
  rw [Function.comp_apply, weigh_lookup h, lookup_of_mem h hp]
  rfl

end lookup

end EnergyAgent.Lib.Tally
