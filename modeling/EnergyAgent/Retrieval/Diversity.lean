import EnergyAgent.Retrieval.Admission
import Mathlib.Data.List.Pairwise

/-!
# What `deduplicate_and_diversify` keeps

The loop keeps its quotas and leaves near-duplicates out. The exchange that comes after it, for a
second kind of source, keeps the quotas as well, but nobody compares the new candidate with those
that stay.
-/

namespace EnergyAgent.Retrieval

/-! ## The two passes -/

/-- How many results one source may have. -/
def Diversity.limit (d : Diversity) (type : SourceType) : Nat :=
  if type = .manual then d.maxChunksPerDocument else d.maxResultsPerTicket

/-- Both candidates have an embedding, and these are too similar. -/
def Near (d : Diversity) (a b : RetrievalCandidate) : Prop :=
  a.embedding.getD [] ≠ [] ∧ b.embedding.getD [] ≠ [] ∧
    d.similar (a.embedding.getD []) (b.embedding.getD []) = true

/-- How many of the candidates are of one source. -/
def countOf (type : SourceType) (id : String) (selected : List RetrievalCandidate) : Nat :=
  (selected.filter fun s => s.sourceType = type ∧ s.sourceId = id).length

section passes

variable (d : Diversity) (topK : Nat) (minimumQuality : Rat) (candidates : List RetrievalCandidate)

/-- What the loop selects. -/
def firstPass : List RetrievalCandidate :=
  selectCandidates d topK minimumQuality [] (byFinalScore candidates)

/-- The candidate that takes the place of the last one selected, if there is an exchange. -/
def alternate : Option RetrievalCandidate :=
  let selected := firstPass d topK minimumQuality candidates
  let sourceTypes := (selected.map RetrievalCandidate.sourceType).dedup
  if sourceTypes.length = 1 ∧ 2 ≤ selected.length then
    (byFinalScore candidates).find? fun c => c.sourceType ∉ sourceTypes ∧
      minimumQuality ≤ c.finalScore ∧ c.identity ∉ selected.map RetrievalCandidate.identity
  else none

theorem deduplicateAndDiversify_eq : deduplicateAndDiversify d topK minimumQuality candidates =
    match alternate d topK minimumQuality candidates with
    | some c => byFinalScore ((firstPass d topK minimumQuality candidates).dropLast ++ [c])
    | none => firstPass d topK minimumQuality candidates := by
  unfold deduplicateAndDiversify alternate firstPass
  dsimp only
  split
  · rfl
  · rfl

end passes

/-! ## The loop -/

section loop

variable {d : Diversity} {topK : Nat} {q : Rat}

/-- What holds of the selected candidates before and after every turn. -/
structure Selection (d : Diversity) (q : Rat) (selected : List RetrievalCandidate) : Prop where
  good : ∀ c ∈ selected, q ≤ c.finalScore
  once : (selected.map RetrievalCandidate.identity).Nodup
  counts : ∀ type id, countOf type id selected ≤ d.limit type
  apart : selected.Pairwise fun s c => ¬ Near d c s

theorem selection_nil : Selection d q [] where
  good := fun _ h => nomatch h
  once := List.nodup_nil
  counts := fun _ _ => Nat.zero_le _
  apart := List.Pairwise.nil

theorem countOf_concat (type : SourceType) (id : String) (selected : List RetrievalCandidate)
    (c : RetrievalCandidate) : countOf type id (selected ++ [c]) =
      countOf type id selected + if c.sourceType = type ∧ c.sourceId = id then 1 else 0 := by
  unfold countOf
  rw [List.filter_append, List.length_append]
  by_cases h : c.sourceType = type ∧ c.sourceId = id
  · simp [h]
  · simp [h]

/-- A candidate that is not left out joins the others. -/
theorem Selection.concat {selected : List RetrievalCandidate} (h : Selection d q selected)
    {c : RetrievalCandidate} (hkept : leftOut d q selected c = false) :
    Selection d q (selected ++ [c]) := by
  rw [leftOut, decide_eq_false_iff_not, not_or, not_or, not_or, not_lt, not_le] at hkept
  obtain ⟨hquality, hnew, hroom, hapart⟩ := hkept
  refine ⟨?_, ?_, ?_, ?_⟩
  · intro x hx
    rcases List.mem_append.mp hx with hold | hlast
    · exact h.good x hold
    · rw [List.mem_singleton.mp hlast]
      exact hquality
  · rw [List.map_append, List.nodup_append']
    refine ⟨h.once, by simp, ?_⟩
    simpa [List.disjoint_singleton] using hnew
  · intro type id
    rw [countOf_concat]
    by_cases hself : c.sourceType = type ∧ c.sourceId = id
    · obtain ⟨rfl, rfl⟩ := hself
      have hcount : countOf c.sourceType c.sourceId selected < d.limit c.sourceType := hroom
      rw [if_pos ⟨rfl, rfl⟩]
      exact hcount
    · rw [if_neg hself]
      exact h.counts type id
  · refine List.pairwise_append.mpr ⟨h.apart, List.pairwise_singleton _ _, ?_⟩
    intro s hs x hx hnear
    rw [List.mem_singleton.mp hx] at hnear
    obtain ⟨hc, hs', hsimilar⟩ := hnear
    refine hapart ⟨hc, List.any_eq_true.mpr ⟨s, hs, ?_⟩⟩
    simp [hs', hsimilar]

/-- The whole loop. -/
theorem selection_selectCandidates (rest : List RetrievalCandidate) :
    ∀ selected, Selection d q selected → Selection d q (selectCandidates d topK q selected rest) := by
  induction rest with
  | nil => exact fun selected h => h
  | cons c rest ih =>
      intro selected h
      rw [selectCandidates]
      by_cases hout : leftOut d q selected c = true
      · rw [if_pos hout]
        exact ih selected h
      · have hnext := h.concat (Bool.eq_false_iff.mpr hout)
        rw [if_neg hout]
        split
        · exact hnext
        · exact ih _ hnext

theorem length_selectCandidates (rest : List RetrievalCandidate) :
    ∀ selected, selected.length < topK → (selectCandidates d topK q selected rest).length ≤ topK := by
  induction rest with
  | nil => exact fun selected h => Nat.le_of_lt h
  | cons c rest ih =>
      intro selected h
      rw [selectCandidates]
      have hlength : (selected ++ [c]).length = selected.length + 1 := List.length_append
      split
      · exact ih selected h
      · split
        · omega
        · apply ih
          omega

end loop

/-! ## The exchange -/

section exchange

variable {d : Diversity} {topK : Nat} {q : Rat} {candidates : List RetrievalCandidate}

theorem perm_byFinalScore (candidates : List RetrievalCandidate) :
    (byFinalScore candidates).Perm candidates :=
  List.perm_insertionSort _ _

theorem mem_byFinalScore {c : RetrievalCandidate} : c ∈ byFinalScore candidates ↔ c ∈ candidates :=
  (perm_byFinalScore candidates).mem_iff

theorem selection_firstPass (d : Diversity) (topK : Nat) (q : Rat)
    (candidates : List RetrievalCandidate) : Selection d q (firstPass d topK q candidates) :=
  selection_selectCandidates _ [] selection_nil

theorem sublist_firstPass (d : Diversity) (topK : Nat) (q : Rat)
    (candidates : List RetrievalCandidate) :
    (firstPass d topK q candidates).Sublist (byFinalScore candidates) := by
  obtain ⟨picked, hpicked, hsub, -, -⟩ := @selectCandidates_spec d topK q (byFinalScore candidates) []
    (fun _ h => nomatch h) List.nodup_nil
  unfold firstPass
  rw [hpicked]
  exact hsub

/-- The selected candidates are of one kind of source. -/
def OneType (selected : List RetrievalCandidate) : Prop :=
  ∀ a ∈ selected, ∀ b ∈ selected, a.sourceType = b.sourceType

theorem oneType_iff {selected : List RetrievalCandidate} (hne : selected ≠ []) :
    (selected.map RetrievalCandidate.sourceType).dedup.length = 1 ↔ OneType selected := by
  obtain ⟨first, rest, rfl⟩ := List.exists_cons_of_ne_nil hne
  constructor
  · intro h a ha b hb
    obtain ⟨type, htype⟩ := List.length_eq_one_iff.mp h
    have hmem : ∀ c ∈ first :: rest, c.sourceType = type := by
      intro c hc
      have hdedup := List.mem_dedup.mpr (List.mem_map_of_mem (f := RetrievalCandidate.sourceType) hc)
      rw [htype] at hdedup
      exact List.mem_singleton.mp hdedup
    rw [hmem a ha, hmem b hb]
  · intro h
    have hdedup : ((first :: rest).map RetrievalCandidate.sourceType).dedup = [first.sourceType] := by
      have hall : (first :: rest).map RetrievalCandidate.sourceType =
          List.replicate (rest.length + 1) first.sourceType := by
        apply List.eq_replicate_iff.mpr
        refine ⟨by simp, fun type htype => ?_⟩
        obtain ⟨c, hc, rfl⟩ := List.mem_map.mp htype
        exact h c hc first (List.mem_cons_self ..)
      rw [hall]
      exact List.replicate_dedup (Nat.succ_ne_zero _)
    rw [hdedup]
    rfl

/-- The candidate that comes in. -/
structure Exchanged (d : Diversity) (topK : Nat) (q : Rat) (candidates : List RetrievalCandidate)
    (c : RetrievalCandidate) : Prop where
  several : 2 ≤ (firstPass d topK q candidates).length
  oneType : OneType (firstPass d topK q candidates)
  mem : c ∈ candidates
  other : ∀ s ∈ firstPass d topK q candidates, s.sourceType ≠ c.sourceType
  good : q ≤ c.finalScore

theorem exchanged_of_alternate {c : RetrievalCandidate}
    (h : alternate d topK q candidates = some c) : Exchanged d topK q candidates c := by
  unfold alternate at h
  dsimp only at h
  split at h
  · next hmany =>
      have hne : firstPass d topK q candidates ≠ [] := by
        intro hnil
        rw [hnil] at hmany
        cases hmany.1
      have hfound := List.find?_some h
      rw [decide_eq_true_iff] at hfound
      obtain ⟨hother, hgood, -⟩ := hfound
      refine ⟨hmany.2, (oneType_iff hne).mp hmany.1,
        mem_byFinalScore.mp (List.mem_of_find?_eq_some h), fun s hs hsame => hother ?_, hgood⟩
      rw [← hsame]
      exact List.mem_dedup.mpr (List.mem_map_of_mem hs)
  · cases h

/-- There is an exchange where a good candidate of another kind is there. -/
theorem alternate_isSome (hseveral : 2 ≤ (firstPass d topK q candidates).length)
    (hone : OneType (firstPass d topK q candidates)) {c : RetrievalCandidate} (hc : c ∈ candidates)
    (hother : ∀ s ∈ firstPass d topK q candidates, s.sourceType ≠ c.sourceType)
    (hgood : q ≤ c.finalScore) : (alternate d topK q candidates).isSome := by
  have hne : firstPass d topK q candidates ≠ [] := by
    intro hnil
    rw [hnil] at hseveral
    cases hseveral
  unfold alternate
  dsimp only
  rw [if_pos ⟨(oneType_iff hne).mpr hone, hseveral⟩, List.find?_isSome]
  refine ⟨c, mem_byFinalScore.mpr hc, decide_eq_true ⟨?_, hgood, ?_⟩⟩
  · intro hmem
    obtain ⟨s, hs, hsame⟩ := List.mem_map.mp (List.mem_dedup.mp hmem)
    exact hother s hs hsame
  · -- an identity says of which kind it is
    intro hmem
    obtain ⟨s, hs, hsame⟩ := List.mem_map.mp hmem
    exact hother s hs (congrArg Prod.fst hsame)

end exchange

/-! ## Quotas -/

section quotas

variable {d : Diversity} {topK : Nat} {q : Rat} {candidates : List RetrievalCandidate}

/-- The quotas of a result. -/
structure Quotas (d : Diversity) (topK : Nat) (q : Rat) (candidates result : List RetrievalCandidate) :
    Prop where
  bounded : result.length ≤ topK
  taken : ∀ c ∈ result, c ∈ candidates
  descending : Descending result
  good : ∀ c ∈ result, q ≤ c.finalScore
  once : (result.map RetrievalCandidate.identity).Nodup
  documents : ∀ id, countOf .manual id result ≤ d.maxChunksPerDocument
  tickets : ∀ type id, type ≠ .manual → countOf type id result ≤ d.maxResultsPerTicket

theorem quotas_of_counts {result : List RetrievalCandidate} (hbounded : result.length ≤ topK)
    (htaken : ∀ c ∈ result, c ∈ candidates) (hdescending : Descending result)
    (hgood : ∀ c ∈ result, q ≤ c.finalScore)
    (honce : (result.map RetrievalCandidate.identity).Nodup)
    (hcounts : ∀ type id, countOf type id result ≤ d.limit type) :
    Quotas d topK q candidates result where
  bounded := hbounded
  taken := htaken
  descending := hdescending
  good := hgood
  once := honce
  documents := fun id => hcounts .manual id
  tickets := by
    intro type id htype
    have hcount := hcounts type id
    unfold Diversity.limit at hcount
    rwa [if_neg htype] at hcount

theorem length_firstPass (hk : 1 ≤ topK) : (firstPass d topK q candidates).length ≤ topK :=
  length_selectCandidates _ [] hk

theorem quotas_firstPass (hk : 1 ≤ topK) :
    Quotas d topK q candidates (firstPass d topK q candidates) := by
  have h := selection_firstPass d topK q candidates
  have hsub := sublist_firstPass d topK q candidates
  refine quotas_of_counts (length_firstPass hk) ?_ ?_ h.good h.once h.counts
  · exact fun c hc => mem_byFinalScore.mp (hsub.subset hc)
  · exact (descending_byFinalScore candidates).sublist hsub

/-- The exchange keeps the quotas: the candidate that comes in is the only one of its kind. -/
theorem quotas_exchange (hk : 1 ≤ topK) (hlimit : ∀ type, 1 ≤ d.limit type) {c : RetrievalCandidate}
    (h : Exchanged d topK q candidates c) :
    Quotas d topK q candidates
      (byFinalScore ((firstPass d topK q candidates).dropLast ++ [c])) := by
  have hfirst := selection_firstPass d topK q candidates
  have hsub := sublist_firstPass d topK q candidates
  have hkept : (firstPass d topK q candidates).dropLast.Sublist (firstPass d topK q candidates) :=
    List.dropLast_sublist _
  have hperm := perm_byFinalScore ((firstPass d topK q candidates).dropLast ++ [c])
  have hlast : ∀ x ∈ (firstPass d topK q candidates).dropLast ++ [c],
      x ∈ (firstPass d topK q candidates).dropLast ∨ x = c := by
    intro x hx
    rcases List.mem_append.mp hx with hx | hx
    · exact Or.inl hx
    · exact Or.inr (List.mem_singleton.mp hx)
  refine quotas_of_counts ?_ ?_ (descending_byFinalScore _) ?_ ?_ ?_
  · have hlength := @length_firstPass d topK q candidates hk
    have hseveral := h.several
    rw [hperm.length_eq, List.length_append, List.length_dropLast, List.length_singleton]
    omega
  · intro x hx
    rcases hlast x (hperm.mem_iff.mp hx) with hx | rfl
    · exact mem_byFinalScore.mp (hsub.subset (hkept.subset hx))
    · exact h.mem
  · intro x hx
    rcases hlast x (hperm.mem_iff.mp hx) with hx | rfl
    · exact hfirst.good x (hkept.subset hx)
    · exact h.good
  · refine (hperm.map _).nodup_iff.mpr ?_
    rw [List.map_append, List.nodup_append']
    refine ⟨(hkept.map _).nodup hfirst.once, by simp, ?_⟩
    intro identity hold hnew
    obtain ⟨s, hs, rfl⟩ := List.mem_map.mp hold
    rw [List.map_singleton, List.mem_singleton] at hnew
    exact h.other s (hkept.subset hs) (congrArg Prod.fst hnew)
  · intro type id
    have hcount : countOf type id (byFinalScore ((firstPass d topK q candidates).dropLast ++ [c])) =
        countOf type id ((firstPass d topK q candidates).dropLast ++ [c]) :=
      (hperm.filter _).length_eq
    rw [hcount, countOf_concat]
    by_cases hself : c.sourceType = type ∧ c.sourceId = id
    · have hnone : countOf type id (firstPass d topK q candidates).dropLast = 0 := by
        unfold countOf
        rw [List.length_eq_zero_iff, List.filter_eq_nil_iff]
        intro s hs hsame
        rw [decide_eq_true_iff] at hsame
        exact h.other s (hkept.subset hs) (hsame.1.trans hself.1.symm)
      rw [if_pos hself, hnone]
      exact hlimit type
    · have hle : countOf type id (firstPass d topK q candidates).dropLast ≤
          countOf type id (firstPass d topK q candidates) := (hkept.filter _).length_le
      rw [if_neg hself]
      exact hle.trans (hfirst.counts type id)

/-- **The quotas are kept**, and a second kind of source is among the results wherever the first pass
has two results or more of one kind and a good candidate of another kind is there. -/
theorem deduplicate_keeps_quotas (candidates : List RetrievalCandidate) (hk : 1 ≤ topK)
    (hdocument : 1 ≤ d.maxChunksPerDocument) (hticket : 1 ≤ d.maxResultsPerTicket) :
    Quotas d topK q candidates (deduplicateAndDiversify d topK q candidates) ∧
      ∀ type, 2 ≤ (firstPass d topK q candidates).length →
        (∀ s ∈ firstPass d topK q candidates, s.sourceType = type) →
        (∃ c ∈ candidates, c.sourceType ≠ type ∧ q ≤ c.finalScore) →
        ∃ a ∈ deduplicateAndDiversify d topK q candidates,
          ∃ b ∈ deduplicateAndDiversify d topK q candidates, a.sourceType ≠ b.sourceType := by
  have hlimit : ∀ type, 1 ≤ d.limit type := by
    intro type
    unfold Diversity.limit
    split
    · exact hdocument
    · exact hticket
  rw [deduplicateAndDiversify_eq]
  cases halternate : alternate d topK q candidates with
  | none =>
      refine ⟨quotas_firstPass hk, ?_⟩
      rintro type hseveral htype ⟨c, hc, hother, hgood⟩
      have hsome := @alternate_isSome d topK q candidates hseveral
        (fun a ha b hb => (htype a ha).trans (htype b hb).symm) c hc
        (fun s hs hsame => hother (hsame.symm.trans (htype s hs))) hgood
      rw [halternate] at hsome
      cases hsome
  | some c =>
      have h := exchanged_of_alternate halternate
      refine ⟨quotas_exchange hk hlimit h, fun type hseveral htype _ => ?_⟩
      obtain ⟨s, hs⟩ : ∃ s, s ∈ (firstPass d topK q candidates).dropLast := by
        apply List.exists_mem_of_length_pos
        rw [List.length_dropLast]
        omega
      refine ⟨s, mem_byFinalScore.mpr (List.mem_append_left _ hs), c,
        mem_byFinalScore.mpr (List.mem_append_right _ (List.mem_singleton_self c)), ?_⟩
      exact h.other s (List.dropLast_subset _ hs)

end quotas

/-- Candidates that differ in nothing the two passes read but what is given. -/
def sampleCandidate (type : SourceType) (id : String) (score : Rat) (embedding : List Rat) :
    RetrievalCandidate where
  sourceType := type
  sourceId := id
  chunkId := none
  contentSummary := ""
  citation := ""
  metadata := {}
  keywordScore := none
  vectorScore := none
  finalScore := score
  embedding := some embedding

/-- Two manuals, and a ticket with the embedding of the first. -/
def sampleCandidates : List RetrievalCandidate :=
  [sampleCandidate .manual "doc-1" (19 / 20) [1, 0], sampleCandidate .manual "doc-2" (9 / 10) [0, 1],
    sampleCandidate .ticket "ticket-1" (4 / 5) [1, 0]]

/-- Embeddings are similar where they are the same. -/
def sampleDiversity : Diversity := { similar := fun a b => a = b }

theorem sample_keeps_quotas : Quotas sampleDiversity 3 (9 / 20) sampleCandidates
      (deduplicateAndDiversify sampleDiversity 3 (9 / 20) sampleCandidates) ∧
    ∃ a ∈ deduplicateAndDiversify sampleDiversity 3 (9 / 20) sampleCandidates,
      ∃ b ∈ deduplicateAndDiversify sampleDiversity 3 (9 / 20) sampleCandidates,
        a.sourceType ≠ b.sourceType := by
  have h := @deduplicate_keeps_quotas sampleDiversity 3 (9 / 20) sampleCandidates (by decide)
    (by decide) (by decide)
  refine ⟨h.1, h.2 .manual ?_ ?_ ?_⟩
  · decide +kernel
  · decide +kernel
  · decide +kernel

/-! ## Near-duplicates -/

section nearDuplicates

variable {d : Diversity} {topK : Nat} {q : Rat} {candidates : List RetrievalCandidate}

/-- No two candidates of the list are near. -/
def Apart (d : Diversity) (result : List RetrievalCandidate) : Prop :=
  ∀ a ∈ result, ∀ b ∈ result, a ≠ b → ¬ Near d a b

theorem near_symm (hsymm : ∀ a b, d.similar a b = d.similar b a) {a b : RetrievalCandidate}
    (h : Near d a b) : Near d b a := by
  obtain ⟨ha, hb, hsimilar⟩ := h
  refine ⟨hb, ha, ?_⟩
  rw [hsymm]
  exact hsimilar

/-- The loop leaves no near-duplicates. -/
theorem apart_firstPass (hsymm : ∀ a b, d.similar a b = d.similar b a) :
    Apart d (firstPass d topK q candidates) := by
  have hpairwise : (firstPass d topK q candidates).Pairwise fun a b => ¬ Near d a b :=
    (selection_firstPass d topK q candidates).apart.imp fun hnot hnear => hnot (near_symm hsymm hnear)
  intro a ha b hb hne
  have hrel : Std.Symm fun a b : RetrievalCandidate => ¬ Near d a b :=
    ⟨fun a b hnot hnear => hnot (near_symm hsymm hnear)⟩
  exact hpairwise.forall ha hb hne

end nearDuplicates

end EnergyAgent.Retrieval
