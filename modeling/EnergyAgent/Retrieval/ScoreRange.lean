import EnergyAgent.Retrieval.Admission
import Mathlib.Tactic.Linarith
import Mathlib.Tactic.NormNum
import Mathlib.Tactic.FieldSimp

/-!
# The range of the scores

The settings accept weights whose sum is 1 up to a tolerance, and a `RankedEvidence` accepts scores up
to 1. A retrieval score is an average over the channels that have a score, and so never above 1; a
final score is a sum with the weights as they are.
-/

namespace EnergyAgent.Retrieval

open EnergyAgent.Lib

/-! ## What is checked -/

def InUnit (x : Rat) : Prop := 0 ≤ x ∧ x ≤ 1

/-- The bounds of `RetrievalCandidate`, which `RankedEvidence` shares. -/
structure RetrievalCandidate.Valid (c : RetrievalCandidate) : Prop where
  keyword : ∀ x ∈ c.keywordScore, InUnit x
  vector : ∀ x ∈ c.vectorScore, InUnit x
  rerank : ∀ x ∈ c.rerankScore, InUnit x
  reliability : InUnit c.sourceReliability
  verification : InUnit c.verificationScore
  freshness : InUnit c.freshnessScore
  relevance : InUnit c.relevanceToAlarm
  retrieval : InUnit c.retrievalScore
  final : InUnit c.finalScore

/-- What `Settings` asks of the weights. -/
structure ScoreWeights.Accepted (w : ScoreWeights) : Prop where
  keyword : InUnit w.keyword
  vector : InUnit w.vector
  rerank : InUnit w.rerank
  finalRetrieval : InUnit w.finalRetrieval
  sourceReliability : InUnit w.sourceReliability
  verification : InUnit w.verification
  relevanceToAlarm : InUnit w.relevanceToAlarm
  freshness : InUnit w.freshness
  retrievalSum : |w.keyword + w.vector + w.rerank - 1| ≤ 1 / 10 ^ 9
  finalSum : |w.finalRetrieval + w.sourceReliability + w.verification + w.relevanceToAlarm +
    w.freshness - 1| ≤ 1 / 10 ^ 9

/-- Every candidate that is merged, reranked and scored with these weights has its scores in range,
whatever the channels and the reranker find. -/
def ScoresInRange (w : ScoreWeights) : Prop :=
  ∀ (lower : String → String) (filters : Filters) (limit : Nat)
    (keyword vector : List RetrievalCandidate) (rerank : RetrievalCandidate → Option Rat),
    (∀ c ∈ keyword, c.Valid) → (∀ c ∈ vector, c.Valid) → (∀ c, ∀ x ∈ rerank c, InUnit x) →
    ∀ c ∈ mergeCandidates limit keyword vector,
      (scoreCandidate w lower filters { c with rerankScore := rerank c }).Valid

/-! ## Normalized scores -/

section normalized

theorem foldl_min_le (low : Rat) (values : List Rat) :
    values.foldl min low ≤ low ∧ ∀ x ∈ values, values.foldl min low ≤ x := by
  induction values generalizing low with
  | nil => exact ⟨le_refl low, fun _ h => nomatch h⟩
  | cons value values ih =>
      obtain ⟨hhead, htail⟩ := ih (min low value)
      refine ⟨hhead.trans (min_le_left _ _), fun x hx => ?_⟩
      rcases List.mem_cons.mp hx with rfl | hx
      · exact hhead.trans (min_le_right _ _)
      · exact htail x hx

theorem le_foldl_max (high : Rat) (values : List Rat) :
    high ≤ values.foldl max high ∧ ∀ x ∈ values, x ≤ values.foldl max high := by
  induction values generalizing high with
  | nil => exact ⟨le_refl high, fun _ h => nomatch h⟩
  | cons value values ih =>
      obtain ⟨hhead, htail⟩ := ih (max high value)
      refine ⟨(le_max_left _ _).trans hhead, fun x hx => ?_⟩
      rcases List.mem_cons.mp hx with rfl | hx
      · exact (le_max_right _ _).trans hhead
      · exact htail x hx

theorem inUnit_normalizeScores (values : List Rat) : ∀ x ∈ normalizeScores values, InUnit x := by
  intro x hx
  unfold normalizeScores at hx
  cases values with
  | nil => cases hx
  | cons v vs =>
      dsimp only at hx
      obtain ⟨hlow, hlow'⟩ := foldl_min_le v vs
      obtain ⟨hhigh, hhigh'⟩ := le_foldl_max v vs
      split at hx
      · obtain ⟨_, -, rfl⟩ := List.mem_map.mp hx
        split
        · exact ⟨zero_le_one, le_refl 1⟩
        · exact ⟨le_refl 0, zero_le_one⟩
      · next hne =>
          obtain ⟨value, hvalue, rfl⟩ := List.mem_map.mp hx
          have hbounds : vs.foldl min v ≤ value ∧ value ≤ vs.foldl max v := by
            rcases List.mem_cons.mp hvalue with rfl | hvalue
            · exact ⟨hlow, hhigh⟩
            · exact ⟨hlow' value hvalue, hhigh' value hvalue⟩
          have hlt : vs.foldl min v < vs.foldl max v :=
            lt_of_le_of_ne (hlow.trans hhigh) (Ne.symm hne)
          have hpos : 0 < vs.foldl max v - vs.foldl min v := sub_pos.mpr hlt
          refine ⟨div_nonneg (sub_nonneg.mpr hbounds.1) hpos.le, ?_⟩
          rw [div_le_one hpos]
          exact sub_le_sub_right hbounds.2 _

/-- The merged candidates are valid. -/
theorem valid_merge {limit : Nat} {keyword vector : List RetrievalCandidate}
    (hk : ∀ c ∈ keyword, c.Valid) (hv : ∀ c ∈ vector, c.Valid) :
    ∀ c ∈ mergeCandidates limit keyword vector, c.Valid := by
  refine forall_mem_merge_of_scores (S := InUnit) inUnit_normalizeScores ?_ ?_ hk hv
  · intro c score hscore hc
    exact { hc with keyword := fun x hx => by cases hx; exact hscore }
  · intro c score embedding hscore hc
    exact { hc with vector := fun x hx => by cases hx; exact hscore }

end normalized

/-! ## The parts of a final score -/

section parts

variable {w : ScoreWeights} {lower : String → String} {filters : Filters} {c : RetrievalCandidate}

/-- A channel adds at most its weight. -/
theorem channel_bounds {score : Option Rat} {weight : Rat} (hweight : 0 ≤ weight)
    (hscore : ∀ x ∈ score, InUnit x) : 0 ≤ score.getD 0 * weight ∧
      score.getD 0 * weight ≤ if score.isSome then weight else 0 := by
  cases score with
  | none => simp
  | some x =>
      obtain ⟨hlow, hhigh⟩ := hscore x rfl
      exact ⟨mul_nonneg hlow hweight, mul_le_of_le_one_left hweight hhigh⟩

theorem inUnit_average {total available : Rat} (hlow : 0 ≤ total) (hhigh : total ≤ available) :
    InUnit (if available = 0 then 0 else total / available) := by
  split
  · exact ⟨le_refl 0, zero_le_one⟩
  · next hne =>
      have hpos : 0 < available := lt_of_le_of_ne (hlow.trans hhigh) (Ne.symm hne)
      refine ⟨div_nonneg hlow hpos.le, ?_⟩
      rw [div_le_one hpos]
      exact hhigh

theorem inUnit_retrievalScore (hw : w.Accepted) (hc : c.Valid) : InUnit (retrievalScore w c) := by
  obtain ⟨hk, hk'⟩ := channel_bounds hw.keyword.1 hc.keyword
  obtain ⟨hv, hv'⟩ := channel_bounds hw.vector.1 hc.vector
  obtain ⟨hr, hr'⟩ := channel_bounds hw.rerank.1 hc.rerank
  have havailable : (([(c.keywordScore, w.keyword), (c.vectorScore, w.vector),
      (c.rerankScore, w.rerank)].filter fun x => x.1.isSome).map Prod.snd).sum =
      (if c.keywordScore.isSome then w.keyword else 0) +
        ((if c.vectorScore.isSome then w.vector else 0) +
          if c.rerankScore.isSome then w.rerank else 0) := by
    cases c.keywordScore <;> cases c.vectorScore <;> cases c.rerankScore <;> simp
  have htotal : ([(c.keywordScore, w.keyword), (c.vectorScore, w.vector),
      (c.rerankScore, w.rerank)].map fun x => x.1.getD 0 * x.2).sum =
      c.keywordScore.getD 0 * w.keyword +
        (c.vectorScore.getD 0 * w.vector + c.rerankScore.getD 0 * w.rerank) := by
    simp
  unfold retrievalScore
  dsimp only
  rw [havailable, htotal]
  exact inUnit_average (add_nonneg hk (add_nonneg hv hr)) (add_le_add hk' (add_le_add hv' hr'))

theorem inUnit_sourceReliability : InUnit (sourceReliability c) := by
  unfold sourceReliability InUnit
  split
  · split <;> norm_num
  · norm_num
  · split <;> norm_num

theorem inUnit_verificationScore : InUnit (verificationScore c) := by
  unfold verificationScore InUnit
  split
  · split <;> norm_num
  · split
    · norm_num
    · split <;> norm_num

theorem inUnit_freshnessScore : InUnit (freshnessScore c) := by
  unfold freshnessScore InUnit
  split
  · split <;> norm_num
  · norm_num
  · dsimp only
    split
    · norm_num
    · split
      · norm_num
      · split <;> norm_num

theorem inUnit_alarmRelevance : InUnit (alarmRelevance lower filters c) := by
  unfold alarmRelevance InUnit
  dsimp only
  split
  · norm_num
  · exact ⟨le_min zero_le_one (le_max_left _ _), min_le_left _ _⟩

/-- A manual is not quite fresh, and nothing else quite as reliable as a manual. -/
theorem reliable_or_fresh :
    (sourceReliability c ≤ 1 ∧ freshnessScore c ≤ 17 / 20) ∨
      (sourceReliability c ≤ 19 / 20 ∧ freshnessScore c ≤ 1) := by
  by_cases hmanual : c.sourceType = .manual
  · left
    refine ⟨inUnit_sourceReliability.2, ?_⟩
    unfold freshnessScore
    rw [hmanual]
    dsimp only
    split <;> norm_num
  · right
    refine ⟨?_, inUnit_freshnessScore.2⟩
    unfold sourceReliability
    split
    · next h => exact absurd h hmanual
    · norm_num
    · split <;> norm_num

/-- A final score is above 1 only where the weights let a manual or a case be. -/
theorem inUnit_finalScore (hw : w.Accepted) (hc : c.Valid)
    (hmanual : w.finalRetrieval + w.sourceReliability + w.verification + w.relevanceToAlarm +
      17 / 20 * w.freshness ≤ 1)
    (hcase : w.finalRetrieval + 19 / 20 * w.sourceReliability + w.verification +
      w.relevanceToAlarm + w.freshness ≤ 1) :
    InUnit (scoreCandidate w lower filters c).finalScore := by
  show InUnit (w.finalRetrieval * retrievalScore w c + w.sourceReliability * sourceReliability c +
    w.verification * verificationScore c + w.relevanceToAlarm * alarmRelevance lower filters c +
    w.freshness * freshnessScore c)
  obtain ⟨hret, hret'⟩ := inUnit_retrievalScore hw hc
  obtain ⟨hrel, -⟩ := @inUnit_sourceReliability c
  obtain ⟨hver, hver'⟩ := @inUnit_verificationScore c
  obtain ⟨hala, hala'⟩ := @inUnit_alarmRelevance lower filters c
  obtain ⟨hfre, -⟩ := @inUnit_freshnessScore c
  have hret₁ := mul_le_mul_of_nonneg_left hret' hw.finalRetrieval.1
  have hver₁ := mul_le_mul_of_nonneg_left hver' hw.verification.1
  have hala₁ := mul_le_mul_of_nonneg_left hala' hw.relevanceToAlarm.1
  constructor
  · have hret₀ := mul_nonneg hw.finalRetrieval.1 hret
    have hrel₀ := mul_nonneg hw.sourceReliability.1 hrel
    have hver₀ := mul_nonneg hw.verification.1 hver
    have hala₀ := mul_nonneg hw.relevanceToAlarm.1 hala
    have hfre₀ := mul_nonneg hw.freshness.1 hfre
    linarith
  · rcases @reliable_or_fresh c with ⟨hrel', hfre'⟩ | ⟨hrel', hfre'⟩
    · have hrel₁ := mul_le_mul_of_nonneg_left hrel' hw.sourceReliability.1
      have hfre₁ := mul_le_mul_of_nonneg_left hfre' hw.freshness.1
      linarith
    · have hrel₁ := mul_le_mul_of_nonneg_left hrel' hw.sourceReliability.1
      have hfre₁ := mul_le_mul_of_nonneg_left hfre' hw.freshness.1
      linarith

end parts

/-! ## The best manual and the best case -/

section best

variable {w : ScoreWeights}

/-- A candidate that every filter and every channel likes. -/
def perfectCandidate (type : SourceType) : RetrievalCandidate where
  sourceType := type
  sourceId := "source-1"
  chunkId := none
  contentSummary := ""
  citation := ""
  metadata := { alarmName := some "over temperature", closedDaysAgo := some 0 }
  keywordScore := some 1
  vectorScore := some 1

def perfectFilters : Filters := { alarmName := some "over temperature" }

theorem valid_perfectCandidate (type : SourceType) : (perfectCandidate type).Valid where
  keyword := fun x hx => by cases hx; exact ⟨zero_le_one, le_refl 1⟩
  vector := fun x hx => by cases hx; exact ⟨zero_le_one, le_refl 1⟩
  rerank := fun x hx => nomatch hx
  reliability := ⟨le_refl 0, zero_le_one⟩
  verification := ⟨le_refl 0, zero_le_one⟩
  freshness := ⟨by norm_num [perfectCandidate], by norm_num [perfectCandidate]⟩
  relevance := ⟨le_refl 0, zero_le_one⟩
  retrieval := ⟨le_refl 0, zero_le_one⟩
  final := ⟨le_refl 0, zero_le_one⟩

/-- Found by both channels, it is merged into itself. -/
theorem merge_perfectCandidate (type : SourceType) :
    mergeCandidates 1 [perfectCandidate type] [perfectCandidate type] = [perfectCandidate type] := by
  cases type <;> decide +kernel

theorem finalScore_perfectCandidate (hw : w.Accepted) (type : SourceType) :
    (scoreCandidate w id perfectFilters
        { perfectCandidate type with rerankScore := some 1 }).finalScore =
      w.finalRetrieval + w.sourceReliability * sourceReliability (perfectCandidate type) +
        w.verification + w.relevanceToAlarm +
        w.freshness * freshnessScore (perfectCandidate type) := by
  have hsum : w.keyword + (w.vector + w.rerank) ≠ 0 := by
    have hclose := abs_le.mp hw.retrievalSum
    intro hzero
    norm_num at hclose
    linarith
  have hretrieval : retrievalScore w { perfectCandidate type with rerankScore := some 1 } = 1 := by
    unfold retrievalScore perfectCandidate
    simp [hsum]
  have hrelevance : alarmRelevance id perfectFilters
      { perfectCandidate type with rerankScore := some 1 } = 1 := by
    cases type <;> decide +kernel
  have hverification : verificationScore { perfectCandidate type with rerankScore := some 1 } = 1 := by
    cases type <;> rfl
  show w.finalRetrieval * retrievalScore w { perfectCandidate type with rerankScore := some 1 } +
    w.sourceReliability * sourceReliability (perfectCandidate type) +
    w.verification * verificationScore { perfectCandidate type with rerankScore := some 1 } +
    w.relevanceToAlarm * alarmRelevance id perfectFilters
      { perfectCandidate type with rerankScore := some 1 } +
    w.freshness * freshnessScore (perfectCandidate type) = _
  rw [hretrieval, hrelevance, hverification, mul_one, mul_one, mul_one]

/-- What scores in range say about the weights. -/
theorem perfect_le_one (hw : w.Accepted) (h : ScoresInRange w) (type : SourceType) :
    w.finalRetrieval + w.sourceReliability * sourceReliability (perfectCandidate type) +
      w.verification + w.relevanceToAlarm +
      w.freshness * freshnessScore (perfectCandidate type) ≤ 1 := by
  have hvalid : ∀ c ∈ [perfectCandidate type], c.Valid := by
    intro c hc
    rw [List.mem_singleton.mp hc]
    exact valid_perfectCandidate type
  have hscored := h id perfectFilters 1 [perfectCandidate type] [perfectCandidate type]
    (fun _ => some 1) hvalid hvalid
    (fun _ x hx => by cases hx; exact ⟨zero_le_one, le_refl 1⟩) (perfectCandidate type)
    (by rw [merge_perfectCandidate]; exact List.mem_singleton_self _)
  rw [← finalScore_perfectCandidate hw]
  exact hscored.final.2

end best

/-- **The scores are in range** exactly where the weights keep the best manual and the best case at 1
or below. -/
theorem scoresInRange_iff {w : ScoreWeights} (hw : w.Accepted) : ScoresInRange w ↔
    w.finalRetrieval + w.sourceReliability + w.verification + w.relevanceToAlarm +
        17 / 20 * w.freshness ≤ 1 ∧
      w.finalRetrieval + 19 / 20 * w.sourceReliability + w.verification + w.relevanceToAlarm +
        w.freshness ≤ 1 := by
  constructor
  · intro h
    have hmanual := perfect_le_one hw h .manual
    have hcase := perfect_le_one hw h .case
    have hfresh : freshnessScore (perfectCandidate .manual) = 17 / 20 := rfl
    have hreliable : sourceReliability (perfectCandidate .manual) = 1 := rfl
    have hfresh' : freshnessScore (perfectCandidate .case) = 1 := by decide +kernel
    have hreliable' : sourceReliability (perfectCandidate .case) = 19 / 20 := rfl
    rw [hfresh, hreliable] at hmanual
    rw [hfresh', hreliable'] at hcase
    constructor
    · linarith
    · linarith
  · rintro ⟨hmanual, hcase⟩ lower filters limit keyword vector rerank hk hv hr c hc
    have hvalid : ({ c with rerankScore := rerank c } : RetrievalCandidate).Valid :=
      { valid_merge hk hv c hc with rerank := hr c }
    exact { keyword := hvalid.keyword
            vector := hvalid.vector
            rerank := hvalid.rerank
            reliability := inUnit_sourceReliability
            verification := inUnit_verificationScore
            freshness := inUnit_freshnessScore
            relevance := inUnit_alarmRelevance
            retrieval := inUnit_retrievalScore hw hvalid
            final := inUnit_finalScore hw hvalid hmanual hcase }

/-- The weights that `Settings` defaults to. -/
theorem default_scoresInRange : ScoresInRange {} := by
  apply (scoresInRange_iff ?_).mpr
  · norm_num
  · constructor <;> norm_num [InUnit]

/-- Weights within the tolerance that leave the freshness out. -/
def staleWeights : ScoreWeights :=
  { finalRetrieval := 1 / 2 + 1 / (2 * 10 ^ 9), freshness := 0 }

theorem accepted_staleWeights : staleWeights.Accepted := by
  constructor <;> norm_num [InUnit, staleWeights]

/-- A perfect manual is scored above 1 with them. -/
theorem stale_out_of_range : ¬ ∀ w : ScoreWeights, w.Accepted → ScoresInRange w := by
  intro hall
  have hmanual := perfect_le_one accepted_staleWeights (hall _ accepted_staleWeights) .manual
  have hfresh : freshnessScore (perfectCandidate .manual) = 17 / 20 := rfl
  have hreliable : sourceReliability (perfectCandidate .manual) = 1 := rfl
  rw [hfresh, hreliable] at hmanual
  norm_num [staleWeights] at hmanual

end EnergyAgent.Retrieval
