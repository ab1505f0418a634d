import EnergyAgent.Lib.Table
import EnergyAgent.Lib.Text
import Mathlib.Algebra.Order.Ring.Rat
import Mathlib.Data.List.Dedup
import Mathlib.Data.List.Sort

/-!
# Candidates

The candidates of a retrieval (`retrieval/contracts.py`) and what happens to them: they are merged
(`merge.py`), scored (`scoring.py`), and deduplicated (`dedup.py`). Scores are rational numbers, without
rounding.
-/

namespace EnergyAgent.Retrieval

open EnergyAgent.Lib

inductive SourceType
  | manual | ticket | case | graph
  deriving DecidableEq, Repr

/-- The metadata of a candidate, as the scores read it. -/
structure Metadata where
  alarmName : Option String := none
  deviceType : Option String := none
  deviceModel : Option String := none
  manufacturer : Option String := none
  /-- `source_class`, where it is there, says so. -/
  officialManual : Bool := true
  verified : Bool := true
  closed : Bool := true
  effective : Bool := true
  /-- How many days ago a ticket was closed. -/
  closedDaysAgo : Option Int := none
  deriving DecidableEq, Repr

structure RetrievalCandidate where
  sourceType : SourceType
  sourceId : String
  chunkId : Option String
  contentSummary : String
  citation : String
  metadata : Metadata
  keywordScore : Option Rat
  vectorScore : Option Rat
  rerankScore : Option Rat := none
  sourceReliability : Rat := 0
  verificationScore : Rat := 0
  freshnessScore : Rat := 3 / 5
  relevanceToAlarm : Rat := 0
  retrievalScore : Rat := 0
  finalScore : Rat := 0
  needManualConfirmation : Bool := false
  embedding : Option (List Rat) := none
  deriving DecidableEq, Repr

/-- `identity` -/
def RetrievalCandidate.identity (c : RetrievalCandidate) : SourceType × String × String :=
  (c.sourceType, c.sourceId, c.chunkId.getD "")

/-- Identities are compared by `==`. -/
instance : LawfulBEq (SourceType × String × String) := inferInstance

/-- The filters of a search. -/
structure Filters where
  alarmName : Option String := none
  deviceType : Option String := none
  deviceModel : Option String := none
  manufacturer : Option String := none
  component : Option String := none
  symptomTerms : List String := []
  deriving DecidableEq, Repr

/-! ## Merging -/

/-- `normalize_scores` -/
def normalizeScores (values : List Rat) : List Rat :=
  match values with
  | [] => []
  | v :: vs =>
      let low := vs.foldl min v
      let high := vs.foldl max v
      if high = low then values.map fun _ => if 0 < high then 1 else 0
      else values.map fun value => (value - low) / (high - low)

/-- The candidate of the vector channel, on top of that of the keyword channel if there is one. -/
def withVector (merged : List RetrievalCandidate) (c : RetrievalCandidate) :
    List RetrievalCandidate :=
  match Table.get RetrievalCandidate.identity merged c.identity with
  | some existing =>
      let embedding := if (c.embedding.getD []) ≠ [] then c.embedding else existing.embedding
      Table.upsert RetrievalCandidate.identity merged
        { existing with vectorScore := c.vectorScore, embedding := embedding }
  | none => Table.upsert RetrievalCandidate.identity merged c

/-- `merge_candidates` -/
def mergeCandidates (limit : Nat) (keyword vector : List RetrievalCandidate) :
    List RetrievalCandidate :=
  let keywordNormalized := normalizeScores (keyword.map fun c => c.keywordScore.getD 0)
  let vectorNormalized := normalizeScores (vector.map fun c => c.vectorScore.getD 0)
  let merged := (keyword.zip keywordNormalized).foldl (fun merged (c, score) =>
    Table.upsert RetrievalCandidate.identity merged { c with keywordScore := some score }) []
  let merged := (vector.zip vectorNormalized).foldl (fun merged (c, score) =>
    withVector merged { c with vectorScore := some score }) merged
  merged.take limit

/-! ## Scoring -/

structure ScoreWeights where
  keyword : Rat := 3 / 10
  vector : Rat := 2 / 5
  rerank : Rat := 3 / 10
  finalRetrieval : Rat := 7 / 20
  sourceReliability : Rat := 1 / 5
  verification : Rat := 3 / 20
  relevanceToAlarm : Rat := 3 / 20
  freshness : Rat := 3 / 20

section scoring

variable (weights : ScoreWeights) (lower : String → String) (filters : Filters)
  (c : RetrievalCandidate)

/-- `retrieval_score` -/
def retrievalScore : Rat :=
  let channels := [(c.keywordScore, weights.keyword), (c.vectorScore, weights.vector),
    (c.rerankScore, weights.rerank)]
  let available := ((channels.filter fun x => x.1.isSome).map Prod.snd).sum
  if available = 0 then 0 else (channels.map fun x => x.1.getD 0 * x.2).sum / available

/-- `source_reliability` -/
def sourceReliability : Rat :=
  match c.sourceType with
  | .manual => if c.metadata.officialManual then 1 else 19 / 20
  | .case => 19 / 20
  | _ => if c.metadata.verified then 17 / 20 else 13 / 20

/-- `verification_score` -/
def verificationScore : Rat :=
  match c.sourceType with
  | .manual => if c.metadata.verified then 1 else 3 / 10
  | _ =>
      if c.metadata.verified && c.metadata.closed then 1
      else if c.metadata.closed then 7 / 10 else 3 / 10

/-- `freshness_score` -/
def freshnessScore : Rat :=
  match c.sourceType, c.metadata.closedDaysAgo with
  | .manual, _ => if c.metadata.effective then 17 / 20 else 1 / 2
  | _, none => 3 / 5
  | _, some days =>
      let months : Rat := (max 0 days : Int) / (3044 / 100)
      if months ≤ 3 then 1
      else if months ≤ 6 then 17 / 20
      else if months ≤ 12 then 7 / 10 else 1 / 2

/-- What the filters ask for, and what the candidate says about it. -/
def applicableAnchors : List (String × Option String) :=
  ([(filters.alarmName, c.metadata.alarmName), (filters.deviceType, c.metadata.deviceType),
    (filters.deviceModel, c.metadata.deviceModel), (filters.manufacturer, c.metadata.manufacturer),
    (filters.component, none)] : List (Option String × Option String)).filterMap
    fun (expected, actual) => (Text.truthy expected).map fun text => (text, Text.truthy actual)

/-- `alarm_relevance` -/
def alarmRelevance : Rat :=
  let applicable := applicableAnchors filters c
  if (applicable.take 3).any fun a => a.2.isSome ∧ a.2 ≠ some a.1 then 1 / 5
  else
    let matched := (applicable.filter fun a => a.2 = some a.1).length
    let base : Rat := if applicable = [] then 1 / 2 else matched / applicable.length
    let text := lower c.contentSummary
    let base := if filters.symptomTerms = [] then base
      else
        let found := (filters.symptomTerms.filter fun t => Text.contains text (lower t)).length
        3 / 4 * base + 1 / 4 * (found / filters.symptomTerms.length)
    min 1 (max 0 base)

/-- `score_candidate` -/
def scoreCandidate : RetrievalCandidate :=
  let reliability := sourceReliability c
  let verification := verificationScore c
  let freshness := freshnessScore c
  let relevance := alarmRelevance lower filters c
  let retrieval := retrievalScore weights c
  let final := weights.finalRetrieval * retrieval + weights.sourceReliability * reliability +
    weights.verification * verification + weights.relevanceToAlarm * relevance +
    weights.freshness * freshness
  { c with
    sourceReliability := reliability
    verificationScore := verification
    freshnessScore := freshness
    relevanceToAlarm := relevance
    retrievalScore := retrieval
    finalScore := final
    needManualConfirmation := c.sourceType = .case ∨ final < 13 / 20 ∨ relevance ≤ 1 / 5 }

end scoring

/-! ## Deduplication -/

/-- The limits of `deduplicate_and_diversify`. `similar` compares the cosine of two embeddings with
the threshold. -/
structure Diversity where
  similar : List Rat → List Rat → Bool
  maxChunksPerDocument : Nat := 2
  maxResultsPerTicket : Nat := 1

/-- `sorted(candidates, key=final_score, reverse=True)` -/
def byFinalScore (candidates : List RetrievalCandidate) : List RetrievalCandidate :=
  candidates.insertionSort fun a b => b.finalScore ≤ a.finalScore

/-- The candidate is left out, given those that are selected. -/
def leftOut (d : Diversity) (minimumQuality : Rat) (selected : List RetrievalCandidate)
    (c : RetrievalCandidate) : Bool :=
  let limit := if c.sourceType = .manual then d.maxChunksPerDocument else d.maxResultsPerTicket
  c.finalScore < minimumQuality ∨ c.identity ∈ selected.map RetrievalCandidate.identity ∨
    limit ≤ (selected.filter fun s => s.sourceType = c.sourceType ∧ s.sourceId = c.sourceId).length ∨
    (c.embedding.getD [] ≠ [] ∧ selected.any fun s => s.embedding.getD [] ≠ [] ∧
      d.similar (c.embedding.getD []) (s.embedding.getD []))

/-- The loop over the candidates; it stops when `topK` are selected. -/
def selectCandidates (d : Diversity) (topK : Nat) (minimumQuality : Rat)
    (selected : List RetrievalCandidate) : List RetrievalCandidate → List RetrievalCandidate
  | [] => selected
  | c :: rest =>
      if leftOut d minimumQuality selected c then
        selectCandidates d topK minimumQuality selected rest
      else if selected.length + 1 = topK then selected ++ [c]
      else selectCandidates d topK minimumQuality (selected ++ [c]) rest

/-- `deduplicate_and_diversify`: of two or more candidates from one kind of source the last one makes
room for the best one from another. -/
def deduplicateAndDiversify (d : Diversity) (topK : Nat) (minimumQuality : Rat)
    (candidates : List RetrievalCandidate) : List RetrievalCandidate :=
  let ordered := byFinalScore candidates
  let selected := selectCandidates d topK minimumQuality [] ordered
  let sourceTypes := (selected.map RetrievalCandidate.sourceType).dedup
  if sourceTypes.length = 1 ∧ 2 ≤ selected.length then
    match ordered.find? fun c => c.sourceType ∉ sourceTypes ∧ minimumQuality ≤ c.finalScore ∧
        c.identity ∉ selected.map RetrievalCandidate.identity with
    | some alternate => byFinalScore (selected.dropLast ++ [alternate])
    | none => selected
  else selected

end EnergyAgent.Retrieval
