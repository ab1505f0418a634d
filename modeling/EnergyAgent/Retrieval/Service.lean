import EnergyAgent.Providers.Clients
import EnergyAgent.Retrieval.Candidates

/-!
# The retrieval service

`search` of `retrieval/service.py`: the keyword channel, the vector channel (embedding and Milvus) and
the reranker. The rewritten query, the ranking of keywords (regular expressions and logarithms) and
the answers of the ports are inputs; a port that is not configured is `none`. Traces, metrics and
counts are left out. `search` handles three classes of exceptions, the providers raise more.
-/

namespace EnergyAgent.Retrieval

open EnergyAgent.Lib EnergyAgent.Providers

inductive RetrievalMode
  | hybrid | keywordOnly | vectorOnly
  deriving DecidableEq, Repr

structure QueryRewrite where
  manualQuery : String
  ticketQuery : String
  keywordTerms : List String
  warnings : List String
  deriving DecidableEq, Repr

/-- A row of MySQL: the value of its id column, and what `_candidate` makes of its columns. -/
structure Row where
  id : String
  sourceId : String
  chunkId : Option String
  content : String
  citation : String
  metadata : Metadata
  deriving DecidableEq, Repr

/-- A hit of Milvus. -/
structure Hit where
  id : String
  vectorScore : Rat
  embedding : Option (List Rat)

/-- The ports, as they answer. -/
structure Ports where
  embedding : Option (List String → Except ProviderError (List (List Rat)))
  milvus : Option (SourceType → List Rat → List String → Nat → Except ProviderError (List Hit))
  reranker : Option (String → List (String × String) → Except ProviderError (List (String × Rat)))

/-- `RetrievalService`, with its settings. -/
structure RetrievalService where
  lower : String → String
  /-- `keyword.rank` of a query and terms over rows, each with its score. -/
  rank : String → List String → SourceType → List Row → Nat → List (Row × Rat)
  keywordTopN : Nat := 20
  vectorTopN : Nat := 20
  rerankInputSize : Nat := 30
  diversity : Diversity
  weights : ScoreWeights := {}

/-- What a search is about. `cachedVector` is what `_vectors` holds for its query. -/
structure Request where
  source : SourceType
  rewrite : QueryRewrite
  filters : Filters
  rows : List Row
  cachedVector : Option (List Rat)
  topK : Nat
  scoreThreshold : Rat

/-- The id of a package is a digest of the rewritten query, the filters and the evidence. -/
structure PackageId where
  rewrite : QueryRewrite
  filters : Filters
  evidence : List (SourceType × String × String)
  deriving DecidableEq, Repr

/-- `RetrievalResult`, with the fields of its metadata that somebody reads. -/
structure RetrievalResult where
  packageId : PackageId
  rankedEvidence : List RetrievalCandidate
  partialResult : Bool
  degradedComponents : List String
  deriving DecidableEq, Repr

section search

variable (service : RetrievalService) (ports : Ports) (request : Request)

/-- `_candidate` -/
def candidate (source : SourceType) (row : Row) (keyword vector : Option Rat) :
    RetrievalCandidate where
  sourceType := source
  sourceId := row.sourceId
  chunkId := row.chunkId
  contentSummary := String.ofList (row.content.toList.take 1200)
  citation := row.citation
  metadata := row.metadata
  keywordScore := keyword
  vectorScore := vector

def searchQuery : String :=
  if request.source = .manual then request.rewrite.manualQuery else request.rewrite.ticketQuery

/-- The keyword channel. -/
def keywordCandidates : List RetrievalCandidate :=
  (service.rank (searchQuery request) request.rewrite.keywordTerms request.source request.rows
    service.keywordTopN).map fun (row, score) => candidate request.source row (some score) none

/-- The vector of the query: the cached one, or that among the vectors of both rewritten queries. -/
def queryVector (embed : List String → Except ProviderError (List (List Rat))) :
    Except ProviderError (List Rat) :=
  match request.cachedVector with
  | some vector => .ok vector
  | none => do
      let manual := request.rewrite.manualQuery
      let ticket := request.rewrite.ticketQuery
      let queries := if manual = ticket then [manual] else [manual, ticket]
      let vectors ← embed queries
      -- `zip(queries, vectors, strict=True)`
      if vectors.length ≠ queries.length then throw (.python .value)
      match (queries.zip vectors).find? fun x => x.1 = searchQuery request with
      | some (_, vector) => return vector
      | none => throw (.python .key)

/-- The vector channel: the hits among the rows; of two rows with one id the last one counts. -/
def vectorChannel (embed : List String → Except ProviderError (List (List Rat)))
    (find : SourceType → List Rat → List String → Nat → Except ProviderError (List Hit)) :
    Except ProviderError (List RetrievalCandidate) := do
  let vector ← queryVector request embed
  let hits ← find request.source vector (request.rows.map Row.id) service.vectorTopN
  return hits.filterMap fun hit =>
    (request.rows.reverse.find? fun row => row.id = hit.id).map fun row =>
      { candidate request.source row none (some hit.vectorScore) with embedding := hit.embedding }

/-- `except (EmbeddingUnavailableError, MilvusUnavailableError)` -/
def vectorHandled (e : ProviderError) : Bool := e = .embeddingUnavailable ∨ e = .milvusUnavailable

/-- The candidates of the vector channel, and the components that are degraded. -/
def vectorStage (mode : RetrievalMode) :
    Except ProviderError (List RetrievalCandidate × List String) :=
  if mode = .keywordOnly then .ok ([], [])
  else match ports.embedding, ports.milvus with
    | some embed, some find =>
        match vectorChannel service request embed find with
        | .ok candidates => .ok (candidates, [])
        | .error e => if vectorHandled e then .ok ([], ["embedding", "milvus"]) else .error e
    | _, _ => .ok ([], ["embedding", "milvus"])

/-- `_identity` -/
def identityText (c : RetrievalCandidate) : String :=
  let source := match c.sourceType with
    | .manual => "manual"
    | .ticket => "ticket"
    | .case => "case"
    | .graph => "graph"
  Text.join ":" [source, c.sourceId, c.chunkId.getD ""]

/-- The reranker, with the lookup of each candidate's score. -/
def reranked (rerank : String → List (String × String) → Except ProviderError (List (String × Rat)))
    (merged : List RetrievalCandidate) : Except ProviderError (List RetrievalCandidate) := do
  let scores ← rerank (searchQuery request)
    (merged.map fun c => (identityText c, c.contentSummary))
  merged.mapM fun c =>
    match (scores.reverse.find? fun s => s.1 = identityText c) with
    | some (_, score) => return { c with rerankScore := some score }
    | none => throw (.python .key)

/-- `except RerankerUnavailableError` -/
def rerankHandled (e : ProviderError) : Bool := e = .rerankerUnavailable

/-- The candidates after the reranker, and the component that is degraded. -/
def rerankStage (mode : RetrievalMode) (merged : List RetrievalCandidate) :
    Except ProviderError (List RetrievalCandidate × List String) :=
  if merged ≠ [] ∧ mode = .hybrid then
    match ports.reranker with
    | some rerank =>
        match reranked request rerank merged with
        | .ok candidates => .ok (candidates, [])
        | .error e => if rerankHandled e then .ok (merged, ["reranker"]) else .error e
    | none => .ok (merged, ["reranker"])
  else .ok (merged, [])

/-- The kind of evidence that a search hands out. -/
def SourceType.evidence : SourceType → SourceType
  | .graph => .case
  | source => source

/-- The result: the candidates are scored and deduplicated, and packed. -/
def packed (merged : List RetrievalCandidate) (degraded : List String) : RetrievalResult :=
  let final := deduplicateAndDiversify service.diversity request.topK request.scoreThreshold
    (merged.map (scoreCandidate service.weights service.lower request.filters))
  let ofSource := (final.filter fun c => c.sourceType = request.source.evidence).map
    fun c => { c with embedding := none }
  { packageId := ⟨request.rewrite, request.filters, final.map RetrievalCandidate.identity⟩
    rankedEvidence := ofSource.take (if request.source = .ticket then 2 else 3)
    partialResult := degraded ≠ []
    degradedComponents := (degraded.dedup).insertionSort (· ≤ ·) }

/-- `search` -/
def search (mode : RetrievalMode) : Except ProviderError RetrievalResult := do
  let keyword := if mode = .vectorOnly then [] else keywordCandidates service request
  let (vector, lost) ← vectorStage service ports request mode
  if keyword = [] ∧ vector = [] ∧ mode = .vectorOnly ∧ request.rows ≠ [] then
    throw .retrievalChannelsFailed
  let merged := mergeCandidates service.rerankInputSize keyword vector
  let (merged, lost') ← rerankStage ports request mode merged
  return packed service request merged (request.rewrite.warnings ++ lost ++ lost')

/-! ## When a search survives -/

/-- The exception of the vector channel, if it raises one. -/
def vectorFailure : Option ProviderError :=
  match ports.embedding, ports.milvus with
  | some embed, some find =>
      match vectorChannel service request embed find with
      | .ok _ => none
      | .error e => some e
  | _, _ => none

/-- The candidates that the reranker is given. -/
def mergedCandidates : List RetrievalCandidate :=
  let vector := match ports.embedding, ports.milvus with
    | some embed, some find => ((vectorChannel service request embed find).toOption).getD []
    | _, _ => []
  mergeCandidates service.rerankInputSize (keywordCandidates service request) vector

/-- The exception of the reranker, if it is asked and raises one. -/
def rerankFailure : Option ProviderError :=
  if mergedCandidates service ports request = [] then none
  else match ports.reranker with
    | some rerank =>
        match reranked request rerank (mergedCandidates service ports request) with
        | .ok _ => none
        | .error e => some e
    | none => none

/-- The ports without those that fail. -/
def unplugged : Ports :=
  let vector := vectorFailure service ports request = none
  { embedding := if vector then ports.embedding else none
    milvus := if vector then ports.milvus else none
    reranker := if rerankFailure service ports request = none then ports.reranker else none }

/-- **A hybrid search survives the failure of its other channels**: it returns what it would return
without the channels that fail (without all of them, what the keywords alone find), and lists the
components that failed. -/
def Survives : Prop :=
  ∃ result, search service ports request .hybrid = .ok result ∧
    search service (unplugged service ports request) request .hybrid = .ok result ∧
    (vectorFailure service ports request ≠ none →
      "embedding" ∈ result.degradedComponents ∧ "milvus" ∈ result.degradedComponents) ∧
    (rerankFailure service ports request ≠ none → "reranker" ∈ result.degradedComponents) ∧
    ((unplugged service ports request).milvus = none →
      (unplugged service ports request).reranker = none →
      ∃ keyword, search service ports request .keywordOnly = .ok keyword ∧
        keyword.rankedEvidence = result.rankedEvidence)

/-- The exceptions are of the classes that `search` handles. -/
def Handled : Prop :=
  (∀ e, vectorFailure service ports request = some e → vectorHandled e) ∧
    ∀ e, rerankFailure service ports request = some e → rerankHandled e

variable {service ports request}

/-- The vector stage ends with an exception that is not handled, or as if a channel that fails were
not there. -/
theorem vectorStage_hybrid :
    (∃ e, vectorFailure service ports request = some e ∧ vectorHandled e = false ∧
      vectorStage service ports request .hybrid = .error e) ∨
    ∃ vector lost, vectorStage service ports request .hybrid = .ok (vector, lost) ∧
      vectorStage service (unplugged service ports request) request .hybrid = .ok (vector, lost) ∧
      mergedCandidates service ports request =
        mergeCandidates service.rerankInputSize (keywordCandidates service request) vector ∧
      (∀ e, vectorFailure service ports request = some e → vectorHandled e) ∧
      (vectorFailure service ports request ≠ none → "embedding" ∈ lost ∧ "milvus" ∈ lost) ∧
      ((unplugged service ports request).milvus = none → vector = []) := by
  cases hembedding : ports.embedding with
  | none =>
      right
      refine ⟨[], ["embedding", "milvus"], ?_⟩
      simp [vectorStage, unplugged, vectorFailure, mergedCandidates, hembedding]
  | some embed =>
      cases hmilvus : ports.milvus with
      | none =>
          right
          refine ⟨[], ["embedding", "milvus"], ?_⟩
          simp [vectorStage, unplugged, vectorFailure, mergedCandidates, hembedding, hmilvus]
      | some find =>
          cases hchannel : vectorChannel service request embed find with
          | ok vector =>
              right
              refine ⟨vector, [], ?_⟩
              simp [vectorStage, unplugged, vectorFailure, mergedCandidates, hembedding, hmilvus,
                hchannel, Except.toOption]
          | error e =>
              cases hhandled : vectorHandled e with
              | false =>
                  left
                  refine ⟨e, ?_⟩
                  simp [vectorStage, vectorFailure, hembedding, hmilvus, hchannel, hhandled]
              | true =>
                  right
                  refine ⟨[], ["embedding", "milvus"], ?_⟩
                  simp [vectorStage, unplugged, vectorFailure, mergedCandidates, hembedding,
                    hmilvus, hchannel, hhandled, Except.toOption]

/-- The same for the reranker, which is given the merged candidates. -/
theorem rerankStage_hybrid :
    (∃ e, rerankFailure service ports request = some e ∧ rerankHandled e = false ∧
      rerankStage ports request .hybrid (mergedCandidates service ports request) = .error e) ∨
    ∃ merged lost,
      rerankStage ports request .hybrid (mergedCandidates service ports request) =
        .ok (merged, lost) ∧
      rerankStage (unplugged service ports request) request .hybrid
        (mergedCandidates service ports request) = .ok (merged, lost) ∧
      (∀ e, rerankFailure service ports request = some e → rerankHandled e) ∧
      (rerankFailure service ports request ≠ none → "reranker" ∈ lost) ∧
      ((unplugged service ports request).reranker = none →
        merged = mergedCandidates service ports request) := by
  by_cases hmerged : mergedCandidates service ports request = []
  · right
    refine ⟨[], [], ?_⟩
    simp [rerankStage, rerankFailure, hmerged]
  · cases hreranker : ports.reranker with
    | none =>
        right
        refine ⟨mergedCandidates service ports request, ["reranker"], ?_⟩
        simp [rerankStage, rerankFailure, unplugged, hmerged, hreranker]
    | some rerank =>
        cases hscores : reranked request rerank (mergedCandidates service ports request) with
        | ok candidates =>
            right
            refine ⟨candidates, [], ?_⟩
            simp [rerankStage, rerankFailure, unplugged, hmerged, hreranker, hscores]
        | error e =>
            cases hhandled : rerankHandled e with
            | false =>
                left
                refine ⟨e, ?_⟩
                simp [rerankStage, rerankFailure, hmerged, hreranker, hscores, hhandled]
            | true =>
                right
                refine ⟨mergedCandidates service ports request, ["reranker"], ?_⟩
                simp [rerankStage, rerankFailure, unplugged, hmerged, hreranker, hscores, hhandled]

/-- A hybrid search is its two stages, one after the other. -/
theorem search_hybrid {ports' : Ports} {vector : List RetrievalCandidate} {lost : List String}
    (h : vectorStage service ports' request .hybrid = .ok (vector, lost)) :
    search service ports' request .hybrid =
      (rerankStage ports' request .hybrid (mergeCandidates service.rerankInputSize
        (keywordCandidates service request) vector)).map fun (merged, lost') =>
          packed service request merged (request.rewrite.warnings ++ lost ++ lost') := by
  unfold search
  rw [h]
  cases hstage : rerankStage ports' request .hybrid (mergeCandidates service.rerankInputSize
    (keywordCandidates service request) vector) with
  | error e => simp [bind, Except.bind, hstage, Except.map]
  | ok result => simp [bind, Except.bind, hstage, Except.map, pure, Except.pure]

theorem search_keywordOnly :
    search service ports request .keywordOnly =
      .ok (packed service request (mergeCandidates service.rerankInputSize
        (keywordCandidates service request) []) request.rewrite.warnings) := by
  simp [search, vectorStage, rerankStage, bind, Except.bind, pure, Except.pure]

theorem mem_degradedComponents {merged : List RetrievalCandidate} {degraded : List String}
    {c : String} : c ∈ (packed service request merged degraded).degradedComponents ↔
      c ∈ degraded := by
  unfold packed
  rw [List.mem_insertionSort, List.mem_dedup]

end search

/-- A service that ranks every row. -/
def keywordService : RetrievalService where
  lower := id
  rank := fun _ _ _ rows n => (rows.take n).map fun row => (row, 1)
  diversity := { similar := fun _ _ => false }

/-- An embedding service that answers 400, and a vector search that would find nothing. -/
def rejectingPorts : Ports where
  embedding := some fun texts => (embeddingBatch ⟨fun _ => none, fun _ => none⟩ texts.length 2 0
    (fun _ => .response 400 none) fun _ => false).result
  milvus := some fun _ _ _ _ => .ok []
  reranker := none

/-- A search for a manual, of which MySQL has one chunk. -/
def manualSearch : Request where
  source := .manual
  rewrite := ⟨"fan speed low", "fan speed low", ["fan"], []⟩
  filters := {}
  rows := [⟨"chunk-1", "manual-1", some "chunk-1", "check the fan", "manual-1 §1", {}⟩]
  cachedVector := none
  topK := 5
  scoreThreshold := 0

end EnergyAgent.Retrieval
