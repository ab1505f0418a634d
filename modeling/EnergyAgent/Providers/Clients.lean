import EnergyAgent.Lib.Table
import EnergyAgent.Providers.Retry
import Mathlib.Data.List.Sort

/-!
# The clients of the model services and of Milvus

`providers/embedding.py`, `providers/reranker.py`, `providers/milvus.py` and `model/gateway.py`: what
a call does once its breaker has admitted it, for every answer of the service. Settings, headers and
prompts, which no decision rests on, are left out.
-/

namespace EnergyAgent.Providers

open EnergyAgent.Lib EnergyAgent.Reliability

section clients

variable (parser : NumberParser)

/-! ## Embedding -/

/-- The vectors of `count` texts in a response, in the order of their indices. -/
def readEmbeddings (count dimension : Nat) (body : Json) :
    Except ProviderError (List (List Rat)) := do
  let some data := (← reading (body.get "data")).asList | throw .embeddingResponse
  if data.length ≠ count then throw .embeddingResponse
  let keyed ← reading (data.mapM fun item => do
    let index ← item.get "index" (.int 0)
    return (← index.toInt parser, item))
  let ordered := (keyed.insertionSort fun a b => a.1 ≤ b.1).map Prod.snd
  let vectors ← reading (ordered.mapM fun item => item.get "embedding")
  let some lists := vectors.mapM Json.asList | throw .embeddingResponse
  let typed ← reading (lists.mapM fun vector => vector.mapM fun value => value.toFloat parser)
  if typed.any fun vector => vector.length ≠ dimension then throw .embeddingDimension
  let some finite := typed.mapM fun vector => vector.mapM PyFloat.value
    | throw .embeddingResponse
  return finite

/-- `_batch` -/
def embeddingBatch (count dimension maxRetries : Nat) (replies : Nat → Reply)
    (interrupted : Nat → Bool) : CallEnd (List (List Rat)) :=
  retryLoop .embeddingUnavailable [.embeddingResponse, .embeddingDimension]
    (readEmbeddings parser count dimension) replies interrupted maxRetries 0

/-! ## Reranker -/

/-- `ids[i]`, from the end for a negative index. -/
def pyIndex (ids : List String) (i : Int) : Except PyError String :=
  let k := if 0 ≤ i then i else i + ids.length
  if k < 0 then .error .index else ((ids[k.toNat]?).map .ok).getD (.error .index)

/-- One turn of the loop of `rerank`. -/
def scoreEntry (ids : List String) (output : List (String × Rat)) (result : Json) :
    Except ProviderError (List (String × Rat)) := do
  let index ← reading (result.get "index")
  let score ← reading (result.get "score")
  let score ← reading (result.get "relevance_score" score)
  let some i := index.asInt | throw .rerankerResponse
  if ids.length ≤ i ∨ score.isNumber = false then throw .rerankerResponse
  let value ← reading (score.toFloat parser)
  let id ← reading (pyIndex ids i)
  return Table.upsert Prod.fst output (id, value.clamp)

/-- The scores of the candidates in a response. -/
def readScores (ids : List String) (body : Json) : Except ProviderError (List (String × Rat)) := do
  let some results := (← reading (body.get "results")).asList | throw .rerankerResponse
  if results.length ≠ ids.length then throw .rerankerResponse
  let output ← results.foldlM (scoreEntry parser ids) []
  if ∃ id ∈ ids, id ∉ output.map Prod.fst then throw .rerankerResponse
  return output

/-- `rerank` -/
def rerank (ids : List String) (maxRetries : Nat) (replies : Nat → Reply)
    (interrupted : Nat → Bool) : CallEnd (List (String × Rat)) :=
  retryLoop .rerankerUnavailable [.rerankerResponse] (readScores parser ids) replies interrupted
    maxRetries 0

/-! ## Milvus -/

/-- A call to Milvus behind its breaker: an `Exception` of any kind is a failure. -/
def milvusCall {α : Type} : Except ProviderError α → CallEnd α
  | .ok value => ⟨[.success], .ok value⟩
  | .error .cancelled => ⟨[], .error .cancelled⟩
  | .error _ => ⟨[.failure true], .error .milvusUnavailable⟩

/-- `upsert`: the rows, and then `flush`. -/
def milvusUpsert (upserted flushed : Except ProviderError Unit) : CallEnd Unit :=
  milvusCall do
    upserted
    flushed

/-- The handlers of `ensure_collections`: a wrong schema is no failure that counts. -/
def ensured : Except ProviderError Unit → CallEnd Unit
  | .error .milvusSchemaMismatch => ⟨[.failure false], .error .milvusSchemaMismatch⟩
  | outcome => milvusCall outcome

/-- `ensure_collections` -/
def ensureCollections (manual ticket case : Except ProviderError Unit) : CallEnd Unit :=
  ensured do
    manual
    ticket
    case

/-! ## Model gateway -/

/-- `_post_with_retry`: the response, or the exception of the last try. -/
def postWithRetry (replies : Nat → Reply) (interrupted : Nat → Bool) :
    Nat → Nat → Except ProviderError (Nat × Option Json)
  | left, k =>
      let again (last : Except ProviderError (Nat × Option Json)) :
          Except ProviderError (Nat × Option Json) :=
        match left with
        | 0 => last
        | left + 1 =>
            if interrupted k then .error .cancelled
            else postWithRetry replies interrupted left (k + 1)
      match replies k with
      | .raised e =>
          if e = .httpTimeout ∨ e = .httpNetwork then again (.error e) else .error e
      | .response status body =>
          if overloaded status then again (.ok (status, body)) else .ok (status, body)

/-- The text of an answer of the Responses API. -/
def responsesContent (body : Json) : Except PyError Json := do
  let outputs ← (← body.subscript "output").iterate
  let texts ← outputs.mapM fun output => do
    let items ← (← output.get "content" (.arr [])).iterate
    items.filterMapM fun item => do
      match ← item.get "type" with
      | .str "output_text" => return some (← item.subscript "text")
      | _ => return none
  match texts.flatten with
  | [] => throw .value
  | text :: _ => return text

/-- The text of an answer of the Chat Completions API. -/
def chatContent (body : Json) : Except PyError Json := do
  let choice ← (← body.subscript "choices").first
  let content ← (← choice.subscript "message").subscript "content"
  let _ ← choice.get "finish_reason"
  return content

/-- `int(usage.get(name, usage.get(other, 0)) or 0)` -/
def tokens (usage : Json) (name other : String) : Except PyError Int := do
  let count ← usage.get name (← usage.get other (.int 0))
  if count.truthy then count.toInt parser else return 0

/-- The token counts that the metrics take from an answer. -/
def usageTokens (body : Json) : Except PyError Unit := do
  let usage ← body.get "usage" (.obj [])
  match usage with
  | .obj _ =>
      let _ ← tokens parser usage "input_tokens" "prompt_tokens"
      let _ ← tokens parser usage "output_tokens" "completion_tokens"
  | _ => return ()

/-- `isinstance(exc, httpx.HTTPError)` -/
def isHttpError : ProviderError → Bool
  | .httpTimeout | .httpNetwork | .httpStatus | .httpOther => true
  | _ => false

/-- `except (httpx.HTTPError, KeyError, TypeError, ValidationError, ValueError)` -/
def fallsBack : ProviderError → Bool
  | .python .key | .python .type | .python .value => true
  | e => isHttpError e

/-- The validated reply, with the body it comes in. -/
def modelReply {α : Type} (validate : Json → Option α) (responsesApi : Bool) (maxRetries : Nat)
    (replies : Nat → Reply) (interrupted : Nat → Bool) : Except ProviderError (Json × α) := do
  let (status, body) ← postWithRetry replies interrupted maxRetries 0
  let json ← Reply.jsonOf status body
  let content ← reading (if responsesApi then responsesContent json else chatContent json)
  match validate content with
  | some value => return (json, value)
  | none => throw (.python .value)

/-- `generate`: the reply, or `None` when it falls back. -/
def generate {α : Type} (validate : Json → Option α) (responsesApi : Bool) (maxRetries : Nat)
    (replies : Nat → Reply) (interrupted : Nat → Bool) : CallEnd (Option α) :=
  match modelReply validate responsesApi maxRetries replies interrupted with
  | .error e =>
      if fallsBack e then ⟨[.failure (isHttpError e)], .ok none⟩ else ⟨[], .error e⟩
  | .ok (body, value) =>
      match reading (usageTokens parser body) with
      | .ok _ => ⟨[.success], .ok (some value)⟩
      | .error e =>
          -- the success has been reported
          if fallsBack e then ⟨[.success, .failure (isHttpError e)], .ok none⟩
          else ⟨[.success], .error e⟩

end clients

end EnergyAgent.Providers
