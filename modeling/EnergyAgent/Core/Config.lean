import EnergyAgent.Lib.Text
import Mathlib.Algebra.Order.Group.Unbundled.Abs
import Mathlib.Algebra.Order.Ring.Rat

/-!
# `Settings`

The fields that `validate_dependencies_and_weights` reads (`core/config.py`), those of the API and those
of the tokens. Weights are rationals.
-/

namespace EnergyAgent.Core

open EnergyAgent.Lib

inductive AuthMode
  | developmentHeaders | trustedHeaders | jwt
  deriving DecidableEq, Repr

inductive ModelMode
  | disabled | openaiCompatible | openai
  deriving DecidableEq, Repr

structure Settings where
  appEnv : String := "local"
  authMode : AuthMode := .developmentHeaders
  internalApiKey : Option String := none
  jwtAccessSecret : Option String := none
  jwtRefreshSecret : Option String := none
  jwtIssuer : String := "energy-agent"
  jwtAccessAudience : String := "energy-agent-api"
  jwtRefreshAudience : String := "energy-agent-refresh"
  jwtAccessTtlMinutes : Nat := 15
  jwtRefreshTtlDays : Nat := 7
  modelMode : ModelMode := .disabled
  modelGatewayBaseUrl : Option String := none
  modelGatewayApiKey : Option String := none
  openaiApiKey : Option String := none
  /-- `observability_mode == "langfuse"` -/
  langfuse : Bool := false
  langfusePublicKey : Option String := none
  langfuseSecretKey : Option String := none
  /-- `retrieval_mode == "hybrid"` -/
  hybridRetrieval : Bool := false
  milvusVectorDimension : Int := 1024
  /-- `embedding_mode == "openai_compatible"` -/
  embedding : Bool := false
  embeddingBaseUrl : Option String := none
  embeddingApiKey : Option String := none
  embeddingDimension : Int := 1024
  /-- `rerank_mode == "http"` -/
  rerank : Bool := false
  rerankBaseUrl : Option String := none
  rerankApiKey : Option String := none
  retrievalKeywordWeight : Rat := 3 / 10
  retrievalVectorWeight : Rat := 2 / 5
  retrievalRerankWeight : Rat := 3 / 10
  finalRetrievalWeight : Rat := 7 / 20
  finalSourceReliabilityWeight : Rat := 1 / 5
  finalVerificationWeight : Rat := 3 / 20
  finalRelevanceToAlarmWeight : Rat := 3 / 20
  finalFreshnessWeight : Rat := 3 / 20
  /-- `index_execution_mode == "sync"` -/
  indexSync : Bool := true
  /-- `graph_mode == "neo4j"` -/
  neo4j : Bool := false
  neo4jPassword : Option String := none
  pilotMode : Bool := false
  pilotAllowedActors : String := ""
  rateLimitEnabled : Bool := false
  rateLimitDiagnosisPerMinute : Nat := 30
  rateLimitReviewPerMinute : Nat := 10
  rateLimitCaseWritePerMinute : Nat := 10
  requestBodyMaxBytes : Nat := 1048576

namespace Settings

/-- `app_env in {"local", "test"}` -/
def isLocal (s : Settings) : Bool := s.appEnv = "local" ∨ s.appEnv = "test"

/-- `not value` -/
def unset (value : Option String) : Bool := (Text.truthy value).isNone

/-- `not secret or len(secret.encode()) < 32` -/
def weak (secret : Option String) : Bool := unset secret ∨ secret.any (·.utf8ByteSize < 32)

/-- `abs(sum(group) - 1.0) > 1e-9` -/
def unbalanced (group : List Rat) : Bool := 1 / 10 ^ 9 < |group.sum - 1|

/-- The checks of the validator, in their order, with the texts of their errors. -/
def checks (s : Settings) : List (Bool × String) :=
  [(s.authMode = .developmentHeaders ∧ s.isLocal = false,
      "development_headers authentication is limited to local and test"),
    (s.authMode = .trustedHeaders ∧ unset s.internalApiKey,
      "INTERNAL_API_KEY is required for trusted_headers authentication"),
    (s.authMode = .jwt ∧ unset s.internalApiKey,
      "INTERNAL_API_KEY is required for JWT authentication"),
    (s.authMode = .jwt ∧ weak s.jwtAccessSecret, "JWT_ACCESS_SECRET must contain at least 32 bytes"),
    (s.authMode = .jwt ∧ weak s.jwtRefreshSecret,
      "JWT_REFRESH_SECRET must contain at least 32 bytes"),
    (s.authMode = .jwt ∧ s.jwtAccessSecret = s.jwtRefreshSecret,
      "Access and refresh JWT secrets must differ"),
    (s.pilotMode ∧ (s.authMode = .developmentHeaders ∨ unset s.internalApiKey),
      "PILOT_MODE requires gateway authentication and INTERNAL_API_KEY"),
    (s.indexSync ∧ s.isLocal = false, "INDEX_EXECUTION_MODE=sync is limited to local and test"),
    (s.neo4j ∧ unset s.neo4jPassword, "NEO4J_PASSWORD is required when GRAPH_MODE=neo4j"),
    (s.langfuse ∧ (unset s.langfusePublicKey ∨ unset s.langfuseSecretKey),
      "LANGFUSE_PUBLIC_KEY and LANGFUSE_SECRET_KEY are required when OBSERVABILITY_MODE=langfuse"),
    (s.modelMode = .openaiCompatible ∧ (unset s.modelGatewayBaseUrl ∨ unset s.modelGatewayApiKey),
      "MODEL_GATEWAY_BASE_URL and MODEL_GATEWAY_API_KEY are required when MODEL_MODE=openai_compatible"),
    (s.modelMode = .openai ∧ unset s.openaiApiKey, "OPENAI_API_KEY is required when MODEL_MODE=openai"),
    (s.embeddingDimension ≠ 1024 ∨ s.milvusVectorDimension ≠ 1024,
      "BGE-M3 and Milvus vector dimensions must both be 1024"),
    (s.hybridRetrieval ∧
        (s.embedding = false ∨ unset s.embeddingBaseUrl ∨ unset s.embeddingApiKey),
      "Hybrid retrieval requires openai-compatible embedding credentials"),
    (s.embedding ∧ (unset s.embeddingBaseUrl ∨ unset s.embeddingApiKey),
      "Embedding base URL and API key are required"),
    (s.rerank ∧ (unset s.rerankBaseUrl ∨ unset s.rerankApiKey),
      "Reranker base URL and API key are required"),
    (unbalanced [s.retrievalKeywordWeight, s.retrievalVectorWeight, s.retrievalRerankWeight] ∨
        unbalanced [s.finalRetrievalWeight, s.finalSourceReliabilityWeight, s.finalVerificationWeight,
          s.finalRelevanceToAlarmWeight, s.finalFreshnessWeight],
      "Retrieval and final score weight groups must each sum to 1")]

/-- `validate_dependencies_and_weights`: the first check that applies is reported. -/
def validate (s : Settings) : Except String Unit :=
  match s.checks.find? fun check => check.1 with
  | some check => .error check.2
  | none => .ok ()

/-- The defaults are accepted. -/
example : ({} : Settings).validate = .ok () := by decide +kernel

theorem passes_of_validate {s : Settings} (h : s.validate = .ok ()) :
    ∀ check ∈ s.checks, check.1 = false := by
  intro check hcheck
  rw [validate] at h
  split at h
  · cases h
  · next hnone => simpa using List.find?_eq_none.mp hnone check hcheck

theorem unset_eq_false {value : Option String} (h : unset value = false) :
    ∃ key, value = some key ∧ key ≠ "" := by
  cases value with
  | none => simp [unset, Text.truthy] at h
  | some key =>
      refine ⟨key, rfl, ?_⟩
      rintro rfl
      simp [unset, Text.truthy] at h

section accepted

variable {s : Settings}

/-- Where requests come from outside, they go through a gateway that has a key. -/
theorem gateway_of_validate (h : s.validate = .ok ()) (houtside : s.isLocal = false ∨ s.pilotMode = true) :
    s.authMode ≠ .developmentHeaders ∧ ∃ key, s.internalApiKey = some key ∧ key ≠ "" := by
  have hpasses := passes_of_validate h
  simp only [checks, List.forall_mem_cons, decide_eq_false_iff_not, not_and] at hpasses
  obtain ⟨hheaders, htrusted, hjwt, -, -, -, hpilot, -⟩ := hpasses
  have hmode : s.authMode ≠ .developmentHeaders := by
    intro hmode
    rcases houtside with hlocal | hpilotMode
    · exact hheaders hmode hlocal
    · exact hpilot hpilotMode (.inl hmode)
  refine ⟨hmode, unset_eq_false ?_⟩
  cases hauth : s.authMode with
  | developmentHeaders => exact absurd hauth hmode
  | trustedHeaders => exact Bool.eq_false_iff.mpr (htrusted hauth)
  | jwt => exact Bool.eq_false_iff.mpr (hjwt hauth)

end accepted

end Settings

end EnergyAgent.Core
