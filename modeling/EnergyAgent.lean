import EnergyAgent.Lib.Transition
import EnergyAgent.Cases.Acceptance
import EnergyAgent.Cases.Lifecycle
import EnergyAgent.Cases.Queueing
import EnergyAgent.Cases.Readability
import EnergyAgent.Cases.Supersession
import EnergyAgent.Cases.WorkerRules
import EnergyAgent.Cases.Obligations
import EnergyAgent.Indexing.Batch
import EnergyAgent.Indexing.Concurrent
import EnergyAgent.Users.Families
import EnergyAgent.Users.Revocation
import EnergyAgent.Agent.AlarmDedup
import EnergyAgent.Agent.Idempotency
import EnergyAgent.Agent.Cancellation
import EnergyAgent.Agent.PhaseAgreement
import EnergyAgent.Agent.Failure
import EnergyAgent.Agent.Endings
import EnergyAgent.Agent.Blocking
import EnergyAgent.Agent.Delivery
import EnergyAgent.Agent.Degradation
import EnergyAgent.Reliability.Probes
import EnergyAgent.Retrieval.Service
import EnergyAgent.Cases.History
import EnergyAgent.Cases.AllOrNothing
import EnergyAgent.Cases.ReviewReplay
import EnergyAgent.Retrieval.Admission
import EnergyAgent.Indexing.DrainAgreement
import EnergyAgent.Agent.RuleChecker
import EnergyAgent.Agent.Withholding
import EnergyAgent.Agent.Streaming
import EnergyAgent.Timeline.GapFree
import EnergyAgent.Stream.RoundTrip
import EnergyAgent.Stream.Chunking
import EnergyAgent.Catalog.Service
import EnergyAgent.Catalog.Sites
import EnergyAgent.Cases.Listing
import EnergyAgent.Agent.Restoring
import EnergyAgent.Agent.RevisionCheck
import EnergyAgent.Timeline.Service
import EnergyAgent.Users.Administration
import EnergyAgent.Users.LoginLock
import EnergyAgent.Reliability.RateLimit
import EnergyAgent.Graph.Recorded
import EnergyAgent.Agent.PhaseMachine
import EnergyAgent.Cases.EmbeddingText
import EnergyAgent.Cases.Consumers
import EnergyAgent.Cases.Deliveries
import EnergyAgent.Providers.Influxdb
import EnergyAgent.Providers.Reranking
import EnergyAgent.Retrieval.Diversity
import EnergyAgent.Retrieval.ScoreRange
import EnergyAgent.Agent.Routing
import EnergyAgent.Agent.RuleCandidates
import EnergyAgent.Ingestion.Lossless
import EnergyAgent.Ingestion.Usable
import EnergyAgent.Ingestion.Coverage
import EnergyAgent.Reliability.Windows
import EnergyAgent.Indexing.Bisection
import EnergyAgent.Evaluation.Matching
import EnergyAgent.Model.StrictSchema
import EnergyAgent.Observability.Redaction
import EnergyAgent.Ingestion.Offline
import EnergyAgent.Ingestion.Worker
import EnergyAgent.Graph.Templates
import EnergyAgent.Cases.Withdrawal
import EnergyAgent.Api.Provenance
import EnergyAgent.Users.Browser
import EnergyAgent.Stream.Bytes
import EnergyAgent.Api.Configured
import EnergyAgent.Cases.Detail
import EnergyAgent.Providers.Embedding
import EnergyAgent.Agent.ToolBudget
