import DoxAsdlc.Orchestrator.TaskRaces
import DoxAsdlc.Orchestrator.LabelRaces
import DoxAsdlc.Orchestrator.GitGateway
import DoxAsdlc.Infrastructure.Agreement
import DoxAsdlc.Infrastructure.Undecodable
import DoxAsdlc.Workers.Delivery
import DoxAsdlc.Hitl.PendingSet
import DoxAsdlc.Hitl.RequiredEvidence
import DoxAsdlc.Hitl.Tenants
import DoxAsdlc.Coordination.PendingMessages
import DoxAsdlc.Coordination.Notifications
import DoxAsdlc.Coordination.Query
import DoxAsdlc.Workers.JobAccounting
import DoxAsdlc.Graph.Completeness
import DoxAsdlc.Graph.Correlations
import DoxAsdlc.Swarm.Coverage
import DoxAsdlc.Swarm.StatusOrder
import DoxAsdlc.Swarm.RateLimit
import DoxAsdlc.Workers.Concurrency
import DoxAsdlc.Rlm.CacheRuns
import DoxAsdlc.Rlm.Accounts
import DoxAsdlc.Rlm.Findings
import DoxAsdlc.Rlm.ToolCalls
import DoxAsdlc.Rlm.Transparency
import DoxAsdlc.RepoMapper.ShortestPaths
import DoxAsdlc.RepoMapper.NameOrder
import DoxAsdlc.RepoMapper.ExportedDeclarations
import DoxAsdlc.RepoMapper.PythonParser
import DoxAsdlc.Credentials.Deletion
import DoxAsdlc.Slack.Notifications
import DoxAsdlc.Slack.RoleCheck
import DoxAsdlc.Slack.SharedGates
import DoxAsdlc.Secrets.CachingClient
import DoxAsdlc.Agents.GateSafety
import DoxAsdlc.Infrastructure.IngestionMirror
import DoxAsdlc.RepoMapper.ContextCache
import DoxAsdlc.Llm.ClientFactory
import DoxAsdlc.Llm.ImportValidation
import DoxAsdlc.Ideation.StoredMaturity
import DoxAsdlc.Ideas.AnyAnswer
import DoxAsdlc.Ideas.UserEdits
import DoxAsdlc.Rlm.Auditor
import DoxAsdlc.Knowledge.OneMeaning
import DoxAsdlc.HitlUi.LateAnswers
import DoxAsdlc.HitlUi.ReviewStore
import DoxAsdlc.HitlUi.SearchStore
import DoxAsdlc.HitlUi.DiffDisplay
import DoxAsdlc.HitlUi.UnifiedDiff
import DoxAsdlc.HitlUi.MaturityCalculator
import DoxAsdlc.HitlUi.ArchitectStore
import DoxAsdlc.HitlUi.IdeaList
import DoxAsdlc.HitlUi.LlmConfigStore
import DoxAsdlc.Hooks.ToolValidator
import DoxAsdlc.Discovery.Coverage
import DoxAsdlc.Discovery.Generation
import DoxAsdlc.Orchestrator.UnderTest
import DoxAsdlc.Development.ArtifactWriter
import DoxAsdlc.Orchestrator.ReadYourWrites
import DoxAsdlc.Core.IdempotencyKeys
import DoxAsdlc.Swarm.OrderIndependence
import DoxAsdlc.Development.LoopControl
import DoxAsdlc.Development.CriteriaCoverage
import DoxAsdlc.Development.ReviewVerdict
import DoxAsdlc.Development.TestVerdict
import DoxAsdlc.Kubernetes.ArgumentVectors
import DoxAsdlc.Orchestrator.StepStatuses
import DoxAsdlc.Repositories.SavedDrafts
import DoxAsdlc.Repositories.ConversationHistory
import DoxAsdlc.Coordination.PresenceRuns
import DoxAsdlc.Rlm.FileSandbox
import DoxAsdlc.Validation.SecurityAgent
