import Cuttlegate.Lib.Sorter
import Cuttlegate.Lib.Proc
import Cuttlegate.Lib.Pool
import Cuttlegate.Lib.Discipline
import Cuttlegate.Lib.Cell
import Cuttlegate.Lib.Tokens
import Cuttlegate.Lib.Evidence
import Cuttlegate.Lib.Reports
import Cuttlegate.Lib.Steps
import Cuttlegate.Lib.Json
import Cuttlegate.Lib.Rows
import Cuttlegate.Lib.Feed
import Cuttlegate.Lib.Shares
import Cuttlegate.Lib.Ledger
import Cuttlegate.Lib.Framing
import Cuttlegate.Lib.Calendar
import Cuttlegate.Lib.Keyset
import Cuttlegate.Lib.OffsetPages
import Cuttlegate.Lib.Like
import Cuttlegate.Lib.FixedWindow
import Cuttlegate.Lib.Detached
import Cuttlegate.Lib.Histogram
import Cuttlegate.Domain.Errors
import Cuttlegate.Domain.Flag
import Cuttlegate.Domain.Rule
import Cuttlegate.Domain.Evaluator
import Cuttlegate.Domain.Access
import Cuttlegate.Domain.Project
import Cuttlegate.Store.Schema
import Cuttlegate.Store.Repository
import Cuttlegate.Store.Operations
import Cuttlegate.Store.Statements
import Cuttlegate.App.Context
import Cuttlegate.App.FlagService
import Cuttlegate.App.RuleService
import Cuttlegate.App.ProjectService
import Cuttlegate.App.APIKeyService
import Cuttlegate.App.AuditService
import Cuttlegate.App.EvaluationService
import Cuttlegate.App.Methods
import Cuttlegate.Adapters.RateLimit
import Cuttlegate.Adapters.Decode
import Cuttlegate.Adapters.Mcp
import Cuttlegate.Adapters.Http
import Cuttlegate.Adapters.Handlers
import Cuttlegate.Adapters.Routes
import Cuttlegate.Adapters.Cursors
import Cuttlegate.Adapters.Broker
import Cuttlegate.Adapters.Oidc
import Cuttlegate.Sdk.Caches
import Cuttlegate.Sdk.Wire
import Cuttlegate.Sdk.CachedClients
import Cuttlegate.Sdk.Readers
import Cuttlegate.Sdk.ConnectionLoop
import Cuttlegate.Web.RulesPage
import Cuttlegate.Theory.RoleGate
import Cuttlegate.Theory.Isolation
import Cuttlegate.Theory.FlagIdentity
import Cuttlegate.Theory.Variants
import Cuttlegate.Theory.Priorities
import Cuttlegate.Theory.Batch
import Cuttlegate.Theory.Capability
import Cuttlegate.Theory.NestedRoutes
import Cuttlegate.Theory.Agreement
import Cuttlegate.Theory.Scope
import Cuttlegate.Theory.KeyLifecycle
import Cuttlegate.Theory.LastAdmin
import Cuttlegate.Theory.BrokerPanics
import Cuttlegate.Theory.Hub
import Cuttlegate.Theory.Delivery
import Cuttlegate.Theory.Streaming
import Cuttlegate.Theory.Durability
import Cuttlegate.Theory.Transactions
import Cuttlegate.Theory.Toggles
import Cuttlegate.Theory.ToggleSteps
import Cuttlegate.Theory.ToggleEvents
import Cuttlegate.Theory.LastEvents
import Cuttlegate.Theory.Backfill
import Cuttlegate.Theory.ProjectRows
import Cuttlegate.Theory.StateRows
import Cuttlegate.Theory.Compensation
import Cuttlegate.Theory.RateIsolation
import Cuttlegate.Theory.ExistenceOracle
import Cuttlegate.Theory.CacheAgreement
import Cuttlegate.Theory.Substitution
import Cuttlegate.Theory.Convergence
import Cuttlegate.Theory.WireRoundTrip
import Cuttlegate.Theory.DragReorder
import Cuttlegate.Theory.AuditLog
import Cuttlegate.Theory.ToggleFailures
import Cuttlegate.Theory.AuditHistory
import Cuttlegate.Theory.HistoryPages
import Cuttlegate.Theory.AuditPages
import Cuttlegate.Theory.EvaluationPages
import Cuttlegate.Theory.FlagPages
import Cuttlegate.Theory.VariantEdits
import Cuttlegate.Theory.Rollout
import Cuttlegate.Theory.VariantRepair
import Cuttlegate.Theory.DeleteAtomicity
import Cuttlegate.Theory.RowSecurity
import Cuttlegate.Theory.FlagSearch
import Cuttlegate.Theory.EvaluationSafety
import Cuttlegate.Theory.SegmentLoading
import Cuttlegate.Theory.RoleClaims
import Cuttlegate.Theory.RateBounds
import Cuttlegate.Theory.EvaluationStats
import Cuttlegate.Theory.SegmentMembership
import Cuttlegate.Theory.EvaluationBuckets
import Cuttlegate.Theory.StreamCallbacks
import Cuttlegate.Theory.RuleRoundTrip
import Cuttlegate.Sdk.CachedClient
import Cuttlegate.Theory.ClientClosing
import Cuttlegate.Adapters.TenantContext
import Cuttlegate.Lib.Backoff
import Cuttlegate.Lib.Separated
import Cuttlegate.Sdk.Bootstraps
import Cuttlegate.Sdk.Provider
import Cuttlegate.Sdk.StreamLoop
import Cuttlegate.Theory.AuthFailures
import Cuttlegate.Theory.ConditionTyping
import Cuttlegate.Theory.OutageBackoff
import Cuttlegate.Theory.ProviderConvergence
import Cuttlegate.Theory.PythonReads
import Cuttlegate.Theory.Subscribers
import Cuttlegate.Theory.TenantLiteral
import Cuttlegate.Lib.Hashing
import Cuttlegate.Theory.BucketHash
import Cuttlegate.Sdk.Subscribe
import Cuttlegate.Theory.GoEvents
import Cuttlegate.Theory.GoSubscribe
import Cuttlegate.Theory.BrokenStreams
import Cuttlegate.Theory.Pipeline
import Cuttlegate.Sdk.Evaluation
import Cuttlegate.Theory.EvaluationWire
import Cuttlegate.Sdk.OpenFeature
import Cuttlegate.Theory.OpenFeature
import Cuttlegate.Lib.Recovery
import Cuttlegate.Sdk.Restarts
import Cuttlegate.Theory.Restarts
import Cuttlegate.Lib.MovingPages
import Cuttlegate.Adapters.Retention
import Cuttlegate.Theory.LiveHistory
import Cuttlegate.Lib.Answers
import Cuttlegate.Theory.ServedEvaluations
