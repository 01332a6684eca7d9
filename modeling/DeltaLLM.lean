import DeltaLLM.TransitionRuns
import DeltaLLM.TableStatements
import DeltaLLM.JsonValues
import DeltaLLM.CheckedResults
import DeltaLLM.KeysetPagination
import DeltaLLM.BatchRecords
import DeltaLLM.BatchItemStatements
import DeltaLLM.BatchJobStatements
import DeltaLLM.PythonText
import DeltaLLM.BatchWorkClaim
import DeltaLLM.BatchCompletionOutbox
import DeltaLLM.BatchSystem
import DeltaLLM.BatchItemSteps
import DeltaLLM.BatchItemOwnership
import DeltaLLM.BatchAttemptsBound
import DeltaLLM.BatchJobStatusMachine
import DeltaLLM.BatchCompletionBilling
import DeltaLLM.EmbeddingUsage
import DeltaLLM.BatchArtifactRows
import DeltaLLM.BatchArtifacts
import DeltaLLM.EmbeddingExecution
import DeltaLLM.SchedulerFlows
import DeltaLLM.FlowDeficits
import DeltaLLM.FlowSelection
import DeltaLLM.FlowSnapshots
import DeltaLLM.FairShareClaim
import DeltaLLM.FairShareProgress
import DeltaLLM.TenantInFlightCap
import DeltaLLM.FairSharePreview
import DeltaLLM.RedisCounters
import DeltaLLM.ParallelLimits
import DeltaLLM.RateLimitChecks
import DeltaLLM.WindowLimits
import DeltaLLM.CooldownRecovery
import DeltaLLM.DeploymentRouting
import DeltaLLM.FailoverAttempts
import DeltaLLM.StreamingCache
import DeltaLLM.StreamIsolation
import DeltaLLM.StreamFidelity
import DeltaLLM.JsonText
import DeltaLLM.JsonReading
import DeltaLLM.CacheKeys
import DeltaLLM.CreateSessions
import DeltaLLM.SessionPromotion
import DeltaLLM.PromotionSteps
import DeltaLLM.PromotionExactlyOnce
import DeltaLLM.PendingLimits
import DeltaLLM.EmbeddingPlanner
import DeltaLLM.EmbeddingWorkUnits
import DeltaLLM.EmbeddingHandover
import DeltaLLM.CallableTargets
import DeltaLLM.ConfigUpdates
import DeltaLLM.RoutingConfiguration
import DeltaLLM.GuardrailRegistry
import DeltaLLM.HotReload
import DeltaLLM.RuntimeScopes
import DeltaLLM.CallableTargetGrants
import DeltaLLM.AssetVisibility
import DeltaLLM.McpGovernance
import DeltaLLM.BudgetPeriods
import DeltaLLM.BudgetResets
import DeltaLLM.TeamModelSpend
import DeltaLLM.RouterStateBackend
import DeltaLLM.DegradedRouterState
import DeltaLLM.ChatBilling
import DeltaLLM.McpToolLoop
import DeltaLLM.FailureTelemetry
import DeltaLLM.ToolLoopUsage
import DeltaLLM.AnthropicStream
import DeltaLLM.AwaitedPrograms
import DeltaLLM.ChatStreams
import DeltaLLM.StreamContexts
import DeltaLLM.IncompleteStreams
import DeltaLLM.BatchChunks
import DeltaLLM.ChunkReleases
import DeltaLLM.AdvisoryLocks
import DeltaLLM.CapacityClaims
import DeltaLLM.McpApprovalRuns
import DeltaLLM.EmbeddingUsageSplit
import DeltaLLM.BatchLineReader
import DeltaLLM.MicrobatchDemultiplexing
import DeltaLLM.WorkSlices
import DeltaLLM.PreviewedClaims
import DeltaLLM.TableDrains
import DeltaLLM.LeaseSweeps
import DeltaLLM.RoutePolicyPublication
import DeltaLLM.EmailDelivery
import DeltaLLM.SelfServiceKeys
import DeltaLLM.SubjectStability
import DeltaLLM.MfaGate
import DeltaLLM.RevokedKeys
import DeltaLLM.PricedAudioUsage
import DeltaLLM.AudioTokenCharges
import DeltaLLM.McpEventStream
import DeltaLLM.ResetSchedule
import DeltaLLM.AnthropicAgreement
import DeltaLLM.FailoverOrder
import DeltaLLM.JsonWidths
import DeltaLLM.BatchStaging
import DeltaLLM.StagedLineLimit
import DeltaLLM.RunnerPools
import DeltaLLM.ChatPlanner
import DeltaLLM.ChatWorkUnits
import DeltaLLM.ChatExecution
import DeltaLLM.RoutePolicyMembers
import DeltaLLM.AdmittedRetries
import DeltaLLM.PromptReferences
import DeltaLLM.PromptCaches
import DeltaLLM.PromptResolution
import DeltaLLM.TextAdapters
import DeltaLLM.PresidioGuardrail
import DeltaLLM.ToolTextGuardrails
import DeltaLLM.AssetAccessAgreement
import DeltaLLM.ResponsesInput
import DeltaLLM.ToolRounds
import DeltaLLM.AssignedColumns
import DeltaLLM.InvitationAcceptance
import DeltaLLM.AcceptedMemberships
import DeltaLLM.SsoRoles
import DeltaLLM.RowVersions
import DeltaLLM.InvitationLifecycle
import DeltaLLM.InvitationMoves
import DeltaLLM.InvitationRuns
import DeltaLLM.InvitationSafety
import DeltaLLM.InvitationHistory
import DeltaLLM.AcceptanceRuns
import DeltaLLM.McpResultCache
import DeltaLLM.McpResultCacheRuns
import DeltaLLM.WaitingFlows
import DeltaLLM.DecisionRuns
import DeltaLLM.WaitingRuns
import DeltaLLM.OverlookedFlows
import DeltaLLM.GovernanceInvalidation
import DeltaLLM.GovernanceRuns
