import DuraLLM.Agent.EvictionOrder
import DuraLLM.Agent.Growth
import DuraLLM.Agent.PairedPayloads
import DuraLLM.Agent.PendingCalls
import DuraLLM.Agent.Protection
import DuraLLM.Agent.Revalidation
import DuraLLM.Agent.SharedArguments
import DuraLLM.Agent.State
import DuraLLM.Agent.SyntaxRepairs
import DuraLLM.Agent.SystemTexts
import DuraLLM.Breaker.Episodes
import DuraLLM.Breaker.Ignored
import DuraLLM.Breaker.Probes
import DuraLLM.Continuation.Chain
import DuraLLM.Continuation.CompleteTurn
import DuraLLM.Execution.AttemptBooks
import DuraLLM.Execution.Bounds
import DuraLLM.Execution.HangUps
import DuraLLM.Execution.HopBounds
import DuraLLM.Execution.LaneCooldowns
import DuraLLM.Execution.OutputLimits
import DuraLLM.Execution.Overspend
import DuraLLM.Execution.Permits
import DuraLLM.Execution.ReviewedCalls
import DuraLLM.Execution.Samples
import DuraLLM.Execution.SentKeys
import DuraLLM.Execution.ServerErrors
import DuraLLM.Execution.StreamPermits
import DuraLLM.Gateway.AccountLockouts
import DuraLLM.Gateway.Restart
import DuraLLM.Gateway.RouteIdentity
import DuraLLM.Lib.Transcript
import DuraLLM.Mcp.Interleaving
import DuraLLM.Mcp.Reexecution
import DuraLLM.Mcp.Replays
import DuraLLM.Observability.Completeness
import DuraLLM.Performance.SlidingWindow
import DuraLLM.Performance.StreamRelay
import DuraLLM.Protocol.Adjacency
import DuraLLM.Protocol.AnthropicRoundTrip
import DuraLLM.Protocol.CallNames
import DuraLLM.Protocol.CleanSchemas
import DuraLLM.Protocol.MessageTexts
import DuraLLM.Protocol.TornStreams
import DuraLLM.Providers.Announcements
import DuraLLM.Providers.Cancellation
import DuraLLM.Providers.StreamedReplies
import DuraLLM.Routing.Budget
import DuraLLM.Routing.FailoverRuns
import DuraLLM.Routing.FallbackChain
import DuraLLM.Routing.KeyRotation
import DuraLLM.Routing.PoolIsolation
import DuraLLM.Routing.PromptCache
import DuraLLM.Routing.Relief
import DuraLLM.Routing.ShadowRouting
import DuraLLM.Security.LiteralHosts
import DuraLLM.Storage.ClusterLeases
import DuraLLM.Storage.ClusterReceipts
import DuraLLM.Storage.ClusterSessions
import DuraLLM.Storage.Durability
import DuraLLM.Storage.Fencing
import DuraLLM.Storage.Lockstep
import DuraLLM.Storage.TokenBuckets
import DuraLLM.Streaming.Buffered
