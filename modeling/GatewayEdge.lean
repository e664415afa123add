import GatewayEdge.Foundation.Run
import GatewayEdge.ActiveHealth
import GatewayEdge.AdaptiveConcurrency
import GatewayEdge.Admission
import GatewayEdge.AnonymousBudget
import GatewayEdge.AuthSoundness
import GatewayEdge.BodyValidation
import GatewayEdge.BotDetection
import GatewayEdge.FreshSamples
import GatewayEdge.QuotaArithmetic
import GatewayEdge.QuotaKey
import GatewayEdge.QuotaSpending
import GatewayEdge.CacheKeys
import GatewayEdge.FlightResults
import GatewayEdge.SingleNode
import GatewayEdge.NewestToken
import GatewayEdge.KnownRevocations
import GatewayEdge.GlobalBreaker
import GatewayEdge.LimiterRaces
import GatewayEdge.LoadBalancing.Affinity
import GatewayEdge.LoadBalancing.BreakerTrace
import GatewayEdge.LoadShedding
import GatewayEdge.PostureLevels
import GatewayEdge.PrefixRouting
import GatewayEdge.ProbeLoop
import GatewayEdge.ConfigSync
import GatewayEdge.ReloadRaces
import GatewayEdge.UpstreamIsolation
import GatewayEdge.UpstreamUrl
import GatewayEdge.UserBudget
import GatewayEdge.RedisUrl
import GatewayEdge.Residency
import GatewayEdge.Lua.CorsHeaders
import GatewayEdge.Lua.Identity
import GatewayEdge.Lua.RequestIds
import GatewayEdge.Lua.SlotAccounting
import GatewayEdge.Lua.UpstreamHeaders
import GatewayEdge.UriInspection
import GatewayEdge.RedisCb.CooldownRaces
import GatewayEdge.RedisCb.FastDetection
import GatewayEdge.RedisCb.Guarantees
import GatewayEdge.RedisCb.Percentiles
import GatewayEdge.RedisCb.Recovery
import GatewayEdge.Foundation.Joined
import GatewayEdge.Truncation
import GatewayEdge.OtlpHeaders
import GatewayEdge.OtlpExport
import GatewayEdge.LearnedBaseline
import GatewayEdge.MetricsPage
import GatewayEdge.TelemetryRaces
import GatewayEdge.OtlpSpans
import GatewayEdge.OtlpLogs
import GatewayEdge.SyncBreaker
import GatewayEdge.TokenCache
import GatewayEdge.BudgetOwners
import GatewayEdge.EnvOverrides
import GatewayEdge.SyncProgress
import GatewayEdge.Lua.Dispatch
import GatewayEdge.UpstreamEvidence
import GatewayEdge.L2Cache
