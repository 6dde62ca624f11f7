import Text2Image.Concurrency.Execution
import Text2Image.Concurrency.Fallible
import Text2Image.Concurrency.Invariant
import Text2Image.Concurrency.Layers
import Text2Image.Concurrency.Observation
import Text2Image.Concurrency.Policy
import Text2Image.Concurrency.Precondition
import Text2Image.Concurrency.Preservation
import Text2Image.Concurrency.Program
import Text2Image.Concurrency.Refinement
import Text2Image.Concurrency.Replies
import Text2Image.Concurrency.Scope
import Text2Image.Concurrency.System
import Text2Image.Database.Effect
import Text2Image.Database.ImageRepo
import Text2Image.Database.Keyspace
import Text2Image.Database.Statement
import Text2Image.Database.Table
import Text2Image.Database.UserRepo
import Text2Image.Frontend.AuthSession
import Text2Image.Frontend.ImageGenerator
import Text2Image.Frontend.ImageHistory
import Text2Image.Frontend.TaskSocket
import Text2Image.Limits.TokenBucket
import Text2Image.Metrics.Intervals
import Text2Image.Models.Chrono
import Text2Image.Models.CivilTime
import Text2Image.Models.ImageGeneration
import Text2Image.Models.ImageStorage
import Text2Image.Models.Json
import Text2Image.Models.Numbered
import Text2Image.Models.TaskStatus
import Text2Image.Models.User
import Text2Image.Properties.Attempts
import Text2Image.Properties.AuthFailures
import Text2Image.Properties.CacheAgreement
import Text2Image.Properties.CacheKeyspace
import Text2Image.Properties.CacheStack
import Text2Image.Properties.ClaimExactness
import Text2Image.Properties.CurrentPasswords
import Text2Image.Properties.DisabledAccounts
import Text2Image.Properties.EventIsolation
import Text2Image.Properties.ExactIntegers
import Text2Image.Properties.FailedMutations
import Text2Image.Properties.Fencing
import Text2Image.Properties.ForwardedAddresses
import Text2Image.Properties.Generation
import Text2Image.Properties.GenerationAges
import Text2Image.Properties.HealthGate
import Text2Image.Properties.HistogramCounts
import Text2Image.Properties.Idempotency
import Text2Image.Properties.InsertedIds
import Text2Image.Properties.Isolation
import Text2Image.Properties.JsonRoundTrip
import Text2Image.Properties.KeeperScope
import Text2Image.Properties.LeaseScan
import Text2Image.Properties.ListFreshness
import Text2Image.Properties.ListVersions
import Text2Image.Properties.ModelAcceptance
import Text2Image.Properties.ModelLoads
import Text2Image.Properties.Noninterference
import Text2Image.Properties.ObjectUrls
import Text2Image.Properties.Orphans
import Text2Image.Properties.Pagination
import Text2Image.Properties.PasswordHashes
import Text2Image.Properties.PasswordSessions
import Text2Image.Properties.PresignedUrls
import Text2Image.Properties.QueueDrain
import Text2Image.Properties.QueuedTasks
import Text2Image.Properties.Quota
import Text2Image.Properties.RateLimits
import Text2Image.Properties.Replay
import Text2Image.Properties.RequestIds
import Text2Image.Properties.RetryBudget
import Text2Image.Properties.RowShape
import Text2Image.Properties.SingleFlight
import Text2Image.Properties.SingleUseTokens
import Text2Image.Properties.SocketLifecycle
import Text2Image.Properties.StoreAgreement
import Text2Image.Properties.StoreEquivalence
import Text2Image.Properties.StoredImages
import Text2Image.Properties.TaskFreshness
import Text2Image.Properties.Transitions
import Text2Image.Properties.ViewHistory
import Text2Image.Services.AuthBackend
import Text2Image.Services.AuthExecution
import Text2Image.Services.AuthOperation
import Text2Image.Services.AuthReplies
import Text2Image.Services.AuthService
import Text2Image.Services.Backend
import Text2Image.Services.CacheClients
import Text2Image.Services.CacheExpiry
import Text2Image.Services.CacheOrigins
import Text2Image.Services.CacheSources
import Text2Image.Services.ClientAddress
import Text2Image.Services.Duties
import Text2Image.Services.Execution
import Text2Image.Services.Executions
import Text2Image.Services.Footprint
import Text2Image.Services.GenerationClient
import Text2Image.Services.GenerationRuns
import Text2Image.Services.ImageCacheKey
import Text2Image.Services.ImageService
import Text2Image.Services.MetricsRegistry
import Text2Image.Services.ModelHealthGate
import Text2Image.Services.ModelLoading
import Text2Image.Services.ModelRequest
import Text2Image.Services.ModelService
import Text2Image.Services.Operation
import Text2Image.Services.PasswordUtils
import Text2Image.Services.Presigning
import Text2Image.Services.Protocol
import Text2Image.Services.RateLimiter
import Text2Image.Services.RefreshTokenStore
import Text2Image.Services.RequestProtocol
import Text2Image.Services.SessionLines
import Text2Image.Services.Steps
import Text2Image.Services.StoreRuns
import Text2Image.Services.StoredPasswords
import Text2Image.Services.TaskEngine
import Text2Image.Services.TaskEventHub
import Text2Image.Services.ThreadSession
import Text2Image.Services.TokenLineage
import Text2Image.Services.WorkerProtocol
