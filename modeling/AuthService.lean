import AuthService.AccountEffects
import AuthService.AccountIntegrity
import AuthService.AccountRuns
import AuthService.AccountTables
import AuthService.AddressLimits
import AuthService.AuditIsolation
import AuthService.AuditTrail
import AuthService.AuthorisedRevocation
import AuthService.BacktrackingSearch
import AuthService.BearerAuthentication
import AuthService.BulkRevocation
import AuthService.CallTraces
import AuthService.CommandHandlers
import AuthService.CommittedReplays
import AuthService.CredentialLedgers
import AuthService.CredentialOrigins
import AuthService.DomainModel
import AuthService.EmailCounters
import AuthService.EmailForms
import AuthService.ExecutedOperations
import AuthService.ExpiringMaps
import AuthService.FallibleState
import AuthService.FallibleTriples
import AuthService.FinalRevocation
import AuthService.GraphqlDocuments
import AuthService.GraphqlResolvers
import AuthService.HandlerRuns
import AuthService.HashOrigins
import AuthService.HasherCalls
import AuthService.HttpService
import AuthService.IdempotencyExtension
import AuthService.IdempotencyRecords
import AuthService.IdempotentRetries
import AuthService.IndexLifetimes
import AuthService.JsonReader
import AuthService.JsonText
import AuthService.KeyOwnership
import AuthService.KeyedRows
import AuthService.LabelledRuns
import AuthService.LiveTransactions
import AuthService.OperationScan
import AuthService.OutdatedSessions
import AuthService.PasswordHistory
import AuthService.PasswordThreads
import AuthService.PoolTermination
import AuthService.PostRefinement
import AuthService.PythonText
import AuthService.RateLimitMiddleware
import AuthService.RateLimiter
import AuthService.RateWindows
import AuthService.ReadCommitted
import AuthService.RecordThreads
import AuthService.RedisClients
import AuthService.RedisCommands
import AuthService.RedisKeyspace
import AuthService.RedisSessions
import AuthService.RedisTokenStore
import AuthService.RefreshLinearity
import AuthService.RefusalWindows
import AuthService.RegistrationThreads
import AuthService.RequestBodies
import AuthService.RequestFaults
import AuthService.RequestPorts
import AuthService.RequestThreads
import AuthService.RequestTriples
import AuthService.ResetAvailability
import AuthService.ResetRequestThreads
import AuthService.ResetThreads
import AuthService.ResetTokenRuns
import AuthService.RetryAfter
import AuthService.RunSimulations
import AuthService.SampleContainer
import AuthService.ServiceRuns
import AuthService.SessionCoupling
import AuthService.SessionDiscipline
import AuthService.SessionFrames
import AuthService.SessionStoreRuns
import AuthService.SessionThreads
import AuthService.SharedRedis
import AuthService.StoreClients
import AuthService.StoreViews
import AuthService.TextBodies
import AuthService.TextRequests
import AuthService.ThreadOrigins
import AuthService.ThreadPools
import AuthService.Transactions
import AuthService.UserIsolation
import AuthService.Uuids
import AuthService.VisitTriples
