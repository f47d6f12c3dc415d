import Statsig.Lib.SharedPtr
import Statsig.Lib.AsyncFile
import Statsig.Lib.CappedList
import Statsig.Lib.Resending
import Statsig.RoundTrip
import Statsig.Freshness
import Statsig.UpdateOrder
import Statsig.UserIsolation
import Statsig.Completion
import Statsig.EventLogger
import Statsig.FailedEvents
import Statsig.EventDelivery
import Statsig.EventAccounting
import Statsig.Provenance
import Statsig.Identity
import Statsig.Reporting
import Statsig.Refreshes
import Statsig.FailedRefresh
import Statsig.Evaluations
import Statsig.UserKeys
import Statsig.Acceptance
import Statsig.HandOff
import Statsig.SharedPool
import Statsig.Sessions
import Statsig.Markers
import Statsig.Buffers
import Statsig.Retries
import Statsig.Processing
import Statsig.ErrorReports
import Statsig.MemoryCache
import Statsig.CacheFiles
import Statsig.FailureOrder
import Statsig.SendLimit
import Statsig.HashWidths
import Statsig.UserRoundTrip
import Statsig.EqualUsers
import Statsig.ExposureTruth
import Statsig.LoggedUsers
import Statsig.FileWrites
import Statsig.Lib.Concurrent
import Statsig.Lib.Linearizable
import Statsig.LoggerCalls
import Statsig.StoreCalls
import Statsig.Timers
import Statsig.Deltas
import Statsig.PoolWork
import Statsig.SharedDirectory
