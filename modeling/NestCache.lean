import NestCache.CacheClient
import NestCache.CacheErrors
import NestCache.Dialogue
import NestCache.Glob
import NestCache.JsValues
import NestCache.Machine
import NestCache.ModuleOptions
import NestCache.OptionValidation
import NestCache.RedisUrl
import NestCache.WordOverlap
import NestCache.KeyBuilder
import NestCache.NamespaceFlush
import NestCache.ClientOptions
import NestCache.BootstrapValidation
import NestCache.ScopePatterns
import NestCache.AdminOptions
import NestCache.CacheAdmin
import NestCache.AdminGuarantees
import NestCache.ScriptManager
import NestCache.LifecycleSafety
import NestCache.PubSub
import NestCache.PubSubDelivery
import NestCache.Fibers
import NestCache.KeyDescriptions
import NestCache.KeyspacePages
import NestCache.RevealedValues
import NestCache.CacheStatus
import NestCache.ScriptRecovery
import NestCache.ScriptInterleaving
import NestCache.CacheService
import NestCache.Serializer
import NestCache.ServiceCalls
import NestCache.Refusals
import NestCache.Footprint
import NestCache.NamespaceFrame
import NestCache.NamespaceRuns
import NestCache.KeyedBatch
import NestCache.StoredValues
import NestCache.RedisStore
import NestCache.BulkOperations
import NestCache.PatternOperations
import NestCache.UriComponents
import NestCache.KeyUniqueness
import NestCache.JsonEncoder
import NestCache.FailClosedWrites
import NestCache.InfoText
import NestCache.Binary64
import NestCache.NumeralsAndDates
import NestCache.RedisStats
import NestCache.Timers
import NestCache.HealthProbe
import NestCache.TimeoutsHonoured
import NestCache.UndecodableValues
import NestCache.RedisCells
import NestCache.AbstractCache
import NestCache.CacheRefinement
import NestCache.CellServer
import NestCache.Linearization
import NestCache.Histories
import NestCache.ConcurrentCalls
import NestCache.CacheHistories
import NestCache.SharedCells
import NestCache.CacheCounters
import NestCache.Emitter
import NestCache.ConnectionEvents
import NestCache.ConnectionReadiness
import NestCache.EventForwarding
import NestCache.Broker
import NestCache.MessageNetwork
import NestCache.NetworkDelivery
import NestCache.NetworkReception
import NestCache.ConcurrentFlush
import NestCache.ConcurrentScan
import NestCache.FlushSweep
import NestCache.JsonDecoder
import NestCache.JsonReading
import NestCache.JsonRoundTrip
