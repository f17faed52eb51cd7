import NestCache.CacheErrors

/-!
# Module options

The options a consumer passes to the module (`BymaxCacheModuleOptions`), the
resolved form with every default filled in, and the option record of the Redis
client that the connection manager builds from it.  An absent or `undefined`
field is `none`.
-/

namespace NestCache

/-- The connection mode. -/
inductive CacheMode
  | standalone
  | sentinel
  | cluster
  deriving DecidableEq, Repr

/-- The mode as the source spells it. -/
def CacheMode.name : CacheMode → Text
  | standalone => "standalone".toList
  | sentinel => "sentinel".toList
  | cluster => "cluster".toList

/-- TLS connection options: the settings of the object, none for `{}`. -/
structure TlsConnectionOptions where
  settings : List (Text × Text)
  deriving DecidableEq

/-- What a reconnect predicate answers. -/
inductive ReconnectAnswer
  | bool (b : Bool)
  | one
  | two
  deriving DecidableEq

/-- A retry strategy maps the attempt number to a delay, or to no retry. -/
abbrev RetryStrategy := Nat → Option JsNumber

/-- A reconnect predicate reads the message of a connection error. -/
abbrev ReconnectOnError := Text → ReconnectAnswer

/-- IP stack family. -/
inductive IpFamily
  | v4
  | v6
  deriving DecidableEq

/-- `BymaxCacheStandaloneConnection`. -/
structure StandaloneConnection where
  url : Option Text := none
  host : Option Text := none
  port : Option JsNumber := none
  password : Option Text := none
  db : Option JsNumber := none
  username : Option Text := none
  tls : Option TlsConnectionOptions := none
  lazyConnect : Option Bool := none
  connectTimeout : Option JsNumber := none
  commandTimeout : Option JsNumber := none
  maxRetriesPerRequest : Option JsNumber := none
  enableReadyCheck : Option Bool := none
  enableOfflineQueue : Option Bool := none
  retryStrategy : Option RetryStrategy := none
  reconnectOnError : Option ReconnectOnError := none
  keepAlive : Option JsNumber := none
  noDelay : Option Bool := none
  family : Option IpFamily := none

/-- A host and port. -/
structure Endpoint where
  host : Text
  port : JsNumber
  deriving DecidableEq

/-- The role asked of a sentinel. -/
inductive SentinelRole
  | master
  | replica
  | slave
  deriving DecidableEq

/-- `BymaxCacheSentinelConnection`. -/
structure SentinelConnection where
  sentinels : Option (List Endpoint) := none
  name : Option Text := none
  sentinelPassword : Option Text := none
  password : Option Text := none
  role : Option SentinelRole := none
  natMap : Option (List (Text × Endpoint)) := none

/-- The driver options a cluster hands to each of its nodes. -/
structure NodeRedisOptions where
  connectTimeout : Option JsNumber := none
  commandTimeout : Option JsNumber := none
  maxRetriesPerRequest : Option JsNumber := none

/-- The cluster options of the driver. -/
structure ClusterOptions where
  enableOfflineQueue : Option Bool := none
  redisOptions : Option NodeRedisOptions := none

/-- `BymaxCacheClusterConnection`. -/
structure ClusterConnection where
  nodes : Option (List Endpoint) := none
  options : Option ClusterOptions := none

/-- A Lua script registered at module wiring. -/
structure ScriptDefinition where
  name : Text
  lua : Text
  deriving DecidableEq

/-- `BymaxCacheModuleOptions`, as the consumer wrote them. -/
structure BymaxCacheModuleOptions where
  mode : Option CacheMode := none
  connection : Option StandaloneConnection := none
  sentinel : Option SentinelConnection := none
  cluster : Option ClusterConnection := none
  nameSpace : Option Text := none
  keySeparator : Option Text := none
  shutdownTimeoutMs : Option JsNumber := none
  allowFlushInProduction : Option Bool := none
  isGlobal : Option Bool := none
  scripts : Option (List ScriptDefinition) := none

/-- `ResolvedOptions`: every defaulted field is present. -/
structure ResolvedOptions where
  mode : CacheMode
  connection : Option StandaloneConnection
  sentinel : Option SentinelConnection
  cluster : Option ClusterConnection
  nameSpace : Text
  keySeparator : Text
  shutdownTimeoutMs : JsNumber
  allowFlushInProduction : Bool
  isGlobal : Bool
  scripts : Option (List ScriptDefinition)

/-- The option record of the Redis client.  Every field is optional, as in the
partial record the URL parser returns. -/
structure RedisOptions where
  lazyConnect : Option Bool := none
  connectTimeout : Option JsNumber := none
  commandTimeout : Option JsNumber := none
  maxRetriesPerRequest : Option JsNumber := none
  enableReadyCheck : Option Bool := none
  enableOfflineQueue : Option Bool := none
  retryStrategy : Option RetryStrategy := none
  reconnectOnError : Option ReconnectOnError := none
  keepAlive : Option JsNumber := none
  noDelay : Option Bool := none
  family : Option IpFamily := none
  host : Option Text := none
  port : Option JsNumber := none
  password : Option Text := none
  db : Option JsNumber := none
  username : Option Text := none
  tls : Option TlsConnectionOptions := none
  sentinels : Option (List Endpoint) := none
  name : Option Text := none
  sentinelPassword : Option Text := none
  role : Option SentinelRole := none
  natMap : Option (List (Text × Endpoint)) := none

/-- Object spread `{...first, ...last}`: a field of `last` wins when
present. -/
def RedisOptions.spread (first last : RedisOptions) : RedisOptions where
  lazyConnect := last.lazyConnect.or first.lazyConnect
  connectTimeout := last.connectTimeout.or first.connectTimeout
  commandTimeout := last.commandTimeout.or first.commandTimeout
  maxRetriesPerRequest := last.maxRetriesPerRequest.or first.maxRetriesPerRequest
  enableReadyCheck := last.enableReadyCheck.or first.enableReadyCheck
  enableOfflineQueue := last.enableOfflineQueue.or first.enableOfflineQueue
  retryStrategy := last.retryStrategy.or first.retryStrategy
  reconnectOnError := last.reconnectOnError.or first.reconnectOnError
  keepAlive := last.keepAlive.or first.keepAlive
  noDelay := last.noDelay.or first.noDelay
  family := last.family.or first.family
  host := last.host.or first.host
  port := last.port.or first.port
  password := last.password.or first.password
  db := last.db.or first.db
  username := last.username.or first.username
  tls := last.tls.or first.tls
  sentinels := last.sentinels.or first.sentinels
  name := last.name.or first.name
  sentinelPassword := last.sentinelPassword.or first.sentinelPassword
  role := last.role.or first.role
  natMap := last.natMap.or first.natMap

/-- Default global namespace. -/
def DEFAULT_NAMESPACE : Text := "app".toList

/-- Default separator between namespace, prefix and id segments. -/
def DEFAULT_KEY_SEPARATOR : Text := ":".toList

/-- The port Redis listens on when a connection URL does not name one. -/
def DEFAULT_REDIS_PORT : JsNumber := 6379

def DEFAULT_CONNECT_TIMEOUT_MS : JsNumber := 10000
def DEFAULT_COMMAND_TIMEOUT_MS : JsNumber := 5000
def DEFAULT_SHUTDOWN_TIMEOUT_MS : JsNumber := 5000
def DEFAULT_MAX_RETRIES_PER_REQUEST : JsNumber := 3
def DEFAULT_RETRY_BASE_MS : Nat := 50
def DEFAULT_RETRY_MAX_MS : Nat := 2000
def MIN_SHUTDOWN_TIMEOUT_MS : JsNumber := 100
def MIN_CONNECT_TIMEOUT_MS : JsNumber := 100

end NestCache
