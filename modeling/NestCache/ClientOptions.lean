import NestCache.OptionValidation

/-!
# From module options to a Redis client

The connection manager builds the driver options once, in its constructor, and
opens the client that the mode asks for on first use.  The driver's own
constructors are total, so a client is described by what they receive.

A connection URL and the discrete connection fields should combine field by
field; `fieldContract_iff` says exactly when they do.
-/

namespace NestCache

/-- Default backoff: grow 50 ms per attempt, capped at 2 s. -/
def defaultRetryStrategy : RetryStrategy := fun times =>
  some (.ofNat (min (times * DEFAULT_RETRY_BASE_MS) DEFAULT_RETRY_MAX_MS))

/-- Default reconnect policy: reconnect only on a `READONLY` replica
failover. -/
def defaultReconnectOnError : ReconnectOnError := fun message =>
  .bool (message.includes "READONLY".toList)

/-- The connection block's own fields with the library's defaults. -/
def discreteRedisOptions (c : StandaloneConnection) : RedisOptions where
  lazyConnect := some (c.lazyConnect.getD false)
  connectTimeout := some (c.connectTimeout.getD DEFAULT_CONNECT_TIMEOUT_MS)
  commandTimeout := some (c.commandTimeout.getD DEFAULT_COMMAND_TIMEOUT_MS)
  maxRetriesPerRequest := some (c.maxRetriesPerRequest.getD DEFAULT_MAX_RETRIES_PER_REQUEST)
  enableReadyCheck := some (c.enableReadyCheck.getD true)
  enableOfflineQueue := some (c.enableOfflineQueue.getD false)
  retryStrategy := some (c.retryStrategy.getD defaultRetryStrategy)
  reconnectOnError := some (c.reconnectOnError.getD defaultReconnectOnError)
  keepAlive := some (c.keepAlive.getD 0)
  noDelay := some (c.noDelay.getD true)
  family := some (c.family.getD .v4)
  host := c.host
  port := c.port
  password := c.password
  db := c.db
  username := c.username
  tls := c.tls

/-- The fields a connection URL contributes; an absent or empty URL none. -/
def fromUrl (rt : UrlRuntime) (c : StandaloneConnection) : Except Thrown RedisOptions :=
  match c.url with
  | none => .ok {}
  | some url => if url = [] then .ok {} else parseRedisUrl rt url

/-- Merges connection options with defaults; URL fields take precedence. -/
def buildRedisOptions (rt : UrlRuntime) (opts : ResolvedOptions) : Except Thrown RedisOptions := do
  let c := opts.connection.getD {}
  let fromUrl ← fromUrl rt c
  return (discreteRedisOptions c).spread fromUrl

/-- A client as the driver's constructors receive it. -/
inductive Client
  | redis (options : RedisOptions)
  | cluster (nodes : Option (List Endpoint)) (options : ClusterOptions)

/-- Instantiates the client matching the configured mode. `offlineQueue` is
the override used for a subscriber. A field of the cluster options that is
present as `undefined` counts as absent. -/
def createClient (options : ResolvedOptions) (redisOptionsResolved : RedisOptions)
    (offlineQueue : Option Bool) : Except Thrown Client :=
  let overrides : RedisOptions := { enableOfflineQueue := offlineQueue }
  match options.mode with
  | .sentinel =>
      match options.sentinel with
      | none => throwCache .SENTINEL_MISCONFIGURED [detail "mode" "sentinel"]
      | some sentinel =>
        .ok (.redis (((redisOptionsResolved.spread overrides).spread
          { sentinels := sentinel.sentinels
            name := sentinel.name
            sentinelPassword := sentinel.sentinelPassword
            password := sentinel.password
            -- the driver only knows the older name of a replica
            role := sentinel.role.map fun r => if r = .replica then .slave else r
            natMap := sentinel.natMap })))
  | .cluster =>
      match options.cluster with
      | none => throwCache .CLUSTER_MISCONFIGURED [detail "mode" "cluster"]
      | some cluster =>
        let supplied := cluster.options.getD {}
        let node := supplied.redisOptions.getD {}
        .ok (.cluster cluster.nodes
          { enableOfflineQueue := offlineQueue.or (supplied.enableOfflineQueue.or (some false))
            redisOptions := some
              { connectTimeout := node.connectTimeout.or (some DEFAULT_CONNECT_TIMEOUT_MS)
                commandTimeout := node.commandTimeout.or (some DEFAULT_COMMAND_TIMEOUT_MS)
                maxRetriesPerRequest :=
                  node.maxRetriesPerRequest.or (some DEFAULT_MAX_RETRIES_PER_REQUEST) } })
  | .standalone => .ok (.redis (redisOptionsResolved.spread overrides))

/-- Construct the connection manager and open its main client. -/
def openMainClient (rt : UrlRuntime) (options : ResolvedOptions) : Except Thrown Client := do
  let redisOptionsResolved ← buildRedisOptions rt options
  createClient options redisOptionsResolved none

/-- The connection URL that the driver options are built from, if any. -/
def connectionUrl (connection : Option StandaloneConnection) : Option Text :=
  (connection.bind (·.url)).filter (· ≠ [])

/-- In standalone mode validation parses the URL itself. So in this mode a URL
that does not parse is refused when the module is configured. -/
theorem validateMode_standalone {rt : UrlRuntime} {options : BymaxCacheModuleOptions}
    (hmode : options.mode.getD .standalone = .standalone) {url : Text}
    (hurl : connectionUrl options.connection = some url) :
    validateMode rt options = if isRedisUrl rt url then .ok () else
      throwCache .CONNECTION_FAILED [detail "reason" "invalid connection.url"] := by
  cases hconn : options.connection with
  | none => simp [connectionUrl, hconn] at hurl
  | some c =>
      simp only [connectionUrl, hconn, Option.bind_some, Option.filter_eq_some_iff,
        decide_eq_true_eq] at hurl
      obtain ⟨hc, hne⟩ := hurl
      have htruthy : isTruthy (some url) = true := by simp [isTruthy, hne]
      cases hparse : isRedisUrl rt url with
      | true =>
          obtain ⟨fields, hok⟩ := isRedisUrl_eq_true.mp hparse
          simp [validateMode, hmode, validateStandaloneConnection, hconn, htruthy, hc, hne, hok]
      | false =>
          obtain ⟨e, herr⟩ := isRedisUrl_eq_false.mp hparse
          simp [validateMode, hmode, validateStandaloneConnection, hconn, htruthy, hc, hne, herr]

/-! ## URL and discrete fields -/

/-- The port a URL carries. -/
def UrlRecord.portField (parsed : UrlRecord) : Option JsNumber :=
  if parsed.port = [] then none else some (parseInt10 parsed.port)

/-- A credential a URL carries, percent decoded. -/
def UrlRecord.credentialField (rt : UrlRuntime) (t : Text) : Option Text :=
  if t = [] then none else rt.decodeURIComponent t

/-- The database number a URL carries. -/
def UrlRecord.dbField (parsed : UrlRecord) : Option JsNumber :=
  if isDigits (parsed.pathname.drop 1) then some (parseInt10 (parsed.pathname.drop 1)) else none

/-- The driver options a URL that parses contributes. -/
def UrlRecord.fields (rt : UrlRuntime) (parsed : UrlRecord) : RedisOptions where
  host := some parsed.hostname
  port := some (parsed.portField.getD DEFAULT_REDIS_PORT)
  username := credentialField rt parsed.username
  password := credentialField rt parsed.password
  db := parsed.dbField
  tls := if parsed.protocol = "rediss:".toList then some ⟨[]⟩ else none

/-- The field-by-field contract: a component of the URL, else the discrete
field, else the default; and supplied TLS options are kept. -/
structure FieldContract (rt : UrlRuntime) (parsed : UrlRecord) (c : StandaloneConnection)
    (built : RedisOptions) : Prop where
  host : built.host = some parsed.hostname
  port : built.port = (parsed.portField.or c.port).or (some DEFAULT_REDIS_PORT)
  username : built.username = (UrlRecord.credentialField rt parsed.username).or c.username
  password : built.password = (UrlRecord.credentialField rt parsed.password).or c.password
  db : built.db = parsed.dbField.or c.db
  tls_supplied : ∀ tls, c.tls = some tls → built.tls = some tls
  tls_scheme : c.tls = none → (built.tls ≠ none ↔ parsed.protocol = "rediss:".toList)

/-- A decoded credential is the credential the URL carries. -/
theorem decodeCredential_eq_ok {rt : UrlRuntime} {t : Text} {credential : Option Text}
    (h : decodeCredential rt t = .ok credential) :
    credential = UrlRecord.credentialField rt t := by
  unfold decodeCredential at h
  unfold UrlRecord.credentialField
  by_cases ht : t = []
  · rw [if_pos ht] at h ⊢
    exact (Except.ok.inj h).symm
  · rw [if_neg ht] at h ⊢
    cases hd : rt.decodeURIComponent t with
    | none => simp [hd] at h
    | some decoded => simpa [hd] using h.symm

/-- `parseRedisUrl` returns the components the URL carries. Every failing
branch throws, so a result tells that the runtime could parse the URL. -/
theorem parseRedisUrl_eq_ok {rt : UrlRuntime} {url : Text} {fields : RedisOptions}
    (h : parseRedisUrl rt url = .ok fields) :
    ∃ parsed, rt.parse url = some parsed ∧ fields = parsed.fields rt := by
  unfold parseRedisUrl at h
  cases hparse : rt.parse url with
  | none => simp [hparse] at h
  | some parsed =>
      refine ⟨parsed, rfl, ?_⟩
      simp only [hparse] at h
      split at h
      · cases h
      · split at h
        · cases h
        · obtain ⟨username, huser, h⟩ := ok_of_bind_ok h
          obtain ⟨password, hpass, h⟩ := ok_of_bind_ok h
          obtain rfl := Except.ok.inj h
          have hport : (if parsed.port ≠ [] then parseInt10 parsed.port else DEFAULT_REDIS_PORT) =
              parsed.portField.getD DEFAULT_REDIS_PORT := by
            unfold UrlRecord.portField
            by_cases hp : parsed.port = [] <;> simp [hp]
          rw [decodeCredential_eq_ok huser, decodeCredential_eq_ok hpass, hport]
          rfl

/-- The driver options of a connection with a URL are the discrete fields
overridden by the URL's. -/
theorem buildRedisOptions_url {rt : UrlRuntime} {resolved : ResolvedOptions}
    {c : StandaloneConnection} {url : Text} {fields : RedisOptions}
    (hconn : resolved.connection = some c) (hurl : connectionUrl resolved.connection = some url)
    (hfields : parseRedisUrl rt url = .ok fields) :
    buildRedisOptions rt resolved = .ok ((discreteRedisOptions c).spread fields) := by
  simp only [hconn, connectionUrl, Option.bind_some, Option.filter_eq_some_iff,
    decide_eq_true_eq] at hurl
  simp [buildRedisOptions, hconn, fromUrl, hurl, hfields, bind, Except.bind, pure, Except.pure]

/-- The two sources combine as the contract asks exactly when the default port
of the URL and its TLS marker override nothing. -/
theorem fieldContract_spread_iff (rt : UrlRuntime) (parsed : UrlRecord)
    (c : StandaloneConnection) :
    FieldContract rt parsed c ((discreteRedisOptions c).spread (parsed.fields rt)) ↔
      (parsed.port ≠ [] ∨ c.port = none ∨ c.port = some DEFAULT_REDIS_PORT) ∧
      (parsed.protocol ≠ "rediss:".toList ∨ c.tls = none ∨ c.tls = some ⟨[]⟩) := by
  have hport : (parsed.portField.or c.port).or (some DEFAULT_REDIS_PORT) =
      some (parsed.portField.getD DEFAULT_REDIS_PORT) ↔
      parsed.port ≠ [] ∨ c.port = none ∨ c.port = some DEFAULT_REDIS_PORT := by
    unfold UrlRecord.portField
    by_cases hp : parsed.port = []
    · cases hc : c.port <;> simp [hp]
    · simp [hp]
  have htls : ((discreteRedisOptions c).spread (parsed.fields rt)).tls =
      if parsed.protocol = "rediss:".toList then some ⟨[]⟩ else c.tls := by
    unfold RedisOptions.spread UrlRecord.fields discreteRedisOptions
    by_cases hs : parsed.protocol = "rediss:".toList
    · rw [if_pos hs, if_pos hs]
      rfl
    · rw [if_neg hs, if_neg hs]
      rfl
  constructor
  · intro h
    refine ⟨hport.mp h.port.symm, ?_⟩
    by_cases hs : parsed.protocol = "rediss:".toList
    · cases hc : c.tls with
      | none => exact Or.inr (Or.inl rfl)
      | some tls =>
          have hsupplied := h.tls_supplied tls hc
          rw [htls, if_pos hs] at hsupplied
          exact Or.inr (Or.inr hsupplied.symm)
    · exact Or.inl hs
  · rintro ⟨hp, ht⟩
    refine ⟨rfl, (hport.mpr hp).symm, rfl, rfl, rfl, fun tls hc => ?_, fun hc => ?_⟩
    · rw [htls]
      by_cases hs : parsed.protocol = "rediss:".toList
      · rcases ht with ht | ht | ht
        · exact absurd hs ht
        · rw [hc] at ht
          cases ht
        · rw [if_pos hs, ← ht, hc]
      · rw [if_neg hs, hc]
    · rw [htls, hc]
      by_cases hs : parsed.protocol = "rediss:".toList
      · rw [if_pos hs]
        exact iff_of_true (Option.some_ne_none _) hs
      · rw [if_neg hs]
        exact iff_of_false (fun h => h rfl) hs

/-- **URL and discrete fields.**  For accepted standalone options with a URL,
the driver options keep the contract exactly when the URL names a port or no
other fallback port is set, and no TLS settings are supplied next to a
`rediss:` URL. -/
theorem fieldContract_iff (rt : UrlRuntime) (options : BymaxCacheModuleOptions)
    (resolved : ResolvedOptions) (c : StandaloneConnection) (url : Text)
    (haccepted : resolveOptions rt options = .ok resolved)
    (hmode : resolved.mode = .standalone) (hconn : resolved.connection = some c)
    (hurl : connectionUrl resolved.connection = some url) :
    ∃ parsed built, rt.parse url = some parsed ∧ buildRedisOptions rt resolved = .ok built ∧
      (FieldContract rt parsed c built ↔
        (parsed.port ≠ [] ∨ c.port = none ∨ c.port = some DEFAULT_REDIS_PORT) ∧
        (parsed.protocol ≠ "rediss:".toList ∨ c.tls = none ∨ c.tls = some ⟨[]⟩)) := by
  obtain ⟨hvalid, -, -, rfl⟩ := resolveOptions_eq_ok.mp haccepted
  have hparses : isRedisUrl rt url = true := by
    by_contra hparse
    rw [validateMode_standalone hmode hurl, if_neg hparse] at hvalid
    cases hvalid
  obtain ⟨fields, hfields⟩ := isRedisUrl_eq_true.mp hparses
  obtain ⟨parsed, hparsed, rfl⟩ := parseRedisUrl_eq_ok hfields
  exact ⟨parsed, _, hparsed, buildRedisOptions_url hconn hurl hfields,
    fieldContract_spread_iff rt parsed c⟩

/-- A runtime that parses `rediss://cache` and decodes nothing. -/
def cacheUrlRuntime : UrlRuntime where
  parse url := if url = "rediss://cache".toList then
    some { protocol := "rediss:".toList, hostname := "cache".toList } else none
  decodeURIComponent text := some text

/-- A TLS URL next to discrete connection fields. -/
def tlsUrlOptions (port : Option JsNumber) (tls : Option TlsConnectionOptions) :
    BymaxCacheModuleOptions :=
  { connection := some { url := some "rediss://cache".toList, port := port, tls := tls } }

/-- A TLS URL with a port, a password and a database next to it. -/
def fallbackConnection : StandaloneConnection where
  url := some "rediss://cache".toList
  port := some DEFAULT_REDIS_PORT
  password := some "secret".toList
  db := some 2

/-- What the URL lacks is taken from the fields next to it. -/
theorem fieldContract_iff_fallback :
    ∃ parsed built, cacheUrlRuntime.parse "rediss://cache".toList = some parsed ∧
      buildRedisOptions cacheUrlRuntime
        (applyDefaults { connection := some fallbackConnection }) = .ok built ∧
      FieldContract cacheUrlRuntime parsed fallbackConnection built ∧
      built.password = some "secret".toList ∧ built.db = some 2 := by
  obtain ⟨parsed, built, hparsed, hbuilt, hiff⟩ := fieldContract_iff cacheUrlRuntime
    { connection := some fallbackConnection } _ fallbackConnection _ rfl rfl rfl rfl
  have hcontract := hiff.mpr ⟨.inr (.inr rfl), .inr (.inl rfl)⟩
  obtain rfl : _ = parsed := Option.some.inj hparsed
  exact ⟨_, built, hparsed, hbuilt, hcontract, hcontract.password, hcontract.db⟩

/-- **TLS settings are dropped.**  A certificate authority supplied next to a
`rediss:` URL does not reach the driver. -/
theorem fieldContract_fails :
    ¬ ∀ (rt : UrlRuntime) (options : BymaxCacheModuleOptions) (resolved : ResolvedOptions)
        (c : StandaloneConnection) (url : Text) (parsed : UrlRecord) (built : RedisOptions),
        resolveOptions rt options = .ok resolved → resolved.mode = .standalone →
        resolved.connection = some c → connectionUrl resolved.connection = some url →
        rt.parse url = some parsed → buildRedisOptions rt resolved = .ok built →
        FieldContract rt parsed c built := by
  intro h
  have hcontract := h cacheUrlRuntime
    (tlsUrlOptions none (some ⟨[("ca".toList, "pem".toList)]⟩)) _ _ _ _ _ rfl rfl rfl rfl rfl rfl
  have htls := hcontract.tls_supplied _ rfl
  revert htls
  decide

end NestCache
