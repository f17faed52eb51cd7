import NestCache.ClientOptions

/-!
# The reported configuration

`config` reports how a deployment is wired with every credential withheld.  It
reads host, port and transport from the connection block by itself, next to the
connection manager's own reading of the same block;
`reportedEndpoint_matches_iff` says exactly when the two agree.
-/

namespace NestCache

/-- Host, port and whether the transport is encrypted. -/
structure CacheEndpoint where
  host : Option Text
  port : Option JsNumber
  isTls : Bool
  deriving DecidableEq

/-- `CacheConfig`. -/
structure CacheConfig where
  mode : CacheMode
  nameSpace : Text
  keySeparator : Text
  shutdownTimeoutMs : JsNumber
  isFlushAllowedInProduction : Bool
  serializer : Text
  scripts : List Text
  connection : CacheEndpoint
  deriving DecidableEq

/-- The URL scheme that means the transport is encrypted. -/
def TLS_PROTOCOL : Text := "rediss:".toList

/-- Reads a connection's endpoint without its credentials. -/
def readEndpoint (rt : UrlRuntime) (options : ResolvedOptions) : CacheEndpoint :=
  if options.mode ≠ .standalone then withheld
  else match options.connection with
    | none => withheld
    | some connection =>
      match connection.url with
      | some url =>
          match rt.parse url with
          | none => withheld
          | some parsed =>
            { host := some parsed.hostname
              port := some (if parsed.port = [] then DEFAULT_REDIS_PORT else parseInt10 parsed.port)
              isTls := decide (parsed.protocol = TLS_PROTOCOL) }
      | none =>
          { host := connection.host, port := connection.port, isTls := connection.tls.isSome }
where
  withheld : CacheEndpoint := ⟨none, none, false⟩

namespace CacheStatusService

/-- Reports how this deployment is wired; `serializer` is the constructor name
of the wired serializer. -/
def config (rt : UrlRuntime) (options : ResolvedOptions) (serializer : Text) : CacheConfig where
  mode := options.mode
  nameSpace := options.nameSpace
  keySeparator := options.keySeparator
  shutdownTimeoutMs := options.shutdownTimeoutMs
  isFlushAllowedInProduction := options.allowFlushInProduction
  serializer := serializer
  -- names only, a Lua body is not reported
  scripts := (options.scripts.getD []).map (·.name)
  connection := readEndpoint rt options

end CacheStatusService

/-- The reported endpoint is the one the client was built for. -/
structure EndpointMatches (reported : CacheEndpoint) (built : RedisOptions) : Prop where
  host : reported.host = built.host
  port : reported.port = some (built.port.getD DEFAULT_REDIS_PORT)
  isTls : reported.isTls = true ↔ built.tls ≠ none

/-- Accepted standalone options have a connection block. -/
theorem exists_connection_of_standalone {rt : UrlRuntime} {options : BymaxCacheModuleOptions}
    (hmode : options.mode.getD .standalone = .standalone)
    (hvalid : validateMode rt options = .ok ()) : ∃ c, options.connection = some c := by
  cases hconn : options.connection with
  | none =>
      simp [validateMode, hmode, validateStandaloneConnection, hconn,
        validateStandaloneConnection.missing, throwCache] at hvalid
  | some c => exact ⟨c, rfl⟩

/-- Without a URL, or with an empty one, the client gets the discrete
fields. -/
theorem buildRedisOptions_discrete {rt : UrlRuntime} {resolved : ResolvedOptions}
    {c : StandaloneConnection} (hconn : resolved.connection = some c)
    (hurl : c.url = none ∨ c.url = some []) :
    buildRedisOptions rt resolved = .ok ((discreteRedisOptions c).spread {}) := by
  rcases hurl with hurl | hurl <;>
    simp [buildRedisOptions, hconn, fromUrl, hurl, bind, Except.bind, pure, Except.pure]

/-- In standalone mode the main client is opened with the built options. -/
theorem openMainClient_standalone {rt : UrlRuntime} {resolved : ResolvedOptions}
    (hmode : resolved.mode = .standalone) {built : RedisOptions}
    (hbuilt : buildRedisOptions rt resolved = .ok built) :
    openMainClient rt resolved = .ok (.redis (built.spread {})) := by
  simp [openMainClient, hbuilt, createClient, hmode, bind, Except.bind]

/-- What is reported for discrete fields is in use exactly when a port is set:
the client falls back to the default port, the report does not. -/
theorem endpointMatches_discrete_iff (c : StandaloneConnection) :
    EndpointMatches ⟨c.host, c.port, c.tls.isSome⟩ (((discreteRedisOptions c).spread {}).spread {}) ↔
      c.port ≠ none := by
  constructor
  · intro h hport
    have hreported := h.port
    rw [hport] at hreported
    cases hreported
  · intro hport
    obtain ⟨port, hport⟩ := Option.ne_none_iff_exists'.mp hport
    refine ⟨rfl, ?_, ?_⟩
    · simp [RedisOptions.spread, discreteRedisOptions, hport]
    · cases htls : c.tls <;> simp [RedisOptions.spread, discreteRedisOptions, htls]

/-- What is reported for a URL is in use exactly when the scheme accounts for
the transport: supplied TLS options next to a plain URL do not show. -/
theorem endpointMatches_url_iff (rt : UrlRuntime) (parsed : UrlRecord) (c : StandaloneConnection) :
    EndpointMatches
        { host := some parsed.hostname
          port := some (if parsed.port = [] then DEFAULT_REDIS_PORT else parseInt10 parsed.port)
          isTls := decide (parsed.protocol = TLS_PROTOCOL) }
        (((discreteRedisOptions c).spread (parsed.fields rt)).spread {}) ↔
      parsed.protocol = TLS_PROTOCOL ∨ c.tls = none := by
  have htls : (((discreteRedisOptions c).spread (parsed.fields rt)).spread {}).tls =
      if parsed.protocol = TLS_PROTOCOL then some ⟨[]⟩ else c.tls := by
    unfold RedisOptions.spread UrlRecord.fields discreteRedisOptions TLS_PROTOCOL
    by_cases hs : parsed.protocol = "rediss:".toList
    · rw [if_pos hs, if_pos hs]
      rfl
    · rw [if_neg hs, if_neg hs]
      rfl
  constructor
  · intro h
    by_cases hs : parsed.protocol = TLS_PROTOCOL
    · exact Or.inl hs
    · right
      by_contra hsupplied
      have hreported := h.isTls
      rw [htls, if_neg hs, decide_eq_true_eq] at hreported
      exact hs (hreported.mpr hsupplied)
  · intro h
    refine ⟨rfl, ?_, ?_⟩
    · unfold RedisOptions.spread UrlRecord.fields UrlRecord.portField
      by_cases hp : parsed.port = [] <;> simp [hp]
    · rw [htls, decide_eq_true_eq]
      by_cases hs : parsed.protocol = TLS_PROTOCOL
      · simp [hs]
      · simp [hs, h.resolve_left hs]

/-- When the reported endpoint is the one in use: a URL whose scheme accounts
for the transport, or discrete fields that name a port. -/
def EndpointReadable (rt : UrlRuntime) (c : StandaloneConnection) : Prop :=
  match c.url with
  | none => c.port ≠ none
  | some url => ∃ parsed, rt.parse url = some parsed ∧
      (parsed.protocol = TLS_PROTOCOL ∨ c.tls = none)

/-- **The reported endpoint.**  For accepted standalone options, the endpoint
that `config` reports is the one the main client is opened with exactly when
the connection is a URL without TLS options next to a plain scheme, or discrete
fields with a port.  (An empty URL does not parse.) -/
theorem reportedEndpoint_matches_iff (rt : UrlRuntime) (hempty : rt.parse [] = none)
    (options : BymaxCacheModuleOptions) (resolved : ResolvedOptions)
    (haccepted : resolveOptions rt options = .ok resolved) (hmode : resolved.mode = .standalone)
    (serializer : Text) :
    ∃ c built, resolved.connection = some c ∧ openMainClient rt resolved = .ok (.redis built) ∧
      (EndpointMatches (CacheStatusService.config rt resolved serializer).connection built ↔
        EndpointReadable rt c) := by
  obtain ⟨hvalid, -, -, rfl⟩ := resolveOptions_eq_ok.mp haccepted
  obtain ⟨c, hc⟩ := exists_connection_of_standalone hmode hvalid
  have hconn : (applyDefaults options).connection = some c := hc
  have hreported : (CacheStatusService.config rt (applyDefaults options) serializer).connection =
      readEndpoint rt (applyDefaults options) := rfl
  rw [hreported]
  cases hurl : c.url with
  | none =>
      refine ⟨c, _, hconn, openMainClient_standalone hmode
        (buildRedisOptions_discrete hconn (Or.inl hurl)), ?_⟩
      simp only [readEndpoint, hmode, ne_eq, not_true_eq_false, if_false, hconn, hurl,
        EndpointReadable]
      exact endpointMatches_discrete_iff c
  | some url =>
      by_cases hne : url = []
      · -- the report takes an empty URL for one, the client does not
        subst hne
        refine ⟨c, _, hconn, openMainClient_standalone hmode
          (buildRedisOptions_discrete hconn (Or.inr hurl)), ?_⟩
        simp only [readEndpoint, hmode, ne_eq, not_true_eq_false, if_false, hconn, hurl, hempty,
          EndpointReadable]
        refine iff_of_false (fun h => ?_) (by simp)
        cases h.port
      · have hconnUrl : connectionUrl (applyDefaults options).connection = some url := by
          simp [connectionUrl, hconn, hurl, hne]
        have hparses : isRedisUrl rt url = true := by
          by_contra hparse
          rw [validateMode_standalone hmode hconnUrl, if_neg hparse] at hvalid
          cases hvalid
        obtain ⟨fields, hfields⟩ := isRedisUrl_eq_true.mp hparses
        obtain ⟨parsed, hparsed, rfl⟩ := parseRedisUrl_eq_ok hfields
        refine ⟨c, _, hconn, openMainClient_standalone hmode
          (buildRedisOptions_url hconn hconnUrl hfields), ?_⟩
        simp only [readEndpoint, hmode, ne_eq, not_true_eq_false, if_false, hconn, hurl, hparsed,
          EndpointReadable, Option.some.injEq, exists_eq_left']
        exact endpointMatches_url_iff rt parsed c

/-- A `rediss:` URL is reported as it is used. -/
theorem reportedEndpoint_matches_iff_tlsUrl :
    ∃ built, openMainClient cacheUrlRuntime (applyDefaults (tlsUrlOptions none none)) =
        .ok (.redis built) ∧
      EndpointMatches (CacheStatusService.config cacheUrlRuntime
        (applyDefaults (tlsUrlOptions none none)) "JsonSerializer".toList).connection built := by
  obtain ⟨c, built, hconn, hbuilt, hiff⟩ :=
    reportedEndpoint_matches_iff cacheUrlRuntime rfl (tlsUrlOptions none none) _ rfl rfl
      "JsonSerializer".toList
  obtain rfl := Option.some.inj hconn
  exact ⟨built, hbuilt, hiff.mpr ⟨_, rfl, .inl rfl⟩⟩

/-- **The default port is not reported.**  A module that only names its host
connects on the default port and reports none. -/
theorem reportedEndpoint_differs :
    ¬ ∀ (rt : UrlRuntime), rt.parse [] = none →
        ∀ (options : BymaxCacheModuleOptions) (resolved : ResolvedOptions) (built : RedisOptions)
          (serializer : Text), resolveOptions rt options = .ok resolved →
        resolved.mode = .standalone → openMainClient rt resolved = .ok (.redis built) →
        EndpointMatches (CacheStatusService.config rt resolved serializer).connection built := by
  intro h
  have hmatch := h noUrls rfl { connection := some { host := some "localhost".toList } } _ _
    "JsonSerializer".toList rfl rfl rfl
  cases hmatch.port

end NestCache
