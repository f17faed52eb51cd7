import NestCache.RedisUrl
import NestCache.Glob

/-!
# Option validation and defaulting

`resolveOptions` is the one sequence every entry point runs: `validateOptions`
refuses what breaks a bootstrap invariant, `applyDefaults` fills in the rest.
The last section says what an accepted value is known to satisfy, one lemma for
each guard that later results rely on.
-/

namespace NestCache

/-- Characters the namespace must not contain. -/
def GLOB_METACHARACTERS : List Char := ['*', '?', '[', '\\']

/-- The first glob metacharacter of a namespace, if any. -/
def findGlobMetacharacter (nameSpace : Text) : Option Char :=
  nameSpace.find? (GLOB_METACHARACTERS.contains ·)

/-- A string option that is set and not empty. -/
def isTruthy (option : Option Text) : Bool :=
  match option with
  | none => false
  | some t => !t.isEmpty

/-- Validates the standalone connection block. -/
def validateStandaloneConnection (rt : UrlRuntime) (options : BymaxCacheModuleOptions) :
    Except Thrown Unit :=
  match options.connection with
  | none => missing
  | some connection =>
    if !isTruthy connection.url && !isTruthy connection.host then missing
    else match connection.url with
      | none => .ok ()
      | some url =>
        if url = [] then .ok ()
        else match parseRedisUrl rt url with
          | .ok _ => .ok ()
          -- the URL may embed credentials and is left out of the details
          | .error _ => throwCache .CONNECTION_FAILED [detail "reason" "invalid connection.url"]
where
  missing : Except Thrown Unit :=
    throwCache .CONNECTION_FAILED [detail "reason" "missing connection.url or connection.host"]

/-- Validates the namespace and the key separator. -/
def validateNamespace (nameSpace separator : Text) : Except Thrown Unit :=
  if nameSpace = [] ∨ nameSpace.trim = [] then
    throwCache .INVALID_NAMESPACE [("namespace", .text nameSpace)]
  else if separator = [] then
    throwCache .INVALID_NAMESPACE
      [detail "reason" "empty key separator", ("separator", .text separator)]
  else match findGlobMetacharacter nameSpace with
    | some metacharacter =>
        throwCache .INVALID_NAMESPACE
          [detail "reason" "namespace contains glob metacharacter",
            ("namespace", .text nameSpace), ("metacharacter", .text [metacharacter])]
    | none =>
        if nameSpace.includes separator then
          throwCache .INVALID_NAMESPACE
            [detail "reason" "namespace contains key separator",
              ("namespace", .text nameSpace), ("separator", .text separator)]
        else .ok ()

/-- The mode-specific connection checks. -/
def validateMode (rt : UrlRuntime) (options : BymaxCacheModuleOptions) : Except Thrown Unit :=
  match options.mode.getD .standalone with
  | .sentinel =>
      match options.sentinel with
      | none => misconfigured .SENTINEL_MISCONFIGURED .sentinel
      | some sentinel =>
        if (sentinel.sentinels.getD []).isEmpty || !isTruthy sentinel.name then
          misconfigured .SENTINEL_MISCONFIGURED .sentinel
        else .ok ()
  | .cluster =>
      match options.cluster with
      | none => misconfigured .CLUSTER_MISCONFIGURED .cluster
      | some cluster =>
        if (cluster.nodes.getD []).isEmpty then misconfigured .CLUSTER_MISCONFIGURED .cluster
        else .ok ()
  | .standalone => validateStandaloneConnection rt options
where
  misconfigured (code : CacheErrorCode) (mode : CacheMode) : Except Thrown Unit :=
    throwCache code [("mode", .text mode.name)]

/-- The lower bounds on the two timeouts. -/
def validateTimeouts (options : BymaxCacheModuleOptions) : Except Thrown Unit := do
  let shutdown := options.shutdownTimeoutMs.getD DEFAULT_SHUTDOWN_TIMEOUT_MS
  if shutdown.lt MIN_SHUTDOWN_TIMEOUT_MS then
    throwCache .CONNECTION_FAILED
      [detail "reason" "shutdownTimeoutMs too low", ("value", .number shutdown),
        ("min", .number MIN_SHUTDOWN_TIMEOUT_MS)]
  match options.connection.bind (·.connectTimeout) with
  | none => .ok ()
  | some connectTimeout =>
    if connectTimeout.lt MIN_CONNECT_TIMEOUT_MS then
      throwCache .CONNECTION_FAILED
        [detail "reason" "connectTimeout too low", ("value", .number connectTimeout),
          ("min", .number MIN_CONNECT_TIMEOUT_MS)]
    else .ok ()

/-- Validates consumer options at module bootstrap. -/
def validateOptions (rt : UrlRuntime) (options : BymaxCacheModuleOptions) :
    Except Thrown Unit := do
  validateMode rt options
  validateNamespace (options.nameSpace.getD DEFAULT_NAMESPACE)
    (options.keySeparator.getD DEFAULT_KEY_SEPARATOR)
  validateTimeouts options

/-- Merges consumer options with the library defaults. -/
def applyDefaults (options : BymaxCacheModuleOptions) : ResolvedOptions where
  mode := options.mode.getD .standalone
  connection := options.connection
  sentinel := options.sentinel
  cluster := options.cluster
  nameSpace := options.nameSpace.getD DEFAULT_NAMESPACE
  keySeparator := options.keySeparator.getD DEFAULT_KEY_SEPARATOR
  shutdownTimeoutMs := options.shutdownTimeoutMs.getD DEFAULT_SHUTDOWN_TIMEOUT_MS
  allowFlushInProduction := options.allowFlushInProduction.getD false
  isGlobal := options.isGlobal.getD true
  scripts := options.scripts

/-- The options of a module that only names its host. -/
def defaultOptions : ResolvedOptions :=
  applyDefaults { connection := some { host := some "localhost".toList } }

/-- Validates the consumer options and applies the defaults. -/
def resolveOptions (rt : UrlRuntime) (options : BymaxCacheModuleOptions) :
    Except Thrown ResolvedOptions := do
  validateOptions rt options
  return applyDefaults options

/-! ## What an accepted value satisfies -/

/-- Resolution is validation followed by the defaults. The checks come in this
order, mode, namespace, timeouts, and the first that fails throws. -/
theorem resolveOptions_eq_ok {rt : UrlRuntime} {options : BymaxCacheModuleOptions}
    {resolved : ResolvedOptions} :
    resolveOptions rt options = .ok resolved ↔
      validateMode rt options = .ok () ∧
      validateNamespace (applyDefaults options).nameSpace
        (applyDefaults options).keySeparator = .ok () ∧
      validateTimeouts options = .ok () ∧ resolved = applyDefaults options := by
  constructor
  · intro h
    obtain ⟨_, hvalid, hres⟩ := ok_of_bind_ok h
    obtain ⟨_, hmode, hvalid⟩ := ok_of_bind_ok hvalid
    obtain ⟨_, hns, htime⟩ := ok_of_bind_ok hvalid
    exact ⟨hmode, hns, htime, (Except.ok.inj hres).symm⟩
  · rintro ⟨hmode, hns, htime, rfl⟩
    simp only [applyDefaults] at hns
    simp [resolveOptions, validateOptions, hmode, hns, htime, pure, Except.pure, bind,
      Except.bind]

/-- An accepted namespace and separator, as the validation guarantees them. -/
structure AcceptedNamespace (nameSpace separator : Text) : Prop where
  nonempty : nameSpace ≠ []
  separator_nonempty : separator ≠ []
  no_metacharacter : ∀ c ∈ nameSpace, c ∉ GLOB_METACHARACTERS
  no_separator : ¬ separator <:+: nameSpace

/-- The namespace check accepts exactly the nonblank namespaces without a
metacharacter that do not contain the nonempty separator. -/
theorem validateNamespace_eq_ok {nameSpace separator : Text} :
    validateNamespace nameSpace separator = .ok () ↔
      AcceptedNamespace nameSpace separator ∧ nameSpace.trim ≠ [] := by
  unfold validateNamespace
  by_cases hns : nameSpace = [] ∨ nameSpace.trim = []
  · simp only [hns, if_true]
    constructor
    · intro h
      cases h
    · rintro ⟨haccepted, htrim⟩
      rcases hns with h | h
      · exact absurd h haccepted.nonempty
      · exact absurd h htrim
  · rw [if_neg hns]
    have hne := not_or.mp hns
    by_cases hsep : separator = []
    · rw [if_pos hsep]
      constructor
      · intro h
        cases h
      · rintro ⟨haccepted, -⟩
        exact absurd hsep haccepted.separator_nonempty
    · rw [if_neg hsep]
      cases hfind : findGlobMetacharacter nameSpace with
      | some metacharacter =>
          constructor
          · intro h
            cases h
          · rintro ⟨haccepted, -⟩
            have hmem := List.mem_of_find?_eq_some hfind
            have hmeta := List.find?_some hfind
            exact absurd (by simpa using hmeta) (haccepted.no_metacharacter _ hmem)
      | none =>
          have hmeta : ∀ c ∈ nameSpace, c ∉ GLOB_METACHARACTERS := by
            simpa [findGlobMetacharacter] using hfind
          by_cases hinc : separator <:+: nameSpace
          · simp only [Text.includes, hinc, decide_true, if_true]
            constructor
            · intro h
              cases h
            · rintro ⟨haccepted, -⟩
              exact absurd hinc haccepted.no_separator
          · simp only [Text.includes, hinc, decide_false, Bool.false_eq_true, if_false]
            exact ⟨fun _ => ⟨⟨hne.1, hsep, hmeta, hinc⟩, hne.2⟩, fun _ => trivial⟩

/-- Resolved options carry an accepted namespace. -/
theorem acceptedNamespace_of_resolveOptions {rt : UrlRuntime}
    {options : BymaxCacheModuleOptions} {resolved : ResolvedOptions}
    (h : resolveOptions rt options = .ok resolved) :
    AcceptedNamespace resolved.nameSpace resolved.keySeparator := by
  obtain ⟨-, hns, -, rfl⟩ := resolveOptions_eq_ok.mp h
  exact (validateNamespace_eq_ok.mp hns).1

/-- The metacharacters of the validation are the special characters of the
matcher. -/
theorem special_eq_contains (c : Char) :
    Glob.special c = GLOB_METACHARACTERS.contains c := by
  simp [Glob.special, GLOB_METACHARACTERS, Bool.or_assoc, beq_eq_decide]

end NestCache
