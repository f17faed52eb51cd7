import NestCache.ScopePatterns

/-!
# Administration options

The thresholds of the administration surface, validated and defaulted once at
wiring.  A resolved threshold is a positive integer by construction.
-/

namespace NestCache

/-- A positive integer, as `requirePositiveInteger` leaves it. -/
structure PositiveInteger where
  value : Nat
  pos : 0 < value
  deriving DecidableEq

/-- `BymaxCacheAdminModuleOptions`, as the consumer wrote them. -/
structure BymaxCacheAdminModuleOptions where
  scopes : List CacheScope
  degradedAboveMs : Option JsNumber := none
  probeTimeoutMs : Option JsNumber := none
  scanLimit : Option JsNumber := none
  commandBatchLimit : Option JsNumber := none
  revealLimit : Option JsNumber := none
  revealStringLimit : Option JsNumber := none
  isGlobal : Option Bool := none

/-- `ResolvedAdminOptions`. -/
structure ResolvedAdminOptions where
  scopes : List CacheScope
  degradedAboveMs : PositiveInteger
  probeTimeoutMs : PositiveInteger
  scanLimit : PositiveInteger
  commandBatchLimit : PositiveInteger
  revealLimit : PositiveInteger
  revealStringLimit : PositiveInteger
  isGlobal : Bool

def DEFAULT_DEGRADED_ABOVE_MS : JsNumber := 250
def DEFAULT_PROBE_TIMEOUT_MS : JsNumber := 2000
def DEFAULT_SCAN_LIMIT : JsNumber := 500
def DEFAULT_COMMAND_BATCH_LIMIT : JsNumber := 100
def DEFAULT_REVEAL_LIMIT : JsNumber := 200
def DEFAULT_REVEAL_STRING_LIMIT : JsNumber := 4096

/-- The positive integer a number is, if it is one. -/
def JsNumber.positiveInteger? : JsNumber → Option PositiveInteger
  | finite q =>
      if h : q.den = 1 ∧ 0 < q.num then some ⟨q.num.toNat, by omega⟩ else none
  | _ => none

/-- Rejects a threshold that is not a positive integer. -/
def requirePositiveInteger (option : String) (value : JsNumber) :
    Except Thrown PositiveInteger :=
  match value.positiveInteger? with
  | some n => .ok n
  | none =>
      throwCache .INVALID_SCOPE
        [detail "reason" "threshold must be positive", detail "option" option,
          ("value", .number value)]

/-- Merges administration options with defaults and validates them. -/
def resolveAdminOptions (options : BymaxCacheAdminModuleOptions) :
    Except Thrown ResolvedAdminOptions := do
  let scopes ← validateScopes options.scopes
  let degradedAboveMs ← requirePositiveInteger "degradedAboveMs"
    (options.degradedAboveMs.getD DEFAULT_DEGRADED_ABOVE_MS)
  let probeTimeoutMs ← requirePositiveInteger "probeTimeoutMs"
    (options.probeTimeoutMs.getD DEFAULT_PROBE_TIMEOUT_MS)
  let scanLimit ← requirePositiveInteger "scanLimit"
    (options.scanLimit.getD DEFAULT_SCAN_LIMIT)
  let commandBatchLimit ← requirePositiveInteger "commandBatchLimit"
    (options.commandBatchLimit.getD DEFAULT_COMMAND_BATCH_LIMIT)
  let revealLimit ← requirePositiveInteger "revealLimit"
    (options.revealLimit.getD DEFAULT_REVEAL_LIMIT)
  let revealStringLimit ← requirePositiveInteger "revealStringLimit"
    (options.revealStringLimit.getD DEFAULT_REVEAL_STRING_LIMIT)
  return {
    scopes, degradedAboveMs, probeTimeoutMs, scanLimit, commandBatchLimit, revealLimit,
    revealStringLimit
    isGlobal := options.isGlobal.getD false }

end NestCache
