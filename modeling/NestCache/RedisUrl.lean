import NestCache.ModuleOptions

/-!
# Redis connection URLs

`parseRedisUrl` turns a `redis://` or `rediss://` URL into driver options.  The
URL parser and percent decoding belong to the runtime and are parameters: both
may refuse their input, which the library sees as a thrown raw error.
-/

namespace NestCache

/-- The components of a parsed URL, each a string as the URL object has it. -/
structure UrlRecord where
  protocol : Text
  hostname : Text
  port : Text := []
  username : Text := []
  password : Text := []
  pathname : Text := []
  deriving DecidableEq

/-- The runtime's URL support.  `none` stands for a throw. -/
structure UrlRuntime where
  /-- `new URL(url)`. -/
  parse : Text → Option UrlRecord
  /-- `decodeURIComponent(text)`. -/
  decodeURIComponent : Text → Option Text

/-- A runtime that parses no URL. -/
def noUrls : UrlRuntime := ⟨fun _ => none, fun _ => none⟩

/-- Whether a character is matched by `\d`. -/
def isDigit (c : Char) : Bool := '0' ≤ c && c ≤ '9'

/-- The leading decimal digits of a string read as a number, `Number.parseInt`
on a string that starts with a digit, exact where the engine rounds; `NaN`
without any. -/
def parseInt10 (t : Text) : JsNumber :=
  match t.takeWhile isDigit with
  | [] => .nan
  | digits => .ofNat (digits.foldl (fun n c => 10 * n + (c.toNat - '0'.toNat)) 0)

/-- `/^\d+$/`. -/
def isDigits (t : Text) : Bool := !t.isEmpty && t.all isDigit

/-- What a runtime throws for a URL it cannot parse. -/
def invalidUrlError : Thrown := .raw (.error "Invalid URL".toList)

/-- What percent decoding throws. -/
def malformedUriError : Thrown := .raw (.error "URI malformed".toList)

/-- Percent decoding of a credential; an empty one is left out of the
result. -/
def decodeCredential (rt : UrlRuntime) (t : Text) : Except Thrown (Option Text) :=
  if t = [] then .ok none
  else match rt.decodeURIComponent t with
    | some decoded => .ok (some decoded)
    | none => .error malformedUriError

/-- Parses a Redis connection URL into driver options. -/
def parseRedisUrl (rt : UrlRuntime) (url : Text) : Except Thrown RedisOptions :=
  match rt.parse url with
  | none => .error invalidUrlError
  | some parsed =>
    if parsed.protocol ≠ "redis:".toList ∧ parsed.protocol ≠ "rediss:".toList then
      .error (.raw (.error ("Unsupported Redis protocol: ".toList ++ parsed.protocol)))
    else if parsed.hostname = [] then
      .error (.raw (.error "Redis URL is missing a host".toList))
    else do
      let username ← decodeCredential rt parsed.username
      let password ← decodeCredential rt parsed.password
      -- dropping the slash leaves the database segment
      let dbSegment := parsed.pathname.drop 1
      return {
        host := some parsed.hostname
        port := some (if parsed.port ≠ [] then parseInt10 parsed.port else DEFAULT_REDIS_PORT)
        username := username
        password := password
        db := if isDigits dbSegment then some (parseInt10 dbSegment) else none
        tls := if parsed.protocol = "rediss:".toList then some ⟨[]⟩ else none }

/-- The URL is one the library can turn into driver options. -/
def isRedisUrl (rt : UrlRuntime) (url : Text) : Bool :=
  match parseRedisUrl rt url with
  | .ok _ => true
  | .error _ => false

/-- The check accepts exactly what the parser does. -/
theorem isRedisUrl_eq_true {rt : UrlRuntime} {url : Text} :
    isRedisUrl rt url = true ↔ ∃ fields, parseRedisUrl rt url = .ok fields := by
  unfold isRedisUrl
  split <;> simp_all

/-- The check refuses exactly what the parser throws at. -/
theorem isRedisUrl_eq_false {rt : UrlRuntime} {url : Text} :
    isRedisUrl rt url = false ↔ ∃ e, parseRedisUrl rt url = .error e := by
  unfold isRedisUrl
  split <;> simp_all

end NestCache
