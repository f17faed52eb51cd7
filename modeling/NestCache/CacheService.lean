import NestCache.CacheClient
import NestCache.NamespaceFlush
import NestCache.ScriptManager
import NestCache.Serializer

/-!
# The cache service

Every method composes its key, checks and encodes its arguments, fetches the
client and sends its command, each in its own order; the reply is decoded.  A
list is spread into the arguments of its command, which throws before anything is
sent when the engine does not take so many.  A method is a dialogue whose
commands are those of the keys, of the scripts, of a flush and of the server as a
whole.  `PubSubService.publish` and a direct call of the script manager are calls
of the same kind.
-/

namespace NestCache

/-! ## Time to live -/

/-- Smallest TTL, in seconds, that `SET ... EX` accepts. -/
def MIN_WRITE_TTL_SECONDS : JsNumber := 1

/-- `Number.MAX_SAFE_INTEGER`. -/
def MAX_SAFE_INTEGER : Nat := 9007199254740991

/-- `Number.isSafeInteger`. -/
def JsNumber.isSafeInteger : JsNumber → Bool
  | .finite q => q.den = 1 && q.num.natAbs ≤ MAX_SAFE_INTEGER
  | _ => false

/-- Throws unless the TTL is a safe integer that reaches the minimum, if
any. -/
def assertTtlSeconds (ttlSeconds : JsNumber) (minimum : Option JsNumber) : Except Thrown Unit :=
  if !ttlSeconds.isSafeInteger then
    throwCache .INVALID_TTL [detail "reason" "not_a_safe_integer"]
  else match minimum with
    | none => .ok ()
    | some least =>
        if ttlSeconds.lt least then
          throwCache .INVALID_TTL [detail "reason" "below_minimum", ("minimum", .number least)]
        else .ok ()

/-! ## Commands -/

/-- The commands that name keys.  `mset` takes keys and values in turn. -/
inductive KeyCommand
  | get (key : Text)
  | set (key : Text) (raw : Payload) (ex : Option JsNumber) (nx : Bool)
  | del (keys : List Text)
  | existsKey (key : Text)
  | incr (key : Text)
  | incrby (key : Text) (step : JsNumber)
  | decr (key : Text)
  | decrby (key : Text) (step : JsNumber)
  | expire (key : Text) (ttlSeconds : JsNumber)
  | ttl (key : Text)
  | persist (key : Text)
  | mget (keys : List Text)
  | mset (pairs : List Payload)
  | hget (key field : Text)
  | hset (key field : Text) (raw : Payload)
  | hgetall (key : Text)
  | hdel (key : Text) (fields : List Text)
  | sadd (key : Text) (members : List Text)
  | srem (key : Text) (members : List Text)
  | smembers (key : Text)
  | sismember (key member : Text)
  | scard (key : Text)
  deriving DecidableEq

/-- Their replies.  `hgetall` fills its record in the order given here. -/
abbrev KeyReply : KeyCommand → Type
  | .get _ | .hget _ _ => Option Text
  | .set _ _ _ _ => Option Text
  | .mget _ => List (Option Text)
  | .mset _ => Text
  | .hgetall _ => List (Text × Text)
  | .smembers _ => List Text
  | _ => Int

/-- The commands of a call of the service. -/
inductive ServiceCommand
  | key (c : KeyCommand)
  | script (c : ScriptCommand)
  | flush (c : FlushCommand)
  | keys (pattern : Text)
  | scanStream (pattern : Text) (count : JsNumber)
  | ping
  | info (sectionName : Option Text)
  | publish (channel : Text) (raw : Payload)
  deriving DecidableEq

/-- Their replies; a script returns a value of type `V`. -/
abbrev ServiceReply (V : Type) : ServiceCommand → Type
  | .key c => Except Reason (KeyReply c)
  | .script c => ScriptReply V c
  | .flush (.scanStream _ _) => Except Reason (List (List Text))
  | .flush (.unlink _) => Except Reason Nat
  | .keys _ => Except Reason (List Text)
  | .scanStream _ _ => Except Reason (List (List Text))
  | .ping => Except Reason Text
  | .info _ => Except Reason Text
  | .publish _ _ => Except Reason Int

/-- A call of the service. -/
abbrev ServiceDialogue (V : Type) := Dialogue ServiceCommand (ServiceReply V) Thrown

/-- Await a command on keys. -/
def onKeys {V : Type} (c : KeyCommand) : ServiceDialogue V (KeyReply c) :=
  .request (.key c) awaitReply

/-- A flush among the commands of the service. -/
def flushCommands {V α : Type} : FlushDialogue α → ServiceDialogue V α :=
  Dialogue.mapCommands .flush fun
    | .scanStream _ _ => awaitReply
    | .unlink _ => awaitReply

/-- A script call among the commands of the service. -/
def scriptCommands {V α : Type} : ScriptDialogue V α → ServiceDialogue V α :=
  Dialogue.mapCommands .script fun _ reply => reply

/-! ## The service -/

/-- SCAN batch hint of `scan`. -/
def SCAN_COUNT : JsNumber := 100

/-- The script manager as the services find it. -/
structure ScriptRegistry where
  options : ResolvedOptions
  connection : ConnectionStatus

/-- `ScriptManagerService.eval` on this manager. -/
def ScriptRegistry.eval {V : Type} (manager : ScriptRegistry) (name : Text) (keys : List Text)
    (args : List ScriptArgument) : ServiceDialogue V V :=
  scriptCommands (ScriptManagerService.eval manager.connection manager.options.mode name keys args)

/-- The fields of the service, the environment variable it reads, the number
of arguments that the engine takes in one call, and the connection manager as
a call finds it. -/
structure CacheService (T : Type) where
  options : ResolvedOptions
  connection : ConnectionStatus
  keyBuilder : KeyBuilder
  serializer : Serializer T
  scriptRegistry : Option ScriptRegistry
  nodeEnv : Option Text
  argumentLimit : Nat

namespace CacheService

variable {T V : Type}

/-- The constructor. -/
def construct (options : ResolvedOptions) (connection : ConnectionStatus) (keyBuilder : KeyBuilder)
    (configured injectedSerializer : Option (Serializer T)) (json : JsonRuntime T)
    (scriptRegistry : Option ScriptRegistry) (nodeEnv : Option Text) (argumentLimit : Nat) :
    CacheService T where
  options := options
  connection := connection
  keyBuilder := keyBuilder
  serializer := resolveSerializer configured injectedSerializer json
  scriptRegistry := scriptRegistry
  nodeEnv := nodeEnv
  argumentLimit := argumentLimit

variable (service : CacheService T)

/-- `this.keyBuilder.build(prefix, id)`. -/
def build (keyPrefix id : Text) : ServiceDialogue V Text :=
  .ofExcept (service.keyBuilder.build keyPrefix id)

/-- `this.connection.getClient()`. -/
def client : ServiceDialogue V ClientKind := .ofExcept service.connection.getClient

/-- The arguments of a command that spreads a list, `client.del(...keys)`. -/
def spread {α : Type} (items : List α) : ServiceDialogue V (List α) :=
  .ofExcept (spreadArguments service.argumentLimit items)

/-- A list that fits is spread. -/
theorem spread_fits {α : Type} {items : List α} (h : items.length ≤ service.argumentLimit) :
    (service.spread items : ServiceDialogue V _) = .done items := by
  rw [spread, spreadArguments_ok h]
  rfl

/-- A list that does not fit throws. -/
theorem spread_overflows {α : Type} {items : List α} (h : service.argumentLimit < items.length) :
    (service.spread items : ServiceDialogue V _) = .fail argumentRangeError := by
  rw [spread, spreadArguments_error h]
  rfl

/-- A decoded reply, or `null`. -/
def decode (raw : Option Text) : Except Thrown (Option T) :=
  match raw with
  | none => .ok none
  | some raw => (service.serializer.deserialize raw).map some

/-! ### Values -/

def get (keyPrefix id : Text) : ServiceDialogue V (Option T) := do
  let key ← service.build keyPrefix id
  let _ ← service.client
  let raw ← onKeys (.get key)
  .ofExcept (service.decode raw)

def getRaw (keyPrefix id : Text) : ServiceDialogue V (Option Text) := do
  let _ ← service.client
  let key ← service.build keyPrefix id
  onKeys (.get key)

/-- The write behind `set` and `setRaw`. -/
def write (key : Text) (raw : Payload) (ttlSeconds : Option JsNumber) :
    ServiceDialogue V Unit :=
  match ttlSeconds with
  | some ttl => do
      .ofExcept (assertTtlSeconds ttl (some MIN_WRITE_TTL_SECONDS))
      let _ ← service.client
      let _ ← onKeys (.set key raw (some ttl) false)
      return ()
  | none => do
      let _ ← service.client
      let _ ← onKeys (.set key raw none false)
      return ()

def set (keyPrefix id : Text) (value : T) (ttlSeconds : Option JsNumber) :
    ServiceDialogue V Unit := do
  let key ← service.build keyPrefix id
  let raw ← .ofExcept (service.serializer.serialize value)
  service.write key raw ttlSeconds

def setRaw (keyPrefix id value : Text) (ttlSeconds : Option JsNumber) :
    ServiceDialogue V Unit := do
  let key ← service.build keyPrefix id
  service.write key (some value) ttlSeconds

def setNx (keyPrefix id : Text) (value : T) (ttlSeconds : Option JsNumber) :
    ServiceDialogue V Bool := do
  let key ← service.build keyPrefix id
  let raw ← .ofExcept (service.serializer.serialize value)
  .ofExcept (match ttlSeconds with
    | some ttl => assertTtlSeconds ttl (some MIN_WRITE_TTL_SECONDS)
    | none => .ok ())
  let _ ← service.client
  let result ← onKeys (.set key raw ttlSeconds true)
  return result == some "OK".toList

def del (keyPrefix id : Text) : ServiceDialogue V Int := do
  let _ ← service.client
  let key ← service.build keyPrefix id
  onKeys (.del [key])

def delMany (keyPrefix : Text) (ids : List Text) : ServiceDialogue V Int :=
  if ids.length = 0 then return 0
  else do
    let keys ← .ofExcept (ids.mapM (service.keyBuilder.build keyPrefix))
    let _ ← service.client
    let arguments ← service.spread keys
    onKeys (.del arguments)

def existsKey (keyPrefix id : Text) : ServiceDialogue V Bool := do
  let _ ← service.client
  let key ← service.build keyPrefix id
  let count ← onKeys (.existsKey key)
  return count > 0

/-! ### Counters and expiration -/

def incr (keyPrefix id : Text) (step : JsNumber := 1) : ServiceDialogue V Int := do
  let key ← service.build keyPrefix id
  let _ ← service.client
  if step = 1 then onKeys (.incr key) else onKeys (.incrby key step)

def decr (keyPrefix id : Text) (step : JsNumber := 1) : ServiceDialogue V Int := do
  let key ← service.build keyPrefix id
  let _ ← service.client
  if step = 1 then onKeys (.decr key) else onKeys (.decrby key step)

def expire (keyPrefix id : Text) (ttlSeconds : JsNumber) : ServiceDialogue V Bool := do
  .ofExcept (assertTtlSeconds ttlSeconds none)
  let _ ← service.client
  let key ← service.build keyPrefix id
  let result ← onKeys (.expire key ttlSeconds)
  return result == 1

def ttl (keyPrefix id : Text) : ServiceDialogue V Int := do
  let _ ← service.client
  let key ← service.build keyPrefix id
  onKeys (.ttl key)

def persist (keyPrefix id : Text) : ServiceDialogue V Bool := do
  let _ ← service.client
  let key ← service.build keyPrefix id
  let result ← onKeys (.persist key)
  return result == 1

/-! ### Batches -/

def mget (keyPrefix : Text) (ids : List Text) : ServiceDialogue V (List (Option T)) :=
  if ids.length = 0 then return []
  else do
    let keys ← .ofExcept (ids.mapM (service.keyBuilder.build keyPrefix))
    let _ ← service.client
    let arguments ← service.spread keys
    let values ← onKeys (.mget arguments)
    .ofExcept (values.mapM service.decode)

/-- The loop that fills `pairs`. -/
def msetPairs (keyPrefix : Text) : List (Text × T) → Except Thrown (List Payload)
  | [] => .ok []
  | (id, value) :: rest => do
      let key ← service.keyBuilder.build keyPrefix id
      let raw ← service.serializer.serialize value
      let pairs ← msetPairs keyPrefix rest
      return some key :: raw :: pairs

def mset (keyPrefix : Text) (entries : List (Text × T)) : ServiceDialogue V Unit :=
  if entries.length = 0 then return ()
  else do
    let pairs ← .ofExcept (service.msetPairs keyPrefix entries)
    let _ ← service.client
    let arguments ← service.spread pairs
    let _ ← onKeys (.mset arguments)
    return ()

/-! ### Hashes -/

def hget (keyPrefix id field : Text) : ServiceDialogue V (Option T) := do
  let key ← service.build keyPrefix id
  let _ ← service.client
  let raw ← onKeys (.hget key field)
  .ofExcept (service.decode raw)

def hset (keyPrefix id field : Text) (value : T) : ServiceDialogue V Int := do
  let key ← service.build keyPrefix id
  let _ ← service.client
  let raw ← .ofExcept (service.serializer.serialize value)
  onKeys (.hset key field raw)

/-- Decode the value of an entry. -/
def decodeEntry (entry : Text × Text) : Except Thrown (Text × T) :=
  (service.serializer.deserialize entry.2).map fun value => (entry.1, value)

def hgetall (keyPrefix id : Text) : ServiceDialogue V (List (Text × T)) := do
  let key ← service.build keyPrefix id
  let _ ← service.client
  let all ← onKeys (.hgetall key)
  .ofExcept ((objectEntries all).mapM service.decodeEntry)

def hdel (keyPrefix id : Text) (fields : List Text) : ServiceDialogue V Int :=
  if fields.length = 0 then return 0
  else do
    let key ← service.build keyPrefix id
    let _ ← service.client
    let _ ← service.spread (key :: fields)
    onKeys (.hdel key fields)

/-! ### Sets -/

def sadd (keyPrefix id : Text) (members : List Text) : ServiceDialogue V Int :=
  if members.length = 0 then return 0
  else do
    let _ ← service.client
    let key ← service.build keyPrefix id
    let _ ← service.spread (key :: members)
    onKeys (.sadd key members)

def srem (keyPrefix id : Text) (members : List Text) : ServiceDialogue V Int :=
  if members.length = 0 then return 0
  else do
    let _ ← service.client
    let key ← service.build keyPrefix id
    let _ ← service.spread (key :: members)
    onKeys (.srem key members)

def smembers (keyPrefix id : Text) : ServiceDialogue V (List Text) := do
  let _ ← service.client
  let key ← service.build keyPrefix id
  onKeys (.smembers key)

def sismember (keyPrefix id member : Text) : ServiceDialogue V Bool := do
  let _ ← service.client
  let key ← service.build keyPrefix id
  let result ← onKeys (.sismember key member)
  return result == 1

def scard (keyPrefix id : Text) : ServiceDialogue V Int := do
  let _ ← service.client
  let key ← service.build keyPrefix id
  onKeys (.scard key)

/-! ### Iteration and escape hatches -/

/-- The client of an operation that a cluster does not support. -/
def scannableClient (operation : String) : ServiceDialogue V ClientKind := do
  let client ← service.client
  if isScannableClient client then return client
  else throw (.cache ⟨.UNSUPPORTED_IN_CLUSTER, some [detail "operation" operation]⟩)

def keys (keyPrefix pattern : Text) : ServiceDialogue V (List Text) := do
  let fullPattern ← service.build keyPrefix pattern
  let _ ← service.scannableClient "keys"
  .request (.keys fullPattern) awaitReply

/-- The keys that the iteration yields. -/
def scan (keyPrefix pattern : Text) (count : JsNumber := SCAN_COUNT) :
    ServiceDialogue V (List Text) := do
  let fullPattern ← service.build keyPrefix pattern
  let _ ← service.scannableClient "scan"
  let chunks ← .request (.scanStream fullPattern count) awaitReply
  return chunks.flatten

def pipeline : ServiceDialogue V ClientKind := service.client

def getClient : ServiceDialogue V ClientKind :=
  .ofExcept (cacheServiceGetClient service.connection)

def flushNamespace : ServiceDialogue V Nat :=
  flushCommands (NestCache.flushNamespace service.nodeEnv service.options
    service.connection.getClient)

/-! ### Scripts, health and messages -/

def eval (scriptName : Text) (keys : List Text) (args : List ScriptArgument) :
    ServiceDialogue V V :=
  match service.scriptRegistry with
  | none => throw (.cache ⟨.SCRIPT_REGISTRY_MISSING, none⟩)
  | some manager => do
      let namespacedKeys ← .ofExcept (keys.mapM service.keyBuilder.applyNamespace)
      manager.eval scriptName namespacedKeys args

def ping : ServiceDialogue V Text := do
  let _ ← service.client
  .request .ping awaitReply

def isHealthy : ServiceDialogue V Bool :=
  tryCatch (do
    let pong ← service.ping
    return pong == "PONG".toList) fun _ => return false

def info (sectionName : Option Text) : ServiceDialogue V Text := do
  let _ ← service.client
  .request (.info sectionName) awaitReply

/-- `PubSubService.publish`, on a service with the same dependencies. -/
def publish (channel : Text) (message : T) : ServiceDialogue V Int := do
  let fullChannel ← .ofExcept (service.keyBuilder.applyNamespace channel)
  let raw ← .ofExcept (service.serializer.serialize message)
  let _ ← service.client
  .request (.publish fullChannel raw) awaitReply

end CacheService

/-! ## Calls -/

/-- A call of an operation with its arguments. -/
inductive ServiceCall (T : Type)
  | get (keyPrefix id : Text)
  | getRaw (keyPrefix id : Text)
  | set (keyPrefix id : Text) (value : T) (ttlSeconds : Option JsNumber)
  | setRaw (keyPrefix id value : Text) (ttlSeconds : Option JsNumber)
  | setNx (keyPrefix id : Text) (value : T) (ttlSeconds : Option JsNumber)
  | del (keyPrefix id : Text)
  | delMany (keyPrefix : Text) (ids : List Text)
  | existsKey (keyPrefix id : Text)
  | incr (keyPrefix id : Text) (step : JsNumber)
  | decr (keyPrefix id : Text) (step : JsNumber)
  | expire (keyPrefix id : Text) (ttlSeconds : JsNumber)
  | ttl (keyPrefix id : Text)
  | persist (keyPrefix id : Text)
  | mget (keyPrefix : Text) (ids : List Text)
  | mset (keyPrefix : Text) (entries : List (Text × T))
  | hget (keyPrefix id field : Text)
  | hset (keyPrefix id field : Text) (value : T)
  | hgetall (keyPrefix id : Text)
  | hdel (keyPrefix id : Text) (fields : List Text)
  | sadd (keyPrefix id : Text) (members : List Text)
  | srem (keyPrefix id : Text) (members : List Text)
  | smembers (keyPrefix id : Text)
  | sismember (keyPrefix id member : Text)
  | scard (keyPrefix id : Text)
  | keys (keyPrefix pattern : Text)
  | scan (keyPrefix pattern : Text) (count : JsNumber)
  | pipeline
  | getClient
  | flushNamespace
  | eval (scriptName : Text) (keys : List Text) (args : List ScriptArgument)
  | isHealthy
  | ping
  | info (sectionName : Option Text)
  | publish (channel : Text) (message : T)

/-- What an operation resolves to. -/
inductive ServiceResult (T V : Type)
  | done
  | flag (b : Bool)
  | number (n : Int)
  | value (v : Option T)
  | values (vs : List (Option T))
  | record (entries : List (Text × T))
  | raw (t : Option Text)
  | texts (ts : List Text)
  | client (kind : ClientKind)
  | script (v : V)

/-- Make the call. -/
def CacheService.run {T V : Type} (service : CacheService T) :
    ServiceCall T → ServiceDialogue V (ServiceResult T V)
  | .get keyPrefix id => (service.get keyPrefix id).map .value
  | .getRaw keyPrefix id => (service.getRaw keyPrefix id).map .raw
  | .set keyPrefix id value ttlSeconds =>
      (service.set keyPrefix id value ttlSeconds).map fun _ => .done
  | .setRaw keyPrefix id value ttlSeconds =>
      (service.setRaw keyPrefix id value ttlSeconds).map fun _ => .done
  | .setNx keyPrefix id value ttlSeconds => (service.setNx keyPrefix id value ttlSeconds).map .flag
  | .del keyPrefix id => (service.del keyPrefix id).map .number
  | .delMany keyPrefix ids => (service.delMany keyPrefix ids).map .number
  | .existsKey keyPrefix id => (service.existsKey keyPrefix id).map .flag
  | .incr keyPrefix id step => (service.incr keyPrefix id step).map .number
  | .decr keyPrefix id step => (service.decr keyPrefix id step).map .number
  | .expire keyPrefix id ttlSeconds => (service.expire keyPrefix id ttlSeconds).map .flag
  | .ttl keyPrefix id => (service.ttl keyPrefix id).map .number
  | .persist keyPrefix id => (service.persist keyPrefix id).map .flag
  | .mget keyPrefix ids => (service.mget keyPrefix ids).map .values
  | .mset keyPrefix entries => (service.mset keyPrefix entries).map fun _ => .done
  | .hget keyPrefix id field => (service.hget keyPrefix id field).map .value
  | .hset keyPrefix id field value => (service.hset keyPrefix id field value).map .number
  | .hgetall keyPrefix id => (service.hgetall keyPrefix id).map .record
  | .hdel keyPrefix id fields => (service.hdel keyPrefix id fields).map .number
  | .sadd keyPrefix id members => (service.sadd keyPrefix id members).map .number
  | .srem keyPrefix id members => (service.srem keyPrefix id members).map .number
  | .smembers keyPrefix id => (service.smembers keyPrefix id).map .texts
  | .sismember keyPrefix id member => (service.sismember keyPrefix id member).map .flag
  | .scard keyPrefix id => (service.scard keyPrefix id).map .number
  | .keys keyPrefix pattern => (service.keys keyPrefix pattern).map .texts
  | .scan keyPrefix pattern count => (service.scan keyPrefix pattern count).map .texts
  | .pipeline => service.pipeline.map .client
  | .getClient => service.getClient.map .client
  | .flushNamespace => service.flushNamespace.map fun (removed : Nat) => .number removed
  | .eval scriptName keys args => (service.eval scriptName keys args).map .script
  | .isHealthy => service.isHealthy.map .flag
  | .ping => service.ping.map fun pong => .raw (some pong)
  | .info sectionName => (service.info sectionName).map fun text => .raw (some text)
  | .publish channel message => (service.publish channel message).map .number

/-- The process of a call: the registry answers the local commands of a script
call, Redis the rest. -/
def serviceProcess {V σ : Type} (redis : σ → (c : ServiceCommand) → σ × ServiceReply V c) :
    Registry × σ → (c : ServiceCommand) → (Registry × σ) × ServiceReply V c
  | (registry, store), .script c =>
      match registryAnswers registry c with
      | some (registry', reply) => ((registry', store), reply)
      | none => ((registry, (redis store (.script c)).1), (redis store (.script c)).2)
  | (registry, store), c => ((registry, (redis store c).1), (redis store c).2)

end NestCache
