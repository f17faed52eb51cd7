import NestCache.AdminOptions
import NestCache.CacheClient
import NestCache.Dialogue

/-!
# The administration service

What is in a scope, what is a key, and what does it hold.  The service is a
dialogue with the server: it resolves the scope and the key a caller named,
then sends read commands only.  A listing is a cursor loop, so it takes the
number of `SCAN` round trips it may make and returns `none` when that runs out,
and the number of arguments that the engine takes in one call, since it pushes
whole batches.
-/

namespace NestCache

/-! ## Replies -/

/-- A raw reply, as far as the service looks at it.  `printed` is what
`String()` makes of a value that is not a string. -/
inductive RedisReply
  | null
  | text (t : Text)
  | number (n : JsNumber) (printed : Text)
  | list (elements : List RedisReply)
  | other (printed : Text)

mutual

/-- `String(reply)`. -/
def RedisReply.print : RedisReply → Text
  | .null => "null".toList
  | .text t => t
  | .number _ printed => printed
  | .list elements => printElements elements
  | .other printed => printed

/-- The elements of an array joined with commas; `null` prints as nothing. -/
def RedisReply.printElements : List RedisReply → Text
  | [] => []
  | [.null] => []
  | [element] => element.print
  | .null :: rest => ',' :: printElements rest
  | element :: rest => element.print ++ ',' :: printElements rest

end

/-- `String(elements[i])`, where an absent element is `undefined`. -/
def printAt (elements : List RedisReply) (i : Nat) : Text :=
  match elements[i]? with
  | none => "undefined".toList
  | some element => element.print

/-- One entry of a pipeline's result: an error, or a value. -/
abbrev PipelineReply := Option Reason × RedisReply

/-- The Redis data types this surface names, plus an escape hatch. -/
inductive RedisKeyType
  | string
  | hash
  | set
  | list
  | zset
  | stream
  | other
  deriving DecidableEq, Repr

/-- `KNOWN_TYPES`: the recognised type names. -/
def KNOWN_TYPES : List (Text × RedisKeyType) :=
  [("string".toList, .string), ("hash".toList, .hash), ("set".toList, .set),
    ("list".toList, .list), ("zset".toList, .zset), ("stream".toList, .stream)]

/-- How much life a key has left. -/
inductive KeyTtl
  | expiring (seconds : JsNumber)
  | persistent
  | missing
  deriving DecidableEq

/-- Narrows a `TYPE` reply to the closed union. -/
def readKeyType : RedisReply → RedisKeyType
  | .text name => (KNOWN_TYPES.lookup name).getD .other
  | _ => .other

/-- Narrows a `TTL` reply to its three distinct meanings. -/
def readKeyTtl : RedisReply → KeyTtl
  | .number (.finite q) _ =>
      if q = -1 then .persistent else if q < 0 then .missing else .expiring (.finite q)
  | _ => .missing

/-- Narrows a `MEMORY USAGE` reply. -/
def readSizeBytes : RedisReply → Option JsNumber
  | .number (.finite q) _ => some (.finite q)
  | _ => none

/-- Reads a pipeline reply slot, a per-command error as an unknown reading. -/
def replyAt (replies : Option (List PipelineReply)) (index : Nat) : RedisReply :=
  match replies.bind (·[index]?) with
  | some (none, reply) => reply
  | _ => .null

/-- The walk over a `ZRANGE ... WITHSCORES` reply. -/
structure ScoredWalk where
  members : List (Text × Text) := []
  pairCount : Nat := 0
  pendingMember : Option Text := none

/-- Count one pair and keep it while there is room. -/
def ScoredWalk.push (limit : Nat) (member score : Text) (walk : ScoredWalk) : ScoredWalk :=
  { walk with
    pairCount := walk.pairCount + 1
    members := if walk.members.length < limit then walk.members ++ [(member, score)]
      else walk.members }

/-- One element of the reply: a pair of its own, a member, or a score. -/
def ScoredWalk.next (limit : Nat) (walk : ScoredWalk) : RedisReply → ScoredWalk
  | .list pair => walk.push limit (printAt pair 0) (printAt pair 1)
  | element =>
      match walk.pendingMember with
      | none => { walk with pendingMember := some element.print }
      | some member => { walk.push limit member element.print with pendingMember := none }

/-- Reads a `ZRANGE ... WITHSCORES` reply into members and scores. -/
def readScoredMembers (reply : RedisReply) (limit : Nat) : List (Text × Text) × Bool :=
  match reply with
  | .list elements =>
      let walk := elements.foldl (ScoredWalk.next limit) {}
      (walk.members, walk.members.length == walk.pairCount)
  | _ => ([], true)

/-! ## Commands -/

/-- A command queued on a pipeline. -/
inductive PipelineCommand
  | type (key : Text)
  | ttl (key : Text)
  | memoryUsage (key : Text)
  deriving DecidableEq

/-- The Redis commands the administration surface issues.  The sorted set read
goes through `call`, whose command name and arguments are sent as they are. -/
inductive ReaderCommand
  | scan (cursor pattern : Text) (count : Nat)
  | pipeline (commands : List PipelineCommand)
  | type (key : Text)
  | ttl (key : Text)
  | get (key : Text)
  | hgetall (key : Text)
  | smembers (key : Text)
  | lrange (key : Text) (start stop : Nat)
  | zrangeWithScores (key : Text) (start stop : Nat)
  deriving DecidableEq

/-- What each command is answered; a rejected command is a `Reason`. -/
def ReaderReply : ReaderCommand → Type
  | .scan _ _ _ => Except Reason (Text × List Text)
  | .pipeline _ => Except Reason (Option (List PipelineReply))
  | .type _ => Except Reason Text
  | .ttl _ => Except Reason RedisReply
  | .get _ => Except Reason (Option Text)
  | .hgetall _ => Except Reason (List (Text × Text))
  | .smembers _ => Except Reason (List Text)
  | .lrange _ _ _ => Except Reason (List Text)
  | .zrangeWithScores _ _ _ => Except Reason RedisReply

/-- The key whose value a command reads. -/
def ReaderCommand.readsValueOf : ReaderCommand → Option Text
  | scan _ _ _ => none
  | pipeline _ => none
  | type _ => none
  | ttl _ => none
  | get key => some key
  | hgetall key => some key
  | smembers key => some key
  | lrange key _ _ => some key
  | zrangeWithScores key _ _ => some key

/-- A dialogue of the administration service with the server. -/
abbrev ReaderDialogue := Dialogue ReaderCommand ReaderReply Thrown

/-! ## The service -/

/-- One key as it appears in a listing. -/
structure KeyEntry where
  key : Text
  type : RedisKeyType
  ttl : KeyTtl
  sizeBytes : Option JsNumber
  deriving DecidableEq

/-- One page of a keyspace listing. -/
structure KeyspacePage where
  scopeId : Text
  entries : List KeyEntry
  sampledCount : Nat
  sampledBytes : Option JsNumber
  isComplete : Bool
  scanLimit : Nat
  cursor : Option Text
  deriving DecidableEq

/-- One key, described without reading its value. -/
structure KeyDetail extends KeyEntry where
  scopeId : Text
  isReadable : Bool
  deriving DecidableEq

/-- A revealed value, shaped by the key's Redis type. A string that was cut
may end within a character, so it is given by its code units. -/
inductive RevealedValue
  | string (value : List CodeUnit) (isComplete : Bool)
  | hash (fields : List (Text × Text)) (isComplete : Bool)
  | members (members : List Text) (isComplete : Bool)
  | scored (members : List (Text × Text)) (isComplete : Bool)
  | unsupported (type : RedisKeyType)
  deriving DecidableEq

/-- The outcome of asking for a key's value. -/
inductive RevealResult
  | revealed (key : Text) (type : RedisKeyType) (value : RevealedValue)
  | withheld (key scopeId origin : Text)
  | missing (key : Text)
  deriving DecidableEq

/-- The status is `revealed`. -/
def RevealResult.isRevealed : RevealResult → Bool
  | revealed _ _ _ => true
  | withheld _ _ _ => false
  | missing _ => false

/-- The cursor Redis uses to mean "iteration finished". -/
def SCAN_END_CURSOR : Text := ['0']

/-- What `TYPE` answers for a key that does not exist. -/
def TYPE_NONE : Text := "none".toList

/-- Commands one key costs to describe without sizing. -/
def DESCRIBE_COMMANDS_PER_KEY : Nat := 2

/-- The extra `MEMORY USAGE` a sized key costs. -/
def SIZING_COMMANDS_PER_KEY : Nat := 1

/-- Options for one keyspace listing. -/
structure ListKeysOptions where
  cursor : Option Text := none
  includeSize : Option Bool := none

namespace CacheAdminService

variable (options : ResolvedAdminOptions) (connection : ConnectionStatus)

/-- Returns the declared scopes. -/
def listScopes : List CacheScope := options.scopes

/-- Resolves a scope and confirms the key belongs to it. -/
def resolve (scopeId key : Text) : Except Thrown CacheScope := do
  let scope ← findScope options.scopes scopeId
  if !isKeyInScope scope.pattern key then
    throwCache .KEY_NOT_IN_SCOPE [("scopeId", .text scope.id), ("key", .text key)]
  else return scope

/-- The commands that describe one key. -/
def describeCommands (includeSize : Bool) (key : Text) : List PipelineCommand :=
  [.type key, .ttl key] ++ if includeSize then [.memoryUsage key] else []

/-- One entry per key of a chunk, read from the chunk's replies. -/
def readChunk (includeSize : Bool) (perKey : Nat) (replies : Option (List PipelineReply))
    (chunk : List Text) : List KeyEntry :=
  chunk.mapIdx fun index key =>
    let base := index * perKey
    { key := key
      type := readKeyType (replyAt replies base)
      ttl := readKeyTtl (replyAt replies (base + 1))
      sizeBytes := if includeSize then readSizeBytes (replyAt replies (base + 2)) else none }

/-- The loop over the chunks of a page. -/
def describeChunks (includeSize : Bool) (perKey : Nat) (chunkSize : PositiveInteger)
    (keys : List Text) : ReaderDialogue (List KeyEntry) :=
  match keys with
  | [] => .done []
  | key :: rest =>
      let chunk := (key :: rest).take chunkSize.value
      let commands := (chunk.map (describeCommands includeSize)).flatten
      .send (.pipeline commands) fun reply =>
        match awaitReply reply with
        | .error e => .fail e
        | .ok replies =>
            (describeChunks includeSize perKey chunkSize
              ((key :: rest).drop chunkSize.value)).bind fun entries =>
                .done (readChunk includeSize perKey replies chunk ++ entries)
termination_by keys.length
decreasing_by
  have := chunkSize.pos
  simp only [List.length_drop, List.length_cons]
  omega

/-- Describes every key on a page, in batches bounded by command count. -/
def describeAll (keys : List Text) (includeSize : Bool) : ReaderDialogue (List KeyEntry) :=
  let perKey := DESCRIBE_COMMANDS_PER_KEY + if includeSize then SIZING_COMMANDS_PER_KEY else 0
  let chunkSize : PositiveInteger :=
    ⟨max 1 (options.commandBatchLimit.value / perKey), by omega⟩
  describeChunks includeSize perKey chunkSize keys

/-- The scan loop of a listing: at most `fuel` round trips.  A batch is pushed
with `push(...batch)`. -/
def scanLoop (argumentLimit : Nat) (pattern : Text) (limit : Nat) :
    (fuel : Nat) → (cursor : Text) → (keys : List Text) →
      ReaderDialogue (Option (Text × List Text))
  | 0, _, _ => .done none
  | fuel + 1, cursor, keys => do
      let (nextCursor, batch) ← Dialogue.request (.scan cursor pattern limit) awaitReply
      let pushed ← Dialogue.ofExcept (spreadArguments argumentLimit batch)
      if nextCursor ≠ SCAN_END_CURSOR ∧ (keys ++ pushed).length < limit then
        scanLoop argumentLimit pattern limit fuel nextCursor (keys ++ pushed)
      else return some (nextCursor, keys ++ pushed)

/-- Sums the sizes that were actually measured, exactly where the code adds
doubles. -/
def sumMeasured (entries : List KeyEntry) : JsNumber :=
  entries.foldl (fun total entry => total.add (entry.sizeBytes.getD 0)) 0

/-- Lists one page of the keys in a scope, on an engine that takes so many
arguments in a call. -/
def listKeys (argumentLimit fuel : Nat) (scopeId : Text) (listOptions : ListKeysOptions) :
    ReaderDialogue (Option KeyspacePage) := do
  let scope ← Dialogue.ofExcept (findScope options.scopes scopeId)
  let _client ← Dialogue.ofExcept (cacheServiceGetClient connection)
  let limit := options.scanLimit.value
  let scanned ← scanLoop argumentLimit scope.pattern limit fuel
    (listOptions.cursor.getD SCAN_END_CURSOR) []
  match scanned with
  | none => return none
  | some (cursor, keys) =>
    let isComplete := cursor == SCAN_END_CURSOR
    let includeSize := listOptions.includeSize == some true
    let entries ← describeAll options keys includeSize
    return some {
      scopeId := scope.id
      entries := entries
      sampledCount := entries.length
      sampledBytes := if includeSize then some (sumMeasured entries) else none
      isComplete := isComplete
      scanLimit := limit
      cursor := if isComplete then none else some cursor }

/-- Describes one key without reading its value.  Both commands are sent before
either reply is awaited. -/
def describeKey (scopeId key : Text) : ReaderDialogue KeyDetail := do
  let scope ← Dialogue.ofExcept (resolve options scopeId key)
  let _client ← Dialogue.ofExcept (cacheServiceGetClient connection)
  .send (.type key) fun type => .send (.ttl key) fun ttl => Dialogue.ofExcept do
    let type ← awaitReply type
    let ttl ← awaitReply ttl
    return {
      scopeId := scope.id
      key := key
      type := readKeyType (.text type)
      ttl := readKeyTtl ttl
      sizeBytes := none
      isReadable := scope.isReadable }

/-- Reads a value according to its Redis type, truncating to the configured
caps; `none` when the key vanished between reads. -/
def readValue (key : Text) (type : RedisKeyType) : ReaderDialogue (Option RevealedValue) :=
  let limit := options.revealLimit.value
  match type with
  | .string => do
      let value ← Dialogue.request (.get key) awaitReply
      match value with
      | none => return none
      | some value =>
        let capped := value.codeUnits.take options.revealStringLimit.value
        return some (.string capped (capped.length == value.codeUnits.length))
  | .hash => do
      let fields ← Dialogue.request (.hgetall key) awaitReply
      let all := objectEntries fields
      let kept := all.take limit
      return some (.hash kept (kept.length == all.length))
  | .set => do
      let all ← Dialogue.request (.smembers key) awaitReply
      let kept := all.take limit
      return some (.members kept (kept.length == all.length))
  | .list => do
      let all ← Dialogue.request (.lrange key 0 limit) awaitReply
      let kept := all.take limit
      return some (.members kept (kept.length == all.length))
  | .zset => do
      let reply ← Dialogue.request (.zrangeWithScores key 0 limit) awaitReply
      let (members, isComplete) := readScoredMembers reply limit
      return some (.scored members isComplete)
  | .stream => return some (.unsupported .stream)
  | .other => return some (.unsupported .other)

/-- Reads a key's value, or explains why it will not. -/
def revealValue (scopeId key : Text) : ReaderDialogue RevealResult := do
  let scope ← Dialogue.ofExcept (resolve options scopeId key)
  if !scope.isReadable then
    -- refused before any read
    return .withheld key scope.id scope.origin
  else do
    let _client ← Dialogue.ofExcept (cacheServiceGetClient connection)
    let rawType ← Dialogue.request (.type key) awaitReply
    if rawType = TYPE_NONE then return .missing key
    else do
      let type := readKeyType (.text rawType)
      let value ← readValue options key type
      match value with
      | none => return .missing key
      | some value => return .revealed key type value

end CacheAdminService

end NestCache
