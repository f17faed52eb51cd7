import NestCache.CacheService
import NestCache.Footprint

/-!
# The calls of the service

What the commands name, and the shape that most calls share: compositions,
checks and encodings, each of which may refuse the call, then one command on
what was composed, whose reply is decoded.  `run_single` goes through the
methods once; what holds of every program of this shape holds of all of them.
-/

namespace NestCache

/-! ## What a command names -/

/-- The keys among the flat arguments of `MSET`. -/
def msetKeys : List Payload → List Text
  | key :: _ :: rest => key.getD [] :: msetKeys rest
  | _ => []

/-- The keys a command names. -/
def KeyCommand.addressed : KeyCommand → List Text
  | .del keys | .mget keys => keys
  | .mset pairs => msetKeys pairs
  | .get key | .set key _ _ _ | .existsKey key | .incr key | .incrby key _ | .decr key
  | .decrby key _ | .expire key _ | .ttl key | .persist key | .hget key _ | .hset key _ _
  | .hgetall key | .hdel key _ | .sadd key _ | .srem key _ | .smembers key | .sismember key _
  | .scard key => [key]

/-- The keys a command of a script call names. -/
def ScriptCommand.addressed : ScriptCommand → List Text
  | .evalsha _ keys _ | .eval _ keys _ => keys
  | _ => []

/-- The keys a command reads and writes, when these are the ones it names.  A
script is taken to touch its `KEYS` only; a scan or `INFO` reads them all. -/
def ServiceCommand.footprint : ServiceCommand → Option (List Text)
  | .key c => some c.addressed
  | .script c => some c.addressed
  | .flush (.unlink batch) => some batch
  | .ping | .publish _ _ => some []
  | .flush (.scanStream _ _) | .keys _ | .scanStream _ _ | .info _ => none

/-- The channels a command names. -/
def ServiceCommand.channels : ServiceCommand → List Text
  | .publish channel _ => [channel]
  | _ => []

/-- Everything the command names starts with the namespace prefix. -/
def ServiceCommand.InNamespace (kb : KeyBuilder) (c : ServiceCommand) : Prop :=
  Within ServiceCommand.footprint kb.FlushRegion c ∧ ∀ channel ∈ c.channels, kb.FlushRegion channel

section Methods

variable {T V : Type} {kb : KeyBuilder}

open Dialogue

/-! ## Composed keys -/

/-- A key that `build` composes begins with the namespace and the separator. -/
theorem flushRegion_build {keyPrefix id key : Text} (h : kb.build keyPrefix id = .ok key) :
    kb.FlushRegion key := (KeyBuilder.Composes.build h).flushRegion

/-- So does one that `applyNamespace` composes. -/
theorem flushRegion_applyNamespace {bare key : Text} (h : kb.applyNamespace bare = .ok key) :
    kb.FlushRegion key := (KeyBuilder.Composes.applyNamespace h).flushRegion

/-- Each element of a batch is composed. -/
theorem flushRegion_mapM {f : Text → Except Thrown Text} (hf : ∀ a key, f a = .ok key →
    kb.FlushRegion key) {l keys : List Text} (h : l.mapM f = .ok keys) :
    ∀ key ∈ keys, kb.FlushRegion key := by
  have hall := mapM_eq_ok_iff.mp h
  clear h
  induction hall with
  | nil => simp
  | @cons a key l keys ha _ ih => simpa using ⟨hf a key ha, ih⟩

/-- A command on one composed key. -/
theorem addressed_one {c : KeyCommand} {key : Text} (hkey : kb.FlushRegion key)
    (hc : c.addressed = [key]) : ∀ k ∈ c.addressed, kb.FlushRegion k := by
  rw [hc]
  simpa using hkey

/-- The argument list of `mset` names composed keys. The induction is on the
entries; the keys stand at the even places. -/
theorem msetPairs_inside {service : CacheService T} {keyPrefix : Text}
    {entries : List (Text × T)} {pairs : List Payload}
    (h : service.msetPairs keyPrefix entries = .ok pairs) :
    ∀ key ∈ msetKeys pairs, service.keyBuilder.FlushRegion key := by
  induction entries generalizing pairs with
  | nil =>
      obtain rfl : [] = pairs := Except.ok.inj h
      simp [msetKeys]
  | cons entry rest ih =>
      obtain ⟨id, value⟩ := entry
      obtain ⟨key, hkey, h⟩ := ok_of_bind_ok h
      obtain ⟨raw, -, h⟩ := ok_of_bind_ok h
      obtain ⟨later, hlater, h⟩ := ok_of_bind_ok h
      obtain rfl : some key :: raw :: later = pairs := Except.ok.inj h
      simpa [msetKeys] using ⟨flushRegion_build hkey, ih hlater⟩

/-! ## Replies -/

/-- Reading a reply ends in a value, with a rejection of the server or with
what `deserialize` throws. -/
def Reads (service : CacheService T) {α : Type} (x : Except Thrown α) : Prop :=
  ∀ e, x = .error e → (∃ reason, e = .raw reason) ∨
    ∃ raw, service.serializer.deserialize raw = .error e

variable {service : CacheService T}

/-- Reading a value throws nothing. -/
theorem reads_ok {α : Type} (a : α) : Reads service (.ok a) := nofun

/-- A reply that is awaited throws only what the server rejected the
command with. -/
theorem reads_awaitReply {α : Type} (reply : Except Reason α) :
    Reads service (awaitReply reply) := by
  intro e h
  cases reply with
  | ok a => cases h
  | error reason => exact .inl ⟨reason, (Except.error.inj h).symm⟩

/-- Deserializing throws only what `deserialize` throws. -/
theorem reads_deserialize {α : Type} (raw : Text) (f : T → α) :
    Reads service ((service.serializer.deserialize raw).map f) := by
  intro e h
  refine .inr ⟨raw, ?_⟩
  cases hraw : service.serializer.deserialize raw with
  | ok value =>
      rw [hraw] at h
      cases h
  | error thrown =>
      rw [hraw] at h
      exact congrArg Except.error (Except.error.inj h)

/-- So does decoding, where nothing is read as null. -/
theorem reads_decode (raw : Option Text) : Reads service (service.decode raw) := by
  cases raw with
  | none => exact reads_ok none
  | some raw => exact reads_deserialize raw some

/-- A list is read element by element, up to the first exception. -/
theorem reads_mapM {α β : Type} {f : α → Except Thrown β} (hf : ∀ a, Reads service (f a))
    (l : List α) : Reads service (l.mapM f) := by
  intro e h
  obtain ⟨a, -, ha⟩ := exists_of_mapM_error h
  exact hf a e ha

/-- A reply that is read further. -/
theorem Reads.bind {α β : Type} {x : Except Thrown α} {f : α → Except Thrown β}
    (hx : Reads service x) (hf : ∀ a, Reads service (f a)) : Reads service (x.bind f) := by
  cases x with
  | ok a => exact hf a
  | error thrown =>
      intro e h
      exact hx e (congrArg Except.error (Except.error.inj h))

/-! ## One command -/

/-- Preparations, each of which may refuse the call, then at most one command
of the namespace. -/
inductive SingleCommand (service : CacheService T) : {α : Type} → ServiceDialogue V α → Prop
  | ofExcept {α : Type} (x : Except Thrown α) : SingleCommand service (.ofExcept x)
  | prepare {α β : Type} (x : Except Thrown β) {f : β → ServiceDialogue V α}
      (hf : ∀ b, x = .ok b → SingleCommand service (f b)) :
      SingleCommand service ((Dialogue.ofExcept x).bind f)
  | request {α : Type} {c : ServiceCommand} {read : ServiceReply V c → Except Thrown α}
      (hc : c.InNamespace service.keyBuilder) (hread : ∀ r, Reads service (read r)) :
      SingleCommand service (.request c read)
  | map {α β : Type} {p : ServiceDialogue V α} (hp : SingleCommand service p) (f : α → β) :
      SingleCommand service (p.map f)

namespace SingleCommand

/-- A call that returns at once sends no command at all. -/
theorem done {α : Type} (a : α) : SingleCommand service (.done a : ServiceDialogue V α) :=
  ofExcept (.ok a)

/-- A composed key, followed by what is right for it. -/
theorem key {α : Type} {keyPrefix id : Text} {f : Text → ServiceDialogue V α}
    (hf : ∀ key, service.keyBuilder.FlushRegion key → SingleCommand service (f key)) :
    SingleCommand service ((service.build keyPrefix id).bind f) :=
  prepare _ fun key hkey => hf key (flushRegion_build hkey)

/-- A list that is spread, followed by what is right for it. -/
theorem spread {α β : Type} {items : List β} {f : List β → ServiceDialogue V α}
    (hf : SingleCommand service (f items)) :
    SingleCommand service ((service.spread items).bind f) :=
  prepare _ fun arguments harguments => by
    obtain ⟨-, rfl⟩ := spreadArguments_eq_ok.mp harguments
    exact hf

/-- A command whose keys are composed. -/
theorem onKeys {c : KeyCommand} (hc : ∀ key ∈ c.addressed, service.keyBuilder.FlushRegion key) :
    SingleCommand service (NestCache.onKeys c : ServiceDialogue V _) :=
  request ⟨⟨c.addressed, rfl, hc⟩, by simp [ServiceCommand.channels]⟩ reads_awaitReply

/-- A command whose reply is decoded. -/
theorem onKeys_read {α : Type} {c : KeyCommand} {f : KeyReply c → Except Thrown α}
    (hc : ∀ key ∈ c.addressed, service.keyBuilder.FlushRegion key)
    (hf : ∀ r, Reads service (f r)) :
    SingleCommand service
      ((NestCache.onKeys c : ServiceDialogue V _).bind fun r => .ofExcept (f r)) := by
  rw [NestCache.onKeys, request_bind_ofExcept]
  exact request ⟨⟨c.addressed, rfl, hc⟩, by simp [ServiceCommand.channels]⟩ fun reply =>
    (reads_awaitReply reply).bind hf

/-- A command on keys of the namespace, whose reply is returned as a value. -/
theorem onKeys_done {α : Type} {c : KeyCommand}
    (hc : ∀ key ∈ c.addressed, service.keyBuilder.FlushRegion key) (f : KeyReply c → α) :
    SingleCommand service
      ((NestCache.onKeys c : ServiceDialogue V _).bind fun r => .done (f r)) :=
  onKeys_read hc fun r => reads_ok (f r)

end SingleCommand

/-! ## The methods -/

/-- The calls of that shape: all but scripts, flushes, iterations and the
questions about the server. -/
def ServiceCall.isSingle : ServiceCall T → Bool
  | .keys _ _ | .scan _ _ _ | .flushNamespace | .eval _ _ _ | .isHealthy | .info _ => false
  | _ => true

/-- `set` and `setRaw` from the TTL check on. -/
theorem write_single {key : Text} (hkey : service.keyBuilder.FlushRegion key) (raw : Payload)
    (ttlSeconds : Option JsNumber) :
    SingleCommand service (service.write key raw ttlSeconds : ServiceDialogue V Unit) := by
  have hset : ∀ ex, ∀ k ∈ (KeyCommand.set key raw ex false).addressed,
      service.keyBuilder.FlushRegion k := fun ex => addressed_one hkey rfl
  cases ttlSeconds with
  | none => exact .prepare _ fun _ _ => .onKeys_done (hset _) fun _ => ()
  | some ttl => exact .prepare _ fun _ _ => .prepare _ fun _ _ => .onKeys_done (hset _) fun _ => ()

/-- `ping` names no key. -/
theorem ping_single (service : CacheService T) :
    SingleCommand service (service.ping : ServiceDialogue V Text) :=
  .prepare _ fun _ _ => .request ⟨⟨[], rfl, by simp⟩, by simp [ServiceCommand.channels]⟩
    reads_awaitReply

/-- **Every such call** has the shape. One case for each method: its
preparations may refuse it, and behind them there is one command whose reply is
read. -/
theorem run_single (service : CacheService T) {call : ServiceCall T}
    (hsingle : call.isSingle = true) :
    SingleCommand service (service.run call : ServiceDialogue V (ServiceResult T V)) := by
  cases call with
  | get keyPrefix id =>
      refine .map (.key fun key hkey => .prepare _ fun _ _ => ?_) _
      exact .onKeys_read (addressed_one hkey rfl) reads_decode
  | getRaw keyPrefix id =>
      refine .map ?_ _
      exact .prepare _ fun _ _ => .key fun key hkey => .onKeys (addressed_one hkey rfl)
  | set keyPrefix id value ttlSeconds =>
      exact .map (.key fun key hkey => .prepare _ fun _ _ => write_single hkey _ _) _
  | setRaw keyPrefix id value ttlSeconds =>
      exact .map (.key fun key hkey => write_single hkey _ _) _
  | setNx keyPrefix id value ttlSeconds =>
      refine .map (.key fun key hkey => .prepare _ fun _ _ => .prepare _ fun _ _ =>
        .prepare _ fun _ _ => ?_) _
      exact .onKeys_done (addressed_one hkey rfl) _
  | del keyPrefix id =>
      refine .map ?_ _
      exact .prepare _ fun _ _ => .key fun key hkey => .onKeys (addressed_one hkey rfl)
  | delMany keyPrefix ids =>
      refine .map ?_ _
      unfold CacheService.delMany
      split
      · exact .done 0
      · exact .prepare _ fun keys hkeys => .prepare _ fun _ _ =>
          .spread (.onKeys (flushRegion_mapM (fun _ _ => flushRegion_build) hkeys))
  | existsKey keyPrefix id =>
      refine .map (.prepare _ fun _ _ => .key fun key hkey => ?_) _
      exact .onKeys_done (addressed_one hkey rfl) _
  | incr keyPrefix id step =>
      refine .map (.key fun key hkey => .prepare _ fun _ _ => ?_) _
      split
      · exact @SingleCommand.onKeys _ _ _ (.incr key) (addressed_one hkey rfl)
      · exact @SingleCommand.onKeys _ _ _ (.incrby key step) (addressed_one hkey rfl)
  | decr keyPrefix id step =>
      refine .map (.key fun key hkey => .prepare _ fun _ _ => ?_) _
      split
      · exact @SingleCommand.onKeys _ _ _ (.decr key) (addressed_one hkey rfl)
      · exact @SingleCommand.onKeys _ _ _ (.decrby key step) (addressed_one hkey rfl)
  | expire keyPrefix id ttlSeconds =>
      refine .map (.prepare _ fun _ _ => .prepare _ fun _ _ => .key fun key hkey => ?_) _
      exact .onKeys_done (addressed_one hkey rfl) _
  | ttl keyPrefix id =>
      refine .map ?_ _
      exact .prepare _ fun _ _ => .key fun key hkey => .onKeys (addressed_one hkey rfl)
  | persist keyPrefix id =>
      refine .map (.prepare _ fun _ _ => .key fun key hkey => ?_) _
      exact .onKeys_done (addressed_one hkey rfl) _
  | mget keyPrefix ids =>
      refine .map ?_ _
      unfold CacheService.mget
      split
      · exact .done []
      · exact .prepare _ fun keys hkeys => .prepare _ fun _ _ =>
          .spread (.onKeys_read (flushRegion_mapM (fun _ _ => flushRegion_build) hkeys)
            (reads_mapM reads_decode))
  | mset keyPrefix entries =>
      refine .map ?_ _
      unfold CacheService.mset
      split
      · exact .done ()
      · exact .prepare _ fun pairs hpairs => .prepare _ fun _ _ => .spread
          (@SingleCommand.onKeys_done _ _ _ _ (.mset pairs) (msetPairs_inside hpairs) fun _ => ())
  | hget keyPrefix id field =>
      refine .map (.key fun key hkey => .prepare _ fun _ _ => ?_) _
      exact .onKeys_read (addressed_one hkey rfl) reads_decode
  | hset keyPrefix id field value =>
      refine .map ?_ _
      exact .key fun key hkey => .prepare _ fun _ _ => .prepare _ fun _ _ =>
        .onKeys (addressed_one hkey rfl)
  | hgetall keyPrefix id =>
      refine .map (.key fun key hkey => .prepare _ fun _ _ => ?_) _
      exact .onKeys_read (addressed_one hkey rfl) fun fields =>
        reads_mapM (fun entry => reads_deserialize entry.2 _) (objectEntries fields)
  | hdel keyPrefix id fields =>
      refine .map ?_ _
      unfold CacheService.hdel
      split
      · exact .done 0
      · exact .key fun key hkey => .prepare _ fun _ _ =>
          .spread (.onKeys (addressed_one hkey rfl))
  | sadd keyPrefix id members =>
      refine .map ?_ _
      unfold CacheService.sadd
      split
      · exact .done 0
      · exact .prepare _ fun _ _ => .key fun key hkey =>
          .spread (.onKeys (addressed_one hkey rfl))
  | srem keyPrefix id members =>
      refine .map ?_ _
      unfold CacheService.srem
      split
      · exact .done 0
      · exact .prepare _ fun _ _ => .key fun key hkey =>
          .spread (.onKeys (addressed_one hkey rfl))
  | smembers keyPrefix id =>
      refine .map ?_ _
      exact .prepare _ fun _ _ => .key fun key hkey => .onKeys (addressed_one hkey rfl)
  | sismember keyPrefix id member =>
      refine .map (.prepare _ fun _ _ => .key fun key hkey => ?_) _
      exact .onKeys_done (addressed_one hkey rfl) _
  | scard keyPrefix id =>
      refine .map ?_ _
      exact .prepare _ fun _ _ => .key fun key hkey => .onKeys (addressed_one hkey rfl)
  | pipeline => exact .map (.ofExcept _) _
  | getClient => exact .map (.ofExcept _) _
  | ping => exact .map (ping_single service) _
  | publish channel message =>
      refine .map (.prepare _ fun fullChannel hchannel => .prepare _ fun _ _ =>
        .prepare _ fun _ _ => .request ⟨⟨[], rfl, by simp⟩, ?_⟩ reads_awaitReply) _
      simpa [ServiceCommand.channels] using flushRegion_applyNamespace hchannel
  | keys _ _ | scan _ _ _ | flushNamespace | eval _ _ _ | isHealthy | info _ => cases hsingle

end Methods

end NestCache
