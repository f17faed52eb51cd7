import NestCache.KeyUniqueness
import NestCache.Linearization
import NestCache.RedisCells

/-!
# What the cache is for

A cache of cells, one for each pair of a prefix and an id, with a clock.  The
operations of the service are described here by what they do to the cells they
are about and by what they may return; nothing is said about composed keys,
commands or connections to a server.

`CacheStep` is one operation, or the passing of time, of a cache that may refuse
an operation and whose callers may give up on one: an operation given up takes
effect once at a later moment, or never.
-/

namespace NestCache

open KeyedBatch

/-! ## Arguments -/

/-- A prefix or an id: nonempty, and free of the separator. -/
structure KeyField (separator : Char) where
  text : Text
  ne_nil : text ≠ []
  free : separator ∉ text
  deriving DecidableEq

/-- What a cell of the cache is found by. -/
structure CacheKey (separator : Char) where
  keyPrefix : KeyField separator
  id : KeyField separator
  deriving DecidableEq

/-- A time to live that a write accepts, in seconds. -/
structure Ttl where
  seconds : Nat
  pos : 0 < seconds
  safe : seconds ≤ MAX_SAFE_INTEGER

/-- An integer that a number holds exactly. -/
structure SafeInt where
  value : Int
  safe : IsSafe value

/-- The number a caller passes. -/
def Ttl.number (ttl : Ttl) : JsNumber := .ofInt ttl.seconds

/-- The number a caller passes. -/
def SafeInt.number (n : SafeInt) : JsNumber := .ofInt n.value

/-! ## Operations -/

/-- The operations on cells, writing values of type `T`. -/
inductive CacheOp (separator : Char) (T : Type)
  | get (key : CacheKey separator)
  | getRaw (key : CacheKey separator)
  | set (key : CacheKey separator) (value : T) (ttlSeconds : Option Ttl)
  | setRaw (key : CacheKey separator) (value : Text) (ttlSeconds : Option Ttl)
  | setNx (key : CacheKey separator) (value : T) (ttlSeconds : Option Ttl)
  | del (key : CacheKey separator)
  | delMany (keyPrefix : KeyField separator) (ids : List (KeyField separator))
  | existsKey (key : CacheKey separator)
  | incr (key : CacheKey separator) (step : SafeInt)
  | decr (key : CacheKey separator) (step : SafeInt)
  | expire (key : CacheKey separator) (seconds : SafeInt)
  | ttl (key : CacheKey separator)
  | persist (key : CacheKey separator)
  | mget (keyPrefix : KeyField separator) (ids : List (KeyField separator))
  | mset (keyPrefix : KeyField separator) (entries : List (KeyField separator × T))
  | hget (key : CacheKey separator) (field : Text)
  | hset (key : CacheKey separator) (field : Text) (value : T)
  | hgetall (key : CacheKey separator)
  | hdel (key : CacheKey separator) (fields : List Text)
  | sadd (key : CacheKey separator) (members : List Text)
  | srem (key : CacheKey separator) (members : List Text)
  | smembers (key : CacheKey separator)
  | sismember (key : CacheKey separator) (member : Text)
  | scard (key : CacheKey separator)

/-- The cells of a cache. -/
abbrev Cells (separator : Char) := CacheKey separator → Option Cell

/-- What the caller of an operation gets. -/
abbrev CacheResult (T V : Type) := Except Thrown (ServiceResult T V)

/-- What an operation leaves, and the results it may have. -/
abbrev Outcome (separator : Char) (T V : Type) := Cells separator × (CacheResult T V → Prop)

/-- The text a value is kept as.  The client sends `undefined` as the empty
string. -/
def encodeText {T : Type} (serializer : Serializer T) (value : T) : Except Thrown Text :=
  (serializer.serialize value).map (·.getD [])

/-- The text of the value of an entry. -/
def encodeEntry {A T : Type} (serializer : Serializer T) (entry : A × T) : Except Thrown (A × Text) :=
  (encodeText serializer entry.2).map (entry.1, ·)

namespace CacheOp

variable {separator : Char} {T V : Type}

/-- The call of the service. -/
def toCall : CacheOp separator T → ServiceCall T
  | get key => .get key.keyPrefix.text key.id.text
  | getRaw key => .getRaw key.keyPrefix.text key.id.text
  | set key value ttlSeconds => .set key.keyPrefix.text key.id.text value (ttlSeconds.map Ttl.number)
  | setRaw key value ttlSeconds => .setRaw key.keyPrefix.text key.id.text value (ttlSeconds.map Ttl.number)
  | setNx key value ttlSeconds => .setNx key.keyPrefix.text key.id.text value (ttlSeconds.map Ttl.number)
  | del key => .del key.keyPrefix.text key.id.text
  | delMany keyPrefix ids => .delMany keyPrefix.text (ids.map KeyField.text)
  | existsKey key => .existsKey key.keyPrefix.text key.id.text
  | incr key step => .incr key.keyPrefix.text key.id.text step.number
  | decr key step => .decr key.keyPrefix.text key.id.text step.number
  | expire key seconds => .expire key.keyPrefix.text key.id.text seconds.number
  | ttl key => .ttl key.keyPrefix.text key.id.text
  | persist key => .persist key.keyPrefix.text key.id.text
  | mget keyPrefix ids => .mget keyPrefix.text (ids.map KeyField.text)
  | mset keyPrefix entries =>
      .mset keyPrefix.text (entries.map fun entry => (entry.1.text, entry.2))
  | hget key field => .hget key.keyPrefix.text key.id.text field
  | hset key field value => .hset key.keyPrefix.text key.id.text field value
  | hgetall key => .hgetall key.keyPrefix.text key.id.text
  | hdel key fields => .hdel key.keyPrefix.text key.id.text fields
  | sadd key members => .sadd key.keyPrefix.text key.id.text members
  | srem key members => .srem key.keyPrefix.text key.id.text members
  | smembers key => .smembers key.keyPrefix.text key.id.text
  | sismember key member => .sismember key.keyPrefix.text key.id.text member
  | scard key => .scard key.keyPrefix.text key.id.text

/-- An operation on an empty list, which has nothing to do. -/
def isIdle : CacheOp separator T → Bool
  | delMany _ ids | mget _ ids => ids.isEmpty
  | mset _ entries => entries.isEmpty
  | hdel _ texts | sadd _ texts | srem _ texts => texts.isEmpty
  | _ => false

/-- How many arguments the operation spreads a list into: none when it passes
its arguments one by one. -/
def spreadCount : CacheOp separator T → Nat
  | delMany _ ids | mget _ ids => ids.length
  | mset _ entries => 2 * entries.length
  | hdel _ texts | sadd _ texts | srem _ texts => texts.length + 1
  | _ => 0

/-- The operation with the texts of the values it writes. -/
def encoded (serializer : Serializer T) : CacheOp separator T → Except Thrown (CacheOp separator Text)
  | set key value ttlSeconds => (encodeText serializer value).map (set key · ttlSeconds)
  | setNx key value ttlSeconds => (encodeText serializer value).map (setNx key · ttlSeconds)
  | hset key field value => (encodeText serializer value).map (hset key field)
  | mset keyPrefix entries =>
      (entries.mapM (encodeEntry serializer)).map (mset keyPrefix)
  | get key => .ok (get key)
  | getRaw key => .ok (getRaw key)
  | setRaw key value ttlSeconds => .ok (setRaw key value ttlSeconds)
  | del key => .ok (del key)
  | delMany keyPrefix ids => .ok (delMany keyPrefix ids)
  | existsKey key => .ok (existsKey key)
  | incr key step => .ok (incr key step)
  | decr key step => .ok (decr key step)
  | expire key seconds => .ok (expire key seconds)
  | ttl key => .ok (ttl key)
  | persist key => .ok (persist key)
  | mget keyPrefix ids => .ok (mget keyPrefix ids)
  | hget key field => .ok (hget key field)
  | hgetall key => .ok (hgetall key)
  | hdel key fields => .ok (hdel key fields)
  | sadd key members => .ok (sadd key members)
  | srem key members => .ok (srem key members)
  | smembers key => .ok (smembers key)
  | sismember key member => .ok (sismember key member)
  | scard key => .ok (scard key)

/-! ## What an operation does -/

/-- Act on one cell. -/
def atCell (key : CacheKey separator)
    (does : Option Cell → Option Cell × (CacheResult T V → Prop)) (cells : Cells separator) :
    Outcome separator T V :=
  (Function.update cells key (does (cells key)).1, (does (cells key)).2)

/-- The results that reading these replies gives. -/
def reads {α : Type} (replies : Except Reason α → Prop)
    (read : α → CacheResult T V) (result : CacheResult T V) : Prop :=
  ∃ reply, replies reply ∧ result = (awaitReply reply).bind read

/-- A text decoded, or `null`. -/
def decodeText (deserialize : Text → Except Thrown T) : Option Text → Except Thrown (Option T)
  | none => .ok none
  | some raw => (deserialize raw).map some

/-- The decoded record of a hash, in any order, or what decoding one of its
values throws. -/
def ReturnsRecord (deserialize : Text → Except Thrown T) (field : Text → Option Text)
    (result : CacheResult T V) : Prop :=
  (∃ entries, result = .ok (.record entries) ∧ (entries.map Prod.fst).Nodup ∧
    ∀ name, decodeText deserialize (field name) = .ok (entries.lookup name)) ∨
  ∃ name raw thrown, field name = some raw ∧ deserialize raw = .error thrown ∧
    result = .error thrown

/-- An operation that writes texts, on the cells at a time. -/
noncomputable def does (deserialize : Text → Except Thrown T) (now : Nat)
    (cells : Cells separator) : CacheOp separator Text → Outcome separator T V
  | get key => atCell key (fun cell => (cell, reads (· = Cell.text cell) fun raw =>
      (decodeText deserialize raw).map .value)) cells
  | getRaw key => atCell key (fun cell => (cell, reads (· = Cell.text cell) fun raw =>
      .ok (.raw raw))) cells
  | set key text ttlSeconds | setRaw key text ttlSeconds =>
      atCell key (fun cell =>
        let (cell', reply) := Cell.assign now text (ttlSeconds.map (·.seconds)) false cell
        (cell', reads (· = reply) fun _ => .ok .done)) cells
  | setNx key text ttlSeconds =>
      atCell key (fun cell =>
        let (cell', reply) := Cell.assign now text (ttlSeconds.map (·.seconds)) true cell
        (cell', reads (· = reply) fun written => .ok (.flag written.isSome))) cells
  | del key => (dropAll [key] cells,
      (· = .ok (.number (countHeld Option.isSome [key] cells : Nat))))
  | delMany keyPrefix ids => (dropAll (ids.map (CacheKey.mk keyPrefix)) cells,
      (· = .ok (.number (countHeld Option.isSome (ids.map (CacheKey.mk keyPrefix)) cells : Nat))))
  | existsKey key => atCell key (fun cell => (cell, (· = .ok (.flag cell.isSome)))) cells
  | incr key step => atCell key (fun cell => (Cell.incremented step.value cell,
      reads (RepliesInteger (Cell.increment step.value cell)) fun n => .ok (.number n))) cells
  | decr key step => atCell key (fun cell => (Cell.incremented (-step.value) cell,
      reads (RepliesInteger (Cell.increment (-step.value) cell)) fun n => .ok (.number n))) cells
  | expire key seconds => atCell key (fun cell =>
      let (cell', reply) := Cell.retime now seconds.value cell
      (cell', reads (· = reply) fun n => .ok (.flag (n == 1)))) cells
  | ttl key => atCell key (fun cell => (cell,
      reads (RepliesInteger (.ok (Cell.remaining now cell))) fun n => .ok (.number n))) cells
  | persist key => atCell key (fun cell =>
      let (cell', n) := Cell.persist cell
      (cell', (· = .ok (.flag (n == 1))))) cells
  | mget keyPrefix ids => (cells, (· = (ids.mapM fun id =>
      decodeText deserialize (Cell.textOrAbsent (cells ⟨keyPrefix, id⟩))).map .values))
  | mset keyPrefix entries =>
      (writeAll (entries.map fun entry => (⟨keyPrefix, entry.1⟩, ⟨.string entry.2, none⟩)) cells,
        (· = .ok .done))
  | hget key name => atCell key (fun cell => (cell,
      reads (· = (Cell.fields cell).map (· name)) fun raw =>
        (decodeText deserialize raw).map .value)) cells
  | hset key name text => atCell key (fun cell =>
      let (cell', reply) := Cell.setField name text cell
      (cell', reads (· = reply) fun n => .ok (.number n))) cells
  | hgetall key => atCell key (fun cell => (cell, fun result =>
      match Cell.fields cell with
      | .error reason => result = .error (.raw reason)
      | .ok field => ReturnsRecord deserialize field result)) cells
  | hdel key names => atCell key (fun cell =>
      let (cell', reply) := Cell.dropFields names cell
      (cell', reads (· = reply) fun n => .ok (.number n))) cells
  | sadd key added => atCell key (fun cell =>
      let (cell', reply) := Cell.addMembers added cell
      (cell', reads (· = reply) fun n => .ok (.number n))) cells
  | srem key removed => atCell key (fun cell =>
      let (cell', reply) := Cell.dropMembers removed cell
      (cell', reads (· = reply) fun n => .ok (.number n))) cells
  | smembers key => atCell key (fun cell => (cell,
      reads (RepliesMembers (Cell.members cell)) fun members => .ok (.texts members))) cells
  | sismember key member => atCell key (fun cell => (cell,
      reads (· = Cell.members cell) fun members => .ok (.flag (member ∈ members)))) cells
  | scard key => atCell key (fun cell => (cell,
      reads (· = Cell.members cell) fun members => .ok (.number members.card))) cells

/-- What an operation with nothing to do returns. -/
def idleResult : CacheOp separator T → ServiceResult T V
  | delMany _ _ | hdel _ _ | sadd _ _ | srem _ _ => .number 0
  | mget _ _ => .values []
  | _ => .done

end CacheOp

/-! ## The cache -/

/-- A clock and the cells that are there. -/
structure CacheState (separator : Char) where
  now : Nat
  cells : Cells separator

/-- The operation has something to do, a client, texts to write and no list
that is too long to be spread. -/
structure Ready {separator : Char} {T : Type} (serializer : Serializer T) (argumentLimit : Nat)
    (connection : ConnectionStatus) (op : CacheOp separator T) (raw : CacheOp separator Text) :
    Prop where
  busy : op.isIdle = false
  client : ∃ client, connection.getClient = .ok client
  encoded : op.encoded serializer = .ok raw
  fits : op.spreadCount ≤ argumentLimit

/-- What keeps an operation with something to do from being ready, and what it
throws for it. -/
inductive Unready {separator : Char} {T : Type} (serializer : Serializer T) (argumentLimit : Nat)
    (connection : ConnectionStatus) (op : CacheOp separator T) : Thrown → Prop
  | disconnected {thrown : Thrown} (hclient : connection.getClient = .error thrown) :
      Unready serializer argumentLimit connection op thrown
  | unencoded {thrown : Thrown} (hencoded : op.encoded serializer = .error thrown) :
      Unready serializer argumentLimit connection op thrown
  | overlong (hover : argumentLimit < op.spreadCount) :
      Unready serializer argumentLimit connection op argumentRangeError

namespace Unready

variable {separator : Char} {T : Type} {serializer : Serializer T} {argumentLimit : Nat}
  {connection : ConnectionStatus} {op : CacheOp separator T} {thrown : Thrown}

/-- Without a list and with its values encoded, an operation lacks a client. -/
theorem no_client (h : Unready serializer argumentLimit connection op thrown)
    {raw : CacheOp separator Text} (hencoded : op.encoded serializer = .ok raw)
    (hcount : op.spreadCount = 0) : connection.getClient = .error thrown := by
  cases h with
  | disconnected hclient => exact hclient
  | unencoded hthrown =>
      rw [hencoded] at hthrown
      cases hthrown
  | overlong hover => exact absurd hover (by omega)

/-- With a client and its values encoded, an operation has too long a list. -/
theorem too_long (h : Unready serializer argumentLimit connection op thrown)
    {client : ClientKind} (hclient : connection.getClient = .ok client)
    {raw : CacheOp separator Text} (hencoded : op.encoded serializer = .ok raw) :
    argumentLimit < op.spreadCount := by
  cases h with
  | disconnected hthrown =>
      rw [hclient] at hthrown
      cases hthrown
  | unencoded hthrown =>
      rw [hencoded] at hthrown
      cases hthrown
  | overlong hover => exact hover

/-- With a client and no list, a value of the operation was not encoded. -/
theorem no_text (h : Unready serializer argumentLimit connection op thrown)
    {client : ClientKind} (hclient : connection.getClient = .ok client)
    (hcount : op.spreadCount = 0) : op.encoded serializer = .error thrown := by
  cases h with
  | disconnected hthrown =>
      rw [hclient] at hthrown
      cases hthrown
  | unencoded hencoded => exact hencoded
  | overlong hover => exact absurd hover (by omega)

end Unready

open Linearization in
/-- One operation, or the passing of time. -/
inductive CacheStep {separator : Char} {T V W : Type} (serializer : Serializer T)
    (argumentLimit : Nat) (time : W → Nat) :
    CacheState separator →
      Effect (ConnectionStatus × CacheOp separator T) (CacheResult T V) W →
      CacheState separator → Prop
  | performed {s : CacheState separator} {i : Nat} {connection : ConnectionStatus}
      {op : CacheOp separator T} {raw : CacheOp separator Text} {result : CacheResult T V}
      (hready : Ready serializer argumentLimit connection op raw)
      (hresult : (raw.does serializer.deserialize s.now s.cells).2 result) :
      CacheStep serializer argumentLimit time s (.answered i (connection, op) result)
        ⟨s.now, (raw.does (V := V) serializer.deserialize s.now s.cells).1⟩
  | refused {s : CacheState separator} {i : Nat} {connection : ConnectionStatus}
      {op : CacheOp separator T} {raw : CacheOp separator Text}
      (hready : Ready serializer argumentLimit connection op raw) (reason : Reason) :
      CacheStep serializer argumentLimit time s (.answered i (connection, op) (.error (.raw reason))) s
  | idle {s : CacheState separator} {i : Nat} {connection : ConnectionStatus}
      {op : CacheOp separator T} (hidle : op.isIdle = true) :
      CacheStep serializer argumentLimit time s (.answered i (connection, op) (.ok op.idleResult)) s
  | invalid {s : CacheState separator} {i : Nat} {connection : ConnectionStatus}
      {op : CacheOp separator T} {thrown : Thrown} (hbusy : op.isIdle = false)
      (h : Unready serializer argumentLimit connection op thrown) :
      CacheStep serializer argumentLimit time s (.answered i (connection, op) (.error thrown)) s
  | givenUp {s : CacheState separator} {i : Nat} {connection : ConnectionStatus}
      {op : CacheOp separator T} {raw : CacheOp separator Text}
      (hready : Ready serializer argumentLimit connection op raw) (reason : Reason) :
      CacheStep serializer argumentLimit time s (.rejected i (connection, op) (.error (.raw reason))) s
  | landed {s : CacheState separator} {i : Nat} {connection : ConnectionStatus}
      {op : CacheOp separator T} {raw : CacheOp separator Text}
      (hready : Ready serializer argumentLimit connection op raw) :
      CacheStep serializer argumentLimit time s (.landed i (connection, op))
        ⟨s.now, (raw.does (V := V) serializer.deserialize s.now s.cells).1⟩
  | lost {s : CacheState separator} {i : Nat} {connection : ConnectionStatus}
      {op : CacheOp separator T} {raw : CacheOp separator Text}
      (hready : Ready serializer argumentLimit connection op raw) :
      CacheStep serializer argumentLimit time s (.landed i (connection, op)) s
  | passed {s : CacheState separator} {w : W} (htime : s.now ≤ time w) :
      CacheStep serializer argumentLimit time s (.world w)
        ⟨time w, fun key => Cell.alive (time w) (s.cells key)⟩

end NestCache
