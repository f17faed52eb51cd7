import NestCache.KeyedBatch
import NestCache.NamespaceFrame
import NestCache.Refusals
import NestCache.StoredValues

/-!
# A Redis store

A store maps keys to values with an expiry, and the clock decides what a key
still holds.  `AnswersAsDocumented` is the contract of the commands behind the
batches, the hashes and their single forms; `redisServer` keeps it and touches
only the keys that a command names.
-/

namespace NestCache

open KeyedBatch

/-! ## Entries -/

/-- A value and when it expires, if ever, in milliseconds. -/
structure StoreEntry where
  value : StoredValue
  expiresAt : Option Nat

/-- The entries of a store. -/
abbrev RedisStore := Text → Option StoreEntry

/-- What an entry holds at a time: an expired one holds nothing. -/
def heldAt (now : Nat) : Option StoreEntry → Option StoredValue
  | some entry => if entry.expiresAt.all (now ≤ ·) then some entry.value else none
  | none => none

/-- A string that does not expire.  The client sends `undefined` as the empty
string. -/
def plainString (raw : Payload) : StoreEntry := ⟨.string (raw.getD []), none⟩

/-- Whether a removal of this entry counts. -/
def isHeld (now : Nat) (entry : Option StoreEntry) : Bool := (heldAt now entry).isSome

@[simp] theorem heldAt_none (now : Nat) : heldAt now none = none := rfl

@[simp] theorem heldAt_plainString (now : Nat) (raw : Payload) :
    heldAt now (some (plainString raw)) = some (.string (raw.getD [])) := rfl

/-! ## Replies -/

/-- `MGET` for one key: a value of another type reads as absent. -/
def mgetReply : Option StoredValue → Option Text
  | some (.string value) => some value
  | _ => none

/-- `HGET`. -/
def hgetReply (held : Option StoredValue) (field : Text) : Except Reason (Option Text) :=
  match held with
  | none => .ok none
  | some (.hash fields _) => .ok (fields.lookup field)
  | some _ => .error WRONGTYPE

/-- The flat arguments of `MSET` for keys and their values. -/
def msetArguments (entries : List (Text × Payload)) : List Payload :=
  entries.flatMap fun entry => [some entry.1, entry.2]

/-- Every entry takes two arguments. -/
theorem length_msetArguments (entries : List (Text × Payload)) :
    (msetArguments entries).length = 2 * entries.length := by
  induction entries with
  | nil => rfl
  | cons entry rest ih =>
      have hcons : msetArguments (entry :: rest) =
          some entry.1 :: entry.2 :: msetArguments rest := rfl
      rw [hcons, List.length_cons, List.length_cons, List.length_cons, ih]
      omega

/-- Redis commands with their documented semantics, on a clock and a store. -/
structure AnswersAsDocumented {V : Type}
    (answer : Nat × RedisStore → (c : ServiceCommand) → (Nat × RedisStore) × ServiceReply V c) :
    Prop where
  get : ∀ now store key, answer (now, store) (.key (.get key)) =
    ((now, store), getReply (heldAt now (store key)))
  set : ∀ now store key raw, answer (now, store) (.key (.set key raw none false)) =
    ((now, Function.update store key (some (plainString raw))), .ok (some "OK".toList))
  del : ∀ now store keys, keys ≠ [] → answer (now, store) (.key (.del keys)) =
    ((now, dropAll keys store), .ok (countHeld (isHeld now) keys store))
  mget : ∀ now store keys, keys ≠ [] → answer (now, store) (.key (.mget keys)) =
    ((now, store), .ok (keys.map fun key => mgetReply (heldAt now (store key))))
  mset : ∀ now store entries, entries ≠ [] →
    answer (now, store) (.key (.mset (msetArguments entries))) =
      ((now, writeAll (entries.map fun entry => (entry.1, plainString entry.2)) store),
        .ok "OK".toList)
  hget : ∀ now store key field, answer (now, store) (.key (.hget key field)) =
    ((now, store), hgetReply (heldAt now (store key)) field)
  hgetall : ∀ now store key, answer (now, store) (.key (.hgetall key)) =
    ((now, store), hgetallReply (heldAt now (store key)))

/-! ## A server -/

/-- The keys and values among the flat arguments of `MSET`. -/
def msetEntries : List Payload → List (Text × Payload)
  | key :: raw :: rest => (key.getD [], raw) :: msetEntries rest
  | _ => []

/-- The arguments of `MSET` are taken apart into the entries they were
laid out from. -/
theorem msetEntries_arguments (entries : List (Text × Payload)) :
    msetEntries (msetArguments entries) = entries := by
  induction entries with
  | nil => rfl
  | cons entry rest ih => simpa [msetArguments, msetEntries] using ih

/-- The keys of these entries are the arguments at even places. -/
theorem msetEntries_keys (pairs : List Payload) :
    (msetEntries pairs).map Prod.fst = msetKeys pairs := by
  fun_induction msetEntries pairs with
  | case1 key raw rest ih => simp [msetKeys, ih]
  | case2 pairs h =>
      cases pairs with
      | nil => rfl
      | cons key rest =>
          cases rest with
          | nil => rfl
          | cons raw rest => exact absurd rfl (h key raw rest)

/-- A server of the documented commands without subscribers; it rejects the
others. -/
def redisAnswer : Nat × RedisStore → (c : ServiceCommand) →
    (Nat × RedisStore) × ServiceReply Unit c
  | (now, store), .key (.get key) => ((now, store), getReply (heldAt now (store key)))
  | (now, store), .key (.set key raw none false) =>
      ((now, Function.update store key (some (plainString raw))), .ok (some "OK".toList))
  | (now, store), .key (.del keys) =>
      ((now, dropAll keys store), .ok (countHeld (isHeld now) keys store))
  | (now, store), .key (.mget keys) =>
      ((now, store), .ok (keys.map fun key => mgetReply (heldAt now (store key))))
  | (now, store), .key (.mset pairs) =>
      ((now, writeAll ((msetEntries pairs).map fun entry => (entry.1, plainString entry.2)) store),
        .ok "OK".toList)
  | (now, store), .key (.hget key field) =>
      ((now, store), hgetReply (heldAt now (store key)) field)
  | (now, store), .key (.hgetall key) => ((now, store), hgetallReply (heldAt now (store key)))
  | s, .publish _ _ => (s, .ok 0)
  | s, c => (s, (countingRedis 0 c).2)

/-- The server of this module answers as the documentation says, command
by command. -/
theorem redisAnswer_documented : AnswersAsDocumented redisAnswer where
  get _ _ _ := rfl
  set _ _ _ _ := rfl
  del _ _ _ _ := rfl
  mget _ _ _ _ := rfl
  mset now store entries _ := by simp only [redisAnswer, msetEntries_arguments]
  hget _ _ _ _ := rfl
  hgetall _ _ _ := rfl

/-- What a command does, from the keys it names. -/
structure LocalTo (keys : List Text) (now : Nat) (store : RedisStore) (c : ServiceCommand) :
    Prop where
  clock : (redisAnswer (now, store) c).1.1 = now
  frame : ∀ key ∉ keys, (redisAnswer (now, store) c).1.2 key = store key
  reply : ∀ store' : RedisStore, (∀ key ∈ keys, store key = store' key) →
    (redisAnswer (now, store) c).2 = (redisAnswer (now, store') c).2
  writes : ∀ store' : RedisStore, (∀ key ∈ keys, store key = store' key) →
    ∀ key ∈ keys, (redisAnswer (now, store) c).1.2 key = (redisAnswer (now, store') c).1.2 key

/-- A command on keys looks at its own keys and changes no others, and it
leaves the clock alone. -/
theorem localTo_key (now : Nat) (store : RedisStore) (c : KeyCommand) :
    LocalTo c.addressed now store (.key c) := by
  cases c with
  | get | hget | hgetall =>
      refine ⟨rfl, fun _ _ => rfl, fun store' h => ?_, fun store' h => h⟩
      simp only [redisAnswer, h _ (List.mem_singleton.mpr rfl)]
  | mget keys =>
      refine ⟨rfl, fun _ _ => rfl, fun store' h => ?_, fun store' h => h⟩
      simp only [redisAnswer, Except.ok.injEq]
      exact List.map_congr_left fun key hkey => by rw [h key hkey]
  | set key raw ex nx =>
      cases ex with
      | some seconds => exact ⟨rfl, fun _ _ => rfl, fun _ _ => rfl, fun _ h => h⟩
      | none =>
          cases nx with
          | true => exact ⟨rfl, fun _ _ => rfl, fun _ _ => rfl, fun _ h => h⟩
          | false =>
              refine ⟨rfl, fun other hother => ?_, fun _ _ => rfl, fun store' h other hother => ?_⟩
              · exact Function.update_of_ne (by simpa [KeyCommand.addressed] using hother) _ _
              · obtain rfl : other = key := by simpa [KeyCommand.addressed] using hother
                simp [redisAnswer]
  | del keys =>
      refine ⟨rfl, fun other hother => ?_, fun store' h => ?_, fun store' h other hother => ?_⟩
      · exact if_neg hother
      · have hcount : countHeld (isHeld now) keys store = countHeld (isHeld now) keys store' := by
          refine congrArg Finset.card (Finset.filter_congr fun key hkey => ?_)
          rw [h key (List.mem_toFinset.mp hkey)]
        simp only [redisAnswer, hcount]
      · have hmem : other ∈ keys := hother
        simp [redisAnswer, dropAll, hmem]
  | mset pairs =>
      have hfst : ((msetEntries pairs).map fun entry => (entry.1, plainString entry.2)).map
          Prod.fst = msetKeys pairs := by
        rw [List.map_map, ← msetEntries_keys]
        rfl
      refine ⟨rfl, fun other hother => ?_, fun _ _ => rfl, fun store' h other hother => ?_⟩
      · exact writeAll_of_notMem (hfst ▸ hother) store
      · simp only [redisAnswer, writeAll, h other hother]
  | _ => exact ⟨rfl, fun _ _ => rfl, fun _ _ => rfl, fun _ h => h⟩

/-- The same for every command with a footprint, also for scripts and
`UNLINK`; `ping` and `PUBLISH` have an empty one. -/
theorem localTo_footprint (now : Nat) (store : RedisStore) {c : ServiceCommand}
    {keys : List Text} (hkeys : c.footprint = some keys) : LocalTo keys now store c := by
  cases c with
  | key c =>
      obtain rfl := Option.some.inj hkeys
      exact localTo_key now store c
  | script c => cases c <;> exact ⟨rfl, fun _ _ => rfl, fun _ _ => rfl, fun _ h => h⟩
  | flush c => cases c <;> exact ⟨rfl, fun _ _ => rfl, fun _ _ => rfl, fun _ h => h⟩
  | _ => exact ⟨rfl, fun _ _ => rfl, fun _ _ => rfl, fun _ h => h⟩

/-- The server touches only the keys that a command names. -/
def redisServer : LocalServer ServiceCommand (ServiceReply Unit) Text (Option StoreEntry) Nat
    ServiceCommand.footprint where
  answer := redisAnswer
  frame s _ _ hkeys := (localTo_footprint s.1 s.2 hkeys).frame
  surroundings now store store' _ _ hkeys _ :=
    (localTo_footprint now store hkeys).clock.trans (localTo_footprint now store' hkeys).clock.symm
  reply now store store' _ _ hkeys h := (localTo_footprint now store hkeys).reply store' h
  writes now store store' _ _ hkeys h := (localTo_footprint now store hkeys).writes store' h

end NestCache
