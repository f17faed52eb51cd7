import NestCache.RedisStore

/-!
# Batches and their single forms

On a server with the documented semantics, `mset` writes what `set` on one
entry after the other writes, `mget` answers what `get` answers for each id,
`delMany` removes and counts what `del` on one id after the other does, and
`hgetall` collects what `hget` returns field by field.  Ids may repeat.

* `batches_agree` — all of this, for lists that the engine takes as arguments;
* `batches_overflow` — a longer list rejects before anything is sent;
* `delMany_refuses` — `delMany` refuses a list as a whole that `del` goes
  through in part.
-/

namespace NestCache

open KeyedBatch

/-! ## One after the other -/

namespace CacheService

variable {T V : Type} (service : CacheService T)

/-- `set` without a TTL, on the entries in order. -/
def setEach (keyPrefix : Text) : List (Text × T) → ServiceDialogue V Unit
  | [] => return ()
  | (id, value) :: rest => do
      service.set keyPrefix id value none
      setEach keyPrefix rest

/-- The sum of what `del` returns, on the ids in order. -/
def delEach (keyPrefix : Text) : List Text → ServiceDialogue V Int
  | [] => return 0
  | id :: rest => do
      let removed ← service.del keyPrefix id
      let others ← delEach keyPrefix rest
      return removed + others

end CacheService

section Documented

variable {T V : Type} {service : CacheService T} {keyPrefix : Text}
  {answer : Nat × RedisStore → (c : ServiceCommand) → (Nat × RedisStore) × ServiceReply V c}
  (hredis : AnswersAsDocumented answer) {now : Nat}

open Dialogue

/-! ## What a key holds -/

/-- A string or nothing. -/
def IsString (held : Option StoredValue) : Prop :=
  held = none ∨ ∃ text, held = some (.string text)

/-- A hash with these fields; an absent key reads as one without fields. -/
def IsHash (held : Option StoredValue) (fields : List (Text × Text)) : Prop :=
  (held = none ∧ fields = []) ∨ ∃ distinct, held = some (.hash fields distinct)

/-- On a string, or on nothing, `GET` replies as `MGET` does; only on other
types do they part, where `GET` is an error. -/
theorem IsString.getReply {held : Option StoredValue} (h : IsString held) :
    NestCache.getReply held = .ok (mgetReply held) := by
  rcases h with rfl | ⟨text, rfl⟩ <;> rfl

/-- On a hash, or on nothing, `HGET` replies with what the fields hold
under the name. -/
theorem IsHash.hgetReply {held : Option StoredValue} {fields : List (Text × Text)}
    (h : IsHash held fields) (field : Text) :
    NestCache.hgetReply held field = .ok (fields.lookup field) := by
  rcases h with ⟨rfl, rfl⟩ | ⟨distinct, rfl⟩ <;> rfl

/-- On a hash, or on nothing, `HGETALL` replies with the fields. -/
theorem IsHash.hgetallReply {held : Option StoredValue} {fields : List (Text × Text)}
    (h : IsHash held fields) : NestCache.hgetallReply held = .ok fields := by
  rcases h with ⟨rfl, rfl⟩ | ⟨distinct, rfl⟩ <;> rfl

/-- The names of a hash are distinct, so a lookup finds each of its fields. -/
theorem IsHash.nodup {held : Option StoredValue} {fields : List (Text × Text)}
    (h : IsHash held fields) : (fields.map Prod.fst).Nodup := by
  rcases h with ⟨-, rfl⟩ | ⟨distinct, -⟩
  · exact List.nodup_nil
  · exact distinct

/-! ## Keys -/

/-- The keys that a list of ids composes to. -/
def KeysOf (service : CacheService T) (keyPrefix : Text) : List Text → List Text → Prop :=
  List.Forall₂ fun id key => service.keyBuilder.build keyPrefix id = .ok key

/-- `build` checks nothing but that the prefix and the id are nonempty. -/
theorem build_of_ne_nil (kb : KeyBuilder) {id : Text} (hpre : keyPrefix ≠ []) (hid : id ≠ []) :
    ∃ key, kb.build keyPrefix id = .ok key := by
  unfold KeyBuilder.build
  rw [if_neg hpre, if_neg hid]
  exact ⟨_, rfl⟩

/-- Nonempty ids compose to keys, one for each id and in their order. -/
theorem keysOf_of_ne_nil (service : CacheService T) (hpre : keyPrefix ≠ []) {ids : List Text}
    (hids : ∀ id ∈ ids, id ≠ []) : ∃ keys, KeysOf service keyPrefix ids keys := by
  obtain ⟨keys, hkeys⟩ := exists_mapM_ok fun id hid =>
    build_of_ne_nil service.keyBuilder hpre (hids id hid)
  exact ⟨keys, mapM_eq_ok_iff.mp hkeys⟩

/-- As many keys are sent as there are ids: the limit on the arguments is one
on the ids. -/
theorem KeysOf.length_eq {ids keys : List Text} (h : KeysOf service keyPrefix ids keys) :
    keys.length = ids.length :=
  (List.Forall₂.length_eq h).symm

/-- A nonempty list of ids composes to a nonempty list of keys. -/
theorem KeysOf.ne_nil {ids keys : List Text} (h : KeysOf service keyPrefix ids keys)
    (hne : ids ≠ []) : keys ≠ [] := by
  rintro rfl
  cases h
  exact hne rfl

/-- The keys and payloads that entries are sent as. -/
def SentAs (service : CacheService T) (keyPrefix : Text) :
    List (Text × T) → List (Text × Payload) → Prop :=
  List.Forall₂ fun entry sent => service.keyBuilder.build keyPrefix entry.1 = .ok sent.1 ∧
    service.serializer.serialize entry.2 = .ok sent.2

/-- Entries that can be sent are laid out as alternating keys and values, the
arguments of `MSET`. -/
theorem SentAs.msetPairs {entries : List (Text × T)} {given : List (Text × Payload)}
    (h : SentAs service keyPrefix entries given) :
    service.msetPairs keyPrefix entries = .ok (msetArguments given) := by
  induction h with
  | nil => rfl
  | @cons entry sent entries given h _ ih =>
      obtain ⟨id, value⟩ := entry
      obtain ⟨hkey, hraw⟩ := h
      simp only [CacheService.msetPairs, hkey, hraw, ih]
      rfl

/-- Every entry is sent as two arguments. -/
theorem SentAs.length_arguments {entries : List (Text × T)} {given : List (Text × Payload)}
    (h : SentAs service keyPrefix entries given) :
    (msetArguments given).length = 2 * entries.length := by
  rw [length_msetArguments, List.Forall₂.length_eq h]

/-- Entries with nonempty ids whose values all encode can be sent. -/
theorem sentAs_of_encodable (hpre : keyPrefix ≠ []) {entries : List (Text × T)}
    (hids : ∀ entry ∈ entries, entry.1 ≠ [])
    (hencodable : ∀ entry ∈ entries, ∃ raw, service.serializer.serialize entry.2 = .ok raw) :
    ∃ given, SentAs service keyPrefix entries given := by
  induction entries with
  | nil => exact ⟨[], .nil⟩
  | cons entry entries ih =>
      obtain ⟨key, hkey⟩ := build_of_ne_nil service.keyBuilder hpre
        (hids entry List.mem_cons_self)
      obtain ⟨raw, hraw⟩ := hencodable entry List.mem_cons_self
      obtain ⟨given, hgiven⟩ := ih (fun other hother => hids other (List.mem_cons_of_mem _ hother))
        fun other hother => hencodable other (List.mem_cons_of_mem _ hother)
      exact ⟨(key, raw) :: given, .cons ⟨hkey, hraw⟩ hgiven⟩

/-- What every composition with an empty prefix throws. -/
def emptyPrefix : Thrown := .cache ⟨.INVALID_KEY, some [detail "reason" "empty_prefix"]⟩

/-- An empty prefix is refused whatever the id is. -/
theorem build_nil (kb : KeyBuilder) (id : Text) : kb.build [] id = .error emptyPrefix := rfl

/-! ## What one call does -/

section Ready

include hredis

variable {client : ClientKind} (hclient : service.connection.getClient = .ok client)

include hclient

/-- **`set`** of a value that encodes overwrites the cell of its key with the
text and sends no other command. -/
theorem set_exec {id key : Text} {value : T} {raw : Payload}
    (hkey : service.keyBuilder.build keyPrefix id = .ok key)
    (hraw : service.serializer.serialize value = .ok raw) (store : RedisStore) :
    (service.set keyPrefix id value none).exec answer (now, store) =
      ⟨(now, Function.update store key (some (plainString raw))),
        [.key (.set key raw none false)], .ok ()⟩ := by
  simp only [CacheService.set, CacheService.build, hkey, hraw, CacheService.write,
    CacheService.client, hclient, Dialogue.bind_eq, Dialogue.pure_eq, onKeys, exec_bind,
    exec_ofExcept, exec_request, hredis.set, awaitReply, exec_done, Ending.after, List.append_nil,
    List.nil_append]

/-- **`del`** drops the cell of its key and returns whether it was held. -/
theorem del_exec {id key : Text} (hkey : service.keyBuilder.build keyPrefix id = .ok key)
    (store : RedisStore) :
    (service.del keyPrefix id).exec answer (now, store) =
      ⟨(now, dropAll [key] store), [.key (.del [key])],
        .ok (countHeld (isHeld now) [key] store : Nat)⟩ := by
  simp only [CacheService.del, CacheService.build, hkey, CacheService.client, hclient,
    Dialogue.bind_eq, onKeys, exec_bind, exec_ofExcept, exec_request,
    hredis.del now store [key] (List.cons_ne_nil key []), awaitReply, Ending.after,
    List.nil_append]

/-- **`get`** decodes what the cell holds, if that is a string or nothing. -/
theorem get_result {id key : Text} (hkey : service.keyBuilder.build keyPrefix id = .ok key)
    (store : RedisStore) (hstring : IsString (heldAt now (store key))) :
    ((service.get keyPrefix id).exec answer (now, store)).result =
      service.decode (mgetReply (heldAt now (store key))) := by
  simp only [CacheService.get, CacheService.build, hkey, CacheService.client, hclient,
    Dialogue.bind_eq, onKeys, exec_bind, exec_ofExcept, exec_request, hredis.get, hstring.getReply,
    awaitReply, Ending.after_result]

/-- **`hget`** decodes what the hash holds under the field. -/
theorem hget_result {id key field : Text} {fields : List (Text × Text)}
    (hkey : service.keyBuilder.build keyPrefix id = .ok key) (store : RedisStore)
    (hhash : IsHash (heldAt now (store key)) fields) :
    ((service.hget keyPrefix id field).exec answer (now, store)).result =
      service.decode (fields.lookup field) := by
  simp only [CacheService.hget, CacheService.build, hkey, CacheService.client, hclient,
    Dialogue.bind_eq, onKeys, exec_bind, exec_ofExcept, exec_request, hredis.hget, hhash.hgetReply,
    awaitReply, Ending.after_result]

/-- **`hgetall`** decodes every field of the hash, in the order in which the
reply lists them as an object. -/
theorem hgetall_result {id key : Text} {fields : List (Text × Text)}
    (hkey : service.keyBuilder.build keyPrefix id = .ok key) (store : RedisStore)
    (hhash : IsHash (heldAt now (store key)) fields) :
    ((service.hgetall keyPrefix id).exec answer (now, store)).result =
      (objectEntries fields).mapM service.decodeEntry := by
  simp only [CacheService.hgetall, CacheService.build, hkey, CacheService.client, hclient,
    Dialogue.bind_eq, onKeys, exec_bind, exec_ofExcept, exec_request, hredis.hgetall,
    hhash.hgetallReply, awaitReply, Ending.after_result]

/-! ## What a batch does -/

/-- **`mset`** of entries that can be sent, and within the limit on arguments,
writes them from left to right with one command. -/
theorem mset_exec {entries : List (Text × T)} {given : List (Text × Payload)}
    (hgiven : SentAs service keyPrefix entries given) (hne : entries ≠ [])
    (hlimit : 2 * entries.length ≤ service.argumentLimit) (store : RedisStore) :
    (service.mset keyPrefix entries).exec answer (now, store) =
      ⟨(now, writeAll (given.map fun sent => (sent.1, plainString sent.2)) store),
        [.key (.mset (msetArguments given))], .ok ()⟩ := by
  have hlength : ¬ entries.length = 0 := by simpa using hne
  have hsent : given ≠ [] := by
    rintro rfl
    cases hgiven
    exact hne rfl
  have hspread := service.spread_fits (V := V) (hgiven.length_arguments.trans_le hlimit)
  simp only [CacheService.mset, if_neg hlength, hgiven.msetPairs, CacheService.client, hclient,
    hspread, Dialogue.bind_eq, Dialogue.pure_eq, onKeys, exec_bind, exec_ofExcept, exec_request,
    hredis.mset now store given hsent, awaitReply, exec_done, Ending.after, List.append_nil,
    List.nil_append]

/-- **`delMany`** of a nonempty list within the limit drops all its cells with
one command and returns how many were held. -/
theorem delMany_exec {ids keys : List Text} (hkeys : KeysOf service keyPrefix ids keys)
    (hne : ids ≠ []) (hlimit : ids.length ≤ service.argumentLimit) (store : RedisStore) :
    (service.delMany keyPrefix ids).exec answer (now, store) =
      ⟨(now, dropAll keys store), [.key (.del keys)],
        .ok (countHeld (isHeld now) keys store : Nat)⟩ := by
  have hlength : ¬ ids.length = 0 := by simpa using hne
  have hspread := service.spread_fits (V := V) (hkeys.length_eq.trans_le hlimit)
  simp only [CacheService.delMany, if_neg hlength, mapM_eq_ok_iff.mpr hkeys, CacheService.client,
    hclient, hspread, Dialogue.bind_eq, onKeys, exec_bind, exec_ofExcept, exec_done, exec_request,
    hredis.del now store keys (hkeys.ne_nil hne), awaitReply, Ending.after, List.nil_append]

/-- **`mget`** of a nonempty list within the limit decodes what each cell
holds, with a cell that is no string read as nothing. -/
theorem mget_result {ids keys : List Text} (hkeys : KeysOf service keyPrefix ids keys)
    (hne : ids ≠ []) (hlimit : ids.length ≤ service.argumentLimit) (store : RedisStore) :
    ((service.mget keyPrefix ids).exec answer (now, store)).result =
      (keys.map fun key => mgetReply (heldAt now (store key))).mapM service.decode := by
  have hlength : ¬ ids.length = 0 := by simpa using hne
  have hspread := service.spread_fits (V := V) (hkeys.length_eq.trans_le hlimit)
  simp only [CacheService.mget, if_neg hlength, mapM_eq_ok_iff.mpr hkeys, CacheService.client,
    hclient, hspread, Dialogue.bind_eq, onKeys, exec_bind, exec_ofExcept, exec_done, exec_request,
    hredis.mget now store keys (hkeys.ne_nil hne), awaitReply, Ending.after_result]

/-! ## What the single forms do, one after the other -/

/-- A loop of `set` leaves the store that writing the entries from left to
right leaves; the induction is on the entries. -/
theorem setEach_exec {entries : List (Text × T)} {given : List (Text × Payload)}
    (hgiven : SentAs service keyPrefix entries given) (store : RedisStore) :
    ((service.setEach keyPrefix entries).exec answer (now, store)).state =
      (now, writeAll (given.map fun sent => (sent.1, plainString sent.2)) store) := by
  induction hgiven generalizing store with
  | nil => rfl
  | @cons entry sent entries given h _ ih =>
      obtain ⟨id, value⟩ := entry
      obtain ⟨hkey, hraw⟩ := h
      simp only [CacheService.setEach, Dialogue.bind_eq, exec_bind,
        set_exec hredis hclient hkey hraw store, Ending.after_state]
      rw [List.map_cons, writeAll_cons]
      exact ih _

/-- A loop of `del` leaves the store without the cells, and its sum
counts each of them once even where an id is repeated: the second `del`
finds nothing. -/
theorem delEach_exec {ids keys : List Text} (hkeys : KeysOf service keyPrefix ids keys)
    (store : RedisStore) :
    ((service.delEach keyPrefix ids).exec answer (now, store)).state = (now, dropAll keys store) ∧
    ((service.delEach keyPrefix ids).exec answer (now, store)).result =
      .ok (countHeld (isHeld now) keys store : Nat) := by
  induction hkeys generalizing store with
  | nil => exact ⟨by simp [CacheService.delEach], rfl⟩
  | @cons id key ids keys hkey _ ih =>
      obtain ⟨hstate, hresult⟩ := ih (dropAll [key] store)
      have hcount : countHeld (isHeld now) (key :: keys) store =
          countHeld (isHeld now) [key] store + countHeld (isHeld now) keys (dropAll [key] store) :=
        countHeld_cons rfl key keys store
      refine ⟨?_, ?_⟩
      · simp only [CacheService.delEach, Dialogue.bind_eq, exec_bind,
          del_exec hredis hclient hkey store, hresult, hstate, Ending.after_state,
          Dialogue.pure_eq, exec_done]
        rw [dropAll_cons key keys]
      · simp only [CacheService.delEach, Dialogue.bind_eq, exec_bind,
          del_exec hredis hclient hkey store, hresult, hcount, Ending.after_result,
          Dialogue.pure_eq, exec_done]
        norm_cast

end Ready

/-! ## Refused calls -/

/-- What refuses a call with this prefix before it sends a command. -/
def RefusedWith (service : CacheService T) (keyPrefix : Text) (thrown : Thrown) : Prop :=
  keyPrefix = [] ∧ thrown = emptyPrefix ∨
    keyPrefix ≠ [] ∧ service.connection.getClient = .error thrown

/-- A prefix and a connection either refuse every call with one exception, or
let every call through. -/
theorem refused_or_ready (service : CacheService T) (keyPrefix : Text) :
    (∃ thrown, RefusedWith service keyPrefix thrown) ∨
      keyPrefix ≠ [] ∧ ∃ client, service.connection.getClient = .ok client := by
  by_cases hpre : keyPrefix = []
  · exact .inl ⟨emptyPrefix, .inl ⟨hpre, rfl⟩⟩
  · cases hclient : service.connection.getClient with
    | error thrown => exact .inl ⟨thrown, .inr ⟨hpre, hclient⟩⟩
    | ok client => exact .inr ⟨hpre, client, rfl⟩

section Refused

variable {thrown : Thrown} (h : RefusedWith service keyPrefix thrown)

include h

/-- The composition of a key and the client after it. -/
theorem RefusedWith.build_bind {α : Type} {id : Text} (hid : id ≠ []) (k : Text → ClientKind →
    ServiceDialogue V α) : ((service.build keyPrefix id).bind fun key =>
      service.client.bind fun client => k key client) = .fail thrown := by
  rcases h with ⟨rfl, rfl⟩ | ⟨hpre, hclient⟩
  · simp only [CacheService.build, build_nil]
    rfl
  · obtain ⟨key, hkey⟩ := build_of_ne_nil service.keyBuilder hpre hid
    simp only [CacheService.build, hkey, CacheService.client, hclient]
    rfl

/-- The composition of the keys of a batch and the client after it. -/
theorem RefusedWith.keys_bind {α : Type} {ids : List Text} (hids : ∀ id ∈ ids, id ≠ [])
    (hne : ids ≠ []) (k : List Text → ClientKind → ServiceDialogue V α) :
    ((Dialogue.ofExcept (ids.mapM (service.keyBuilder.build keyPrefix))).bind fun keys =>
      service.client.bind fun client => k keys client) = .fail thrown := by
  rcases h with ⟨rfl, rfl⟩ | ⟨hpre, hclient⟩
  · rw [mapM_eq_error hne fun id _ => build_nil service.keyBuilder id]
    rfl
  · obtain ⟨keys, hkeys⟩ := keysOf_of_ne_nil service hpre hids
    rw [mapM_eq_ok_iff.mpr hkeys, CacheService.client, hclient]
    rfl

/-- `get` throws what refuses the prefix or the connection, before a
command is sent. -/
theorem RefusedWith.get {id : Text} (hid : id ≠ []) :
    (service.get keyPrefix id : ServiceDialogue V _) = .fail thrown :=
  h.build_bind hid _

/-- `mget` of a nonempty list throws what a single `get` throws. -/
theorem RefusedWith.mget {ids : List Text} (hids : ∀ id ∈ ids, id ≠ []) (hne : ids ≠ []) :
    (service.mget keyPrefix ids : ServiceDialogue V _) = .fail thrown := by
  have hlength : ¬ ids.length = 0 := by simpa using hne
  rw [CacheService.mget, if_neg hlength]
  exact h.keys_bind hids hne _

/-- `delMany` of a nonempty list throws what a single `del` throws. -/
theorem RefusedWith.delMany {ids : List Text} (hids : ∀ id ∈ ids, id ≠ []) (hne : ids ≠ []) :
    (service.delMany keyPrefix ids : ServiceDialogue V _) = .fail thrown := by
  have hlength : ¬ ids.length = 0 := by simpa using hne
  rw [CacheService.delMany, if_neg hlength]
  exact h.keys_bind hids hne _

/-- `del` asks for the client first, so that its error may be another one. -/
theorem RefusedWith.del {id : Text} :
    ∃ other, (service.del keyPrefix id : ServiceDialogue V _) = .fail other := by
  simp only [CacheService.del, CacheService.client, CacheService.build]
  rcases h with ⟨rfl, rfl⟩ | ⟨hpre, hclient⟩
  · rw [build_nil]
    cases service.connection.getClient with
    | error other => exact ⟨other, rfl⟩
    | ok client => exact ⟨emptyPrefix, rfl⟩
  · rw [hclient]
    exact ⟨thrown, rfl⟩

/-- `set` throws it too once the value has encoded: the serializer comes
before the client. -/
theorem RefusedWith.set {id : Text} {value : T} {raw : Payload} (hid : id ≠ [])
    (hraw : service.serializer.serialize value = .ok raw) :
    (service.set keyPrefix id value none : ServiceDialogue V _) = .fail thrown := by
  simp only [CacheService.set, hraw]
  exact h.build_bind hid _

/-- `mset` of a nonempty list throws what a single `set` throws. -/
theorem RefusedWith.mset {entries : List (Text × T)} (hids : ∀ entry ∈ entries, entry.1 ≠ [])
    (hencodable : ∀ entry ∈ entries, ∃ raw, service.serializer.serialize entry.2 = .ok raw)
    (hne : entries ≠ []) :
    (service.mset keyPrefix entries : ServiceDialogue V _) = .fail thrown := by
  have hlength : ¬ entries.length = 0 := by simpa using hne
  rw [CacheService.mset, if_neg hlength]
  rcases h with ⟨rfl, rfl⟩ | ⟨hpre, hclient⟩
  · obtain ⟨⟨id, value⟩, rest, rfl⟩ := List.exists_cons_of_ne_nil hne
    rw [CacheService.msetPairs, build_nil]
    rfl
  · obtain ⟨given, hgiven⟩ := sentAs_of_encodable hpre hids hencodable
    rw [hgiven.msetPairs, CacheService.client, hclient]
    rfl

end Refused

/-! ## Decoded fields -/

/-- A record with the names of these fields and their decoded values. -/
def DecodedAs (service : CacheService T) : List (Text × Text) → List (Text × T) → Prop :=
  List.Forall₂ fun field entry =>
    field.1 = entry.1 ∧ service.serializer.deserialize field.2 = .ok entry.2

/-- A record that the service decodes has its fields decoded one by one. -/
theorem decodedAs_of_mapM {fields : List (Text × Text)} {record : List (Text × T)}
    (h : fields.mapM service.decodeEntry = .ok record) : DecodedAs service fields record := by
  refine (mapM_eq_ok_iff.mp h).imp fun field entry hentry => ?_
  cases hvalue : service.serializer.deserialize field.2 with
  | error thrown => simp [CacheService.decodeEntry, hvalue, Except.map] at hentry
  | ok value =>
      obtain rfl : (field.1, value) = entry := by
        simpa [CacheService.decodeEntry, hvalue, Except.map] using hentry
      exact ⟨rfl, rfl⟩

/-- Decoding keeps the names of the fields and their order. -/
theorem DecodedAs.names {fields : List (Text × Text)} {record : List (Text × T)}
    (h : DecodedAs service fields record) : record.map Prod.fst = fields.map Prod.fst := by
  induction h with
  | nil => rfl
  | cons hentry _ ih => rw [List.map_cons, List.map_cons, ih, hentry.1]

/-- A field of the record holds what decoding that field alone returns, and an
absent field is absent on both sides. -/
theorem DecodedAs.lookup {fields : List (Text × Text)} {record : List (Text × T)}
    (h : DecodedAs service fields record) (name : Text) :
    service.decode (fields.lookup name) = .ok (record.lookup name) := by
  induction h with
  | nil => rfl
  | @cons field entry fields record hentry _ ih =>
      obtain ⟨first, raw⟩ := field
      obtain ⟨first', value⟩ := entry
      obtain ⟨rfl, hvalue⟩ := hentry
      by_cases hname : name = first
      · subst hname
        simp [CacheService.decode, hvalue, Except.map]
      · have hbeq : (name == first) = false := by simpa using hname
        simpa [List.lookup_cons, hbeq] using ih

/-! ## Agreement -/

section Agreement

include hredis

/-- **`mset`** leaves the store that a loop of `set` leaves, for every list
within the limit, the empty one included, and also where calls are refused. -/
theorem mset_agrees {entries : List (Text × T)} (hids : ∀ entry ∈ entries, entry.1 ≠ [])
    (hencodable : ∀ entry ∈ entries, ∃ raw, service.serializer.serialize entry.2 = .ok raw)
    (hlimit : 2 * entries.length ≤ service.argumentLimit) (store : RedisStore) :
    ((service.mset keyPrefix entries).exec answer (now, store)).state =
      ((service.setEach keyPrefix entries).exec answer (now, store)).state := by
  by_cases hne : entries = []
  · subst hne
    rfl
  rcases refused_or_ready service keyPrefix with ⟨thrown, hrefused⟩ | ⟨hpre, client, hclient⟩
  · obtain ⟨⟨id, value⟩, rest, rfl⟩ := List.exists_cons_of_ne_nil hne
    obtain ⟨raw, hraw⟩ := hencodable (id, value) List.mem_cons_self
    rw [hrefused.mset hids hencodable hne, CacheService.setEach,
      hrefused.set (hids (id, value) List.mem_cons_self) hraw]
    rfl
  · obtain ⟨given, hgiven⟩ := sentAs_of_encodable hpre hids hencodable
    rw [mset_exec hredis hclient hgiven hne hlimit, setEach_exec hredis hclient hgiven]

/-- **`mget`** returns what a loop of `get` returns, value by value, where the
keys hold strings or nothing. -/
theorem mget_agrees {ids : List Text} (hids : ∀ id ∈ ids, id ≠ [])
    (hlimit : ids.length ≤ service.argumentLimit) (store : RedisStore)
    (hstrings : ∀ id ∈ ids, ∀ key, service.keyBuilder.build keyPrefix id = .ok key →
      IsString (heldAt now (store key))) :
    ((service.mget keyPrefix ids).exec answer (now, store)).result =
      ids.mapM fun id => ((service.get keyPrefix id).exec answer (now, store)).result := by
  by_cases hne : ids = []
  · subst hne
    rfl
  rcases refused_or_ready service keyPrefix with ⟨thrown, hrefused⟩ | ⟨hpre, client, hclient⟩
  · have hget : ∀ id ∈ ids,
        ((service.get keyPrefix id).exec answer (now, store)).result = .error thrown := by
      intro id hid
      rw [hrefused.get (hids id hid)]
      rfl
    rw [hrefused.mget hids hne, mapM_eq_error hne hget]
    rfl
  · obtain ⟨keys, hkeys⟩ := keysOf_of_ne_nil service hpre hids
    rw [mget_result hredis hclient hkeys hne hlimit]
    clear hne hids hlimit
    induction hkeys with
    | nil => rfl
    | @cons id key ids keys hkey _ ih =>
        have hget := get_result hredis hclient hkey store (hstrings id List.mem_cons_self key hkey)
        rw [List.map_cons, List.mapM_cons, List.mapM_cons, hget,
          ih fun other hother => hstrings other (List.mem_cons_of_mem _ hother)]

/-- A present payload that does not decode. The batch throws a failed decode
then; where an earlier payload does not decode either, it is that one's. -/
theorem mget_undecodable (hserializer : service.serializer.FailsTyped) {client : ClientKind}
    (hclient : service.connection.getClient = .ok client) (hpre : keyPrefix ≠ [])
    {ids : List Text} (hids : ∀ id ∈ ids, id ≠ []) (hlimit : ids.length ≤ service.argumentLimit)
    (store : RedisStore) {id key raw : Text}
    {thrown : Thrown} (hid : id ∈ ids) (hkey : service.keyBuilder.build keyPrefix id = .ok key)
    (hheld : heldAt now (store key) = some (.string raw))
    (hraw : service.serializer.deserialize raw = .error thrown) :
    ∃ e : CacheException, ((service.mget keyPrefix ids).exec answer (now, store)).result =
      .error (.cache e) ∧ e.code = .DESERIALIZATION_FAILED := by
  obtain ⟨keys, hkeys⟩ := keysOf_of_ne_nil service hpre hids
  rw [mget_result hredis hclient hkeys (List.ne_nil_of_mem hid) hlimit]
  cases hresult : (keys.map fun key => mgetReply (heldAt now (store key))).mapM service.decode with
  | error failure =>
      obtain ⟨reply, -, hreply⟩ := exists_of_mapM_error hresult
      cases reply with
      | none => cases hreply
      | some payload =>
          cases hpayload : service.serializer.deserialize payload with
          | ok value => simp [CacheService.decode, hpayload, Except.map] at hreply
          | error other =>
              obtain ⟨e, rfl, hcode⟩ := hserializer payload other hpayload
              simp only [CacheService.decode, hpayload, Except.map, Except.error.injEq] at hreply
              exact ⟨e, by rw [hreply], hcode⟩
  | ok values =>
      -- then the payload would decode
      obtain ⟨same, hmem, hsame⟩ := mem_of_mapM_ok (mapM_eq_ok_iff.mpr hkeys) hid
      obtain rfl : key = same := Except.ok.inj (hkey.symm.trans hsame)
      obtain ⟨value, -, hvalue⟩ := mem_of_mapM_ok hresult (List.mem_map_of_mem hmem)
      simp [hheld, mgetReply, CacheService.decode, hraw, Except.map] at hvalue

/-- **`delMany`** leaves the store of a loop of `del` and returns the
same count. -/
theorem delMany_agrees {ids : List Text} (hids : ∀ id ∈ ids, id ≠ [])
    (hlimit : ids.length ≤ service.argumentLimit) (store : RedisStore) :
    ((service.delMany keyPrefix ids).exec answer (now, store)).state =
      ((service.delEach keyPrefix ids).exec answer (now, store)).state ∧
    ∀ count, ((service.delMany keyPrefix ids).exec answer (now, store)).result = .ok count ↔
      ((service.delEach keyPrefix ids).exec answer (now, store)).result = .ok count := by
  by_cases hne : ids = []
  · subst hne
    exact ⟨rfl, fun _ => Iff.rfl⟩
  rcases refused_or_ready service keyPrefix with ⟨thrown, hrefused⟩ | ⟨hpre, client, hclient⟩
  · obtain ⟨id, rest, rfl⟩ := List.exists_cons_of_ne_nil hne
    obtain ⟨other, hdel⟩ := @RefusedWith.del T V _ _ _ hrefused id
    rw [hrefused.delMany hids hne, CacheService.delEach, hdel]
    exact ⟨rfl, fun count => ⟨nofun, nofun⟩⟩
  · obtain ⟨keys, hkeys⟩ := keysOf_of_ne_nil service hpre hids
    rw [delMany_exec hredis hclient hkeys hne hlimit, (delEach_exec hredis hclient hkeys store).1,
      (delEach_exec hredis hclient hkeys store).2]
    exact ⟨rfl, fun _ => Iff.rfl⟩

/-- **`hgetall`** returns a record with the names of the hash, each once, and
`hget` returns what the record has under each name. -/
theorem hgetall_agrees {client : ClientKind}
    (hclient : service.connection.getClient = .ok client) {id key : Text}
    (hkey : service.keyBuilder.build keyPrefix id = .ok key) (store : RedisStore)
    {fields : List (Text × Text)} (hhash : IsHash (heldAt now (store key)) fields)
    (hdecodes : ∀ field ∈ fields, ∃ value, service.serializer.deserialize field.2 = .ok value) :
    ∃ record, ((service.hgetall keyPrefix id).exec answer (now, store)).result = .ok record ∧
      (record.map Prod.fst).Perm (fields.map Prod.fst) ∧
      ∀ field, ((service.hget keyPrefix id field).exec answer (now, store)).result =
        .ok (record.lookup field) := by
  have hperm := objectEntries_perm fields
  obtain ⟨record, hrecord⟩ : ∃ record,
      (objectEntries fields).mapM service.decodeEntry = .ok record := by
    refine exists_mapM_ok fun entry hentry => ?_
    obtain ⟨value, hvalue⟩ := hdecodes entry (hperm.mem_iff.mp hentry)
    exact ⟨(entry.1, value), by simp [CacheService.decodeEntry, hvalue, Except.map]⟩
  have hdecoded := decodedAs_of_mapM hrecord
  have hresult := (hgetall_result hredis hclient hkey store hhash).trans hrecord
  refine ⟨record, hresult, ?_, fun field => ?_⟩
  · rw [hdecoded.names]
    exact hperm.map Prod.fst
  · rw [hget_result hredis hclient hkey store hhash,
      ← lookup_perm hperm ((hperm.map Prod.fst).nodup_iff.mpr hhash.nodup)]
    exact hdecoded.lookup field

end Agreement

end Documented

/-- **Batches agree with their single forms.** On a server with the documented
semantics, for every prefix and store, ids that are not empty and lists that
the engine takes as the arguments of one call: `mset` leaves what `set` on the
entries in order leaves; `mget` is `get` on each id, the first error included,
which is a failed decode for a payload that does not decode; `delMany` leaves
and counts what `del` on the ids in order does; and `hgetall` of a hash that
decodes has exactly its fields, each with what `hget` returns. -/
theorem batches_agree {T V : Type} (service : CacheService T)
    (answer : Nat × RedisStore → (c : ServiceCommand) → (Nat × RedisStore) × ServiceReply V c)
    (hredis : AnswersAsDocumented answer) (now : Nat) (store : RedisStore) (keyPrefix : Text) :
    (∀ entries : List (Text × T), (∀ entry ∈ entries, entry.1 ≠ []) →
      (∀ entry ∈ entries, ∃ raw, service.serializer.serialize entry.2 = .ok raw) →
      2 * entries.length ≤ service.argumentLimit →
      ((service.mset keyPrefix entries).exec answer (now, store)).state =
        ((service.setEach keyPrefix entries).exec answer (now, store)).state) ∧
    (∀ ids : List Text, (∀ id ∈ ids, id ≠ []) → ids.length ≤ service.argumentLimit →
      (∀ id ∈ ids, ∀ key, service.keyBuilder.build keyPrefix id = .ok key →
        IsString (heldAt now (store key))) →
      ((service.mget keyPrefix ids).exec answer (now, store)).result =
        ids.mapM fun id => ((service.get keyPrefix id).exec answer (now, store)).result) ∧
    (service.serializer.FailsTyped → ∀ client, service.connection.getClient = .ok client →
      keyPrefix ≠ [] → ∀ ids : List Text, (∀ id ∈ ids, id ≠ []) →
      ids.length ≤ service.argumentLimit → ∀ id ∈ ids, ∀ key raw thrown,
      service.keyBuilder.build keyPrefix id = .ok key →
      heldAt now (store key) = some (.string raw) →
      service.serializer.deserialize raw = .error thrown →
      ∃ e : CacheException, ((service.mget keyPrefix ids).exec answer (now, store)).result =
        .error (.cache e) ∧ e.code = .DESERIALIZATION_FAILED) ∧
    (∀ ids : List Text, (∀ id ∈ ids, id ≠ []) → ids.length ≤ service.argumentLimit →
      ((service.delMany keyPrefix ids).exec answer (now, store)).state =
        ((service.delEach keyPrefix ids).exec answer (now, store)).state ∧
      ∀ count, ((service.delMany keyPrefix ids).exec answer (now, store)).result = .ok count ↔
        ((service.delEach keyPrefix ids).exec answer (now, store)).result = .ok count) ∧
    (∀ client, service.connection.getClient = .ok client →
      ∀ id key fields, service.keyBuilder.build keyPrefix id = .ok key →
      IsHash (heldAt now (store key)) fields →
      (∀ field ∈ fields, ∃ value, service.serializer.deserialize field.2 = .ok value) →
      ∃ record, ((service.hgetall keyPrefix id).exec answer (now, store)).result = .ok record ∧
        (record.map Prod.fst).Perm (fields.map Prod.fst) ∧
        ∀ field, ((service.hget keyPrefix id field).exec answer (now, store)).result =
          .ok (record.lookup field)) :=
  ⟨fun _ hids hencodable hlimit => mset_agrees hredis hids hencodable hlimit store,
    fun _ hids hlimit hstrings => mget_agrees hredis hids hlimit store hstrings,
    fun hserializer _ hclient hpre _ hids hlimit _ hid _ _ _ hkey hheld hraw =>
      mget_undecodable hredis hserializer hclient hpre hids hlimit store hid hkey hheld hraw,
    fun _ hids hlimit => delMany_agrees hredis hids hlimit store,
    fun _ hclient _ _ _ hkey hhash hdecodes =>
      hgetall_agrees hredis hclient hkey store hhash hdecodes⟩

/-- A number under every key but two: a hash, and a string that is no
number. -/
def mixedStore : RedisStore := fun key =>
  if key = "app:users:h".toList then
    some ⟨.hash [("b".toList, "5".toList), ("1".toList, "6".toList)] (by decide), some 900⟩
  else if key = "app:users:x".toList then some (plainString (some "x".toList))
  else some ⟨.string "7".toList, some 900⟩

/-- Repeated ids, an existing TTL, a payload that does not decode, and a hash
with a name that is an array index. -/
theorem batches_agree_mixed :
    ((numberService.mset "users".toList [("a".toList, 1), ("b".toList, 2), ("a".toList, 3)]).exec
        redisAnswer (0, mixedStore)).state =
      ((numberService.setEach "users".toList
        [("a".toList, 1), ("b".toList, 2), ("a".toList, 3)]).exec redisAnswer
          (0, mixedStore)).state ∧
    ((numberService.mget "users".toList ["a".toList, "a".toList]).exec redisAnswer
        (0, mixedStore)).result =
      ["a".toList, "a".toList].mapM (fun id =>
        ((numberService.get "users".toList id).exec redisAnswer (0, mixedStore)).result) ∧
    (∃ e : CacheException, ((numberService.mget "users".toList ["a".toList, "x".toList]).exec
        redisAnswer (0, mixedStore)).result = .error (.cache e) ∧
      e.code = .DESERIALIZATION_FAILED) ∧
    (∀ count, ((numberService.delMany "users".toList ["a".toList, "b".toList, "a".toList]).exec
        redisAnswer (0, mixedStore)).result = .ok count ↔
      ((numberService.delEach "users".toList ["a".toList, "b".toList, "a".toList]).exec
        redisAnswer (0, mixedStore)).result = .ok count) ∧
    (∃ record, ((numberService.hgetall "users".toList "h".toList).exec redisAnswer
        (0, mixedStore)).result = .ok record ∧
      ∀ field, ((numberService.hget "users".toList "h".toList field).exec redisAnswer
        (0, mixedStore)).result = .ok (record.lookup field)) := by
  obtain ⟨hmset, hmget, hundecodable, hdelMany, hhgetall⟩ :=
    batches_agree numberService redisAnswer redisAnswer_documented 0 mixedStore "users".toList
  refine ⟨hmset _ (by decide) (fun _ _ => ⟨_, rfl⟩) (by decide),
    hmget _ (by decide) (by decide) fun id hid key hkey => ?_,
    hundecodable (JsonSerializer_failsTyped naturalJson) .redis rfl (by decide) _ (by decide)
      (by decide) "x".toList (by decide) _ "x".toList _ rfl rfl rfl,
    (hdelMany _ (by decide) (by decide)).2, ?_⟩
  · obtain rfl : id = "a".toList := by simpa using hid
    obtain rfl := Except.ok.inj hkey
    exact .inr ⟨"7".toList, rfl⟩
  · have hdecodes : ∀ field ∈ [("b".toList, "5".toList), ("1".toList, "6".toList)],
        ∃ value, numberService.serializer.deserialize field.2 = .ok value := by
      intro field hfield
      rcases List.mem_pair.mp hfield with rfl | rfl
      · exact ⟨5, rfl⟩
      · exact ⟨6, rfl⟩
    obtain ⟨record, hrecord, -, hfields⟩ :=
      hhgetall .redis rfl "h".toList _ _ rfl (.inr ⟨by decide, rfl⟩) hdecodes
    exact ⟨record, hrecord, hfields⟩

/-! ## Lists that are too long -/

section Overflow

variable {T V : Type} {service : CacheService T} {keyPrefix : Text}

/-- **A list beyond the limit.** A batch whose keys are composed, whose
entries are encoded and whose client is there rejects with the error of the
engine, and sends nothing, when its command would take more arguments than a
call takes. -/
theorem batches_overflow {client : ClientKind}
    (hclient : service.connection.getClient = .ok client) (hpre : keyPrefix ≠ []) :
    (∀ entries : List (Text × T), (∀ entry ∈ entries, entry.1 ≠ []) →
      (∀ entry ∈ entries, ∃ raw, service.serializer.serialize entry.2 = .ok raw) →
      service.argumentLimit < 2 * entries.length →
      (service.mset keyPrefix entries : ServiceDialogue V _) = .fail argumentRangeError) ∧
    ∀ ids : List Text, (∀ id ∈ ids, id ≠ []) → service.argumentLimit < ids.length →
      (service.mget keyPrefix ids : ServiceDialogue V _) = .fail argumentRangeError ∧
      (service.delMany keyPrefix ids : ServiceDialogue V _) = .fail argumentRangeError := by
  refine ⟨fun entries hids hencodable hlimit => ?_, fun ids hids hlimit => ?_⟩
  · have hlength : ¬ entries.length = 0 := by omega
    obtain ⟨given, hgiven⟩ := sentAs_of_encodable hpre hids hencodable
    have hspread := service.spread_overflows (V := V) (hlimit.trans_eq hgiven.length_arguments.symm)
    simp only [CacheService.mset, if_neg hlength, hgiven.msetPairs, CacheService.client, hclient,
      hspread, Dialogue.bind_eq, Dialogue.ofExcept, Dialogue.bind]
  · have hlength : ¬ ids.length = 0 := by omega
    obtain ⟨keys, hkeys⟩ := keysOf_of_ne_nil service hpre hids
    have hspread := service.spread_overflows (V := V) (hlimit.trans_eq hkeys.length_eq.symm)
    constructor
    · simp only [CacheService.mget, if_neg hlength, mapM_eq_ok_iff.mpr hkeys, CacheService.client,
        hclient, hspread, Dialogue.bind_eq, Dialogue.ofExcept, Dialogue.bind]
    · simp only [CacheService.delMany, if_neg hlength, mapM_eq_ok_iff.mpr hkeys,
        CacheService.client, hclient, hspread, Dialogue.bind_eq, Dialogue.ofExcept, Dialogue.bind]

end Overflow

/-- **Refused as a whole.** A list with an empty id is refused before anything
is sent, and so is one that is longer than a call takes arguments, whereas
`del` on one id after the other has removed the ids before the empty one, and
all of the long list. -/
theorem delMany_refuses :
    (¬ ∀ (service : CacheService Nat) (keyPrefix : Text) (ids : List Text) (now : Nat)
        (store : RedisStore),
        (∀ id ∈ ids, ∀ key, service.keyBuilder.build keyPrefix id = .ok key →
          IsString (heldAt now (store key))) →
        ((service.delMany keyPrefix ids).exec redisAnswer (now, store)).state =
          ((service.delEach keyPrefix ids).exec redisAnswer (now, store)).state) ∧
    ¬ ∀ (service : CacheService Nat) (keyPrefix : Text) (ids : List Text) (now : Nat)
        (store : RedisStore), (∀ id ∈ ids, id ≠ []) →
        (∀ id ∈ ids, ∀ key, service.keyBuilder.build keyPrefix id = .ok key →
          IsString (heldAt now (store key))) →
        ((service.delMany keyPrefix ids).exec redisAnswer (now, store)).state =
          ((service.delEach keyPrefix ids).exec redisAnswer (now, store)).state := by
  let sevens : RedisStore := fun _ => some (plainString (some "7".toList))
  constructor
  · intro h
    have hclaim := h numberService "users".toList ["a".toList, []] 0 sevens
      fun _ _ _ _ => .inr ⟨_, rfl⟩
    have hheld := congrArg (fun state => isHeld state.1 (state.2 "app:users:a".toList)) hclaim
    exact absurd hheld (by decide)
  · intro h
    have hids : ∀ id ∈ List.replicate 120001 "a".toList, id ≠ [] := by
      intro id hid
      rw [List.eq_of_mem_replicate hid]
      decide
    have hlimit : numberService.argumentLimit < (List.replicate 120001 "a".toList).length := by
      rw [List.length_replicate]
      decide
    have hclaim := h numberService "users".toList _ 0 sevens hids fun _ _ _ _ => .inr ⟨_, rfl⟩
    obtain ⟨keys, hkeys⟩ := keysOf_of_ne_nil numberService (by decide : "users".toList ≠ []) hids
    have hrefused : (numberService.delMany "users".toList (List.replicate 120001 "a".toList) :
        ServiceDialogue Unit Int) = .fail argumentRangeError :=
      ((batches_overflow rfl (by decide)).2 _ hids hlimit).2
    rw [hrefused, (delEach_exec redisAnswer_documented rfl hkeys sevens).1] at hclaim
    obtain ⟨key, hkey, -⟩ := mem_of_mapM_ok (mapM_eq_ok_iff.mpr hkeys)
      (List.mem_replicate.mpr ⟨by decide, rfl⟩)
    have hheld := congrArg (fun state => state.2 key) hclaim
    simp [sevens, dropAll, hkey] at hheld

end NestCache
