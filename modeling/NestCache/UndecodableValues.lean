import NestCache.BulkOperations

/-!
# What an undecodable value reveals

Two stores may differ in payloads that are no JSON, each pair of one length.
With the default serializer no read tells them apart: a failed decode is
reported with a fixed text and the length of the payload
(`undecodable_reveals_length`).
-/

namespace NestCache

open Dialogue

/-! ## Stores that differ in what is no JSON -/

section Alike

variable {T : Type} (json : JsonRuntime T)

/-- A payload that is no JSON. -/
def Undecodable (raw : Text) : Prop := ∃ err, json.parse raw = .error err

/-- The same payload, or two that are no JSON, of one length. -/
inductive PayloadAlike (raw : Text) : Text → Prop
  | same : PayloadAlike raw raw
  | undecodable {raw' : Text} (h : Undecodable json raw) (h' : Undecodable json raw')
      (hlength : raw.codeUnits.length = raw'.codeUnits.length) : PayloadAlike raw raw'

/-- Fields with the same names and payloads that are alike. -/
def FieldsAlike : List (Text × Text) → List (Text × Text) → Prop :=
  List.Forall₂ fun field field' => field.1 = field'.1 ∧ PayloadAlike json field.2 field'.2

/-- Values of one type. The payloads of a string and of the fields of a hash
are alike; the reads below do not look into the other types. -/
inductive ValueAlike : StoredValue → StoredValue → Prop
  | string {raw raw' : Text} (h : PayloadAlike json raw raw') :
      ValueAlike (.string raw) (.string raw')
  | hash {fields fields' : List (Text × Text)} (distinct : (fields.map Prod.fst).Nodup)
      (distinct' : (fields'.map Prod.fst).Nodup) (h : FieldsAlike json fields fields') :
      ValueAlike (.hash fields distinct) (.hash fields' distinct')
  | set (members members' : List Text) : ValueAlike (.set members) (.set members')
  | list (items items' : List Text) : ValueAlike (.list items) (.list items')
  | zset (pairs pairs' : List ScoredMember) : ValueAlike (.zset pairs) (.zset pairs')

/-- Entries that expire together. -/
structure EntryAlike (entry entry' : StoreEntry) : Prop where
  value : ValueAlike json entry.value entry'.value
  expiresAt : entry.expiresAt = entry'.expiresAt

/-- Stores with the same keys, whose entries are alike. -/
def StoreAlike (store store' : RedisStore) : Prop :=
  ∀ key, Option.Rel (EntryAlike json) (store key) (store' key)

/-- Every value is like itself. -/
theorem ValueAlike.refl (value : StoredValue) : ValueAlike json value value := by
  cases value with
  | string raw => exact .string .same
  | hash fields distinct =>
      exact .hash distinct distinct (List.forall₂_same.mpr fun _ _ => ⟨rfl, .same⟩)
  | set members => exact .set members members
  | list items => exact .list items items
  | zset pairs => exact .zset pairs pairs

/-- Every store is like itself. -/
theorem StoreAlike.refl (store : RedisStore) : StoreAlike json store store := by
  intro key
  cases store key with
  | none => exact .none
  | some entry => exact .some ⟨.refl json entry.value, rfl⟩

end Alike

/-- The reads that decode what they find. -/
def ServiceCall.isDecodingRead {T : Type} : ServiceCall T → Bool
  | .get _ _ | .mget _ _ | .hget _ _ _ | .hgetall _ _ => true
  | _ => false

variable {T V : Type} {json : JsonRuntime T}

/-! ## Decoding -/

/-- A failed decode is reported with a fixed text and a length. -/
theorem deserialize_undecodable {raw : Text} (h : Undecodable json raw) :
    (JsonSerializer json).deserialize raw = throwCache .DESERIALIZATION_FAILED
      [detail "error" DESERIALIZATION_ERROR, ("length", .number (.ofNat raw.codeUnits.length))] := by
  obtain ⟨err, herr⟩ := h
  simp [JsonSerializer, herr]

/-- The response to a failed decode shows the length and nothing else of the
payload. -/
theorem response_of_undecodable {raw : Text} (h : Undecodable json raw) :
    ∃ e : CacheException, (JsonSerializer json).deserialize raw = .error (.cache e) ∧
      e.response =
        { statusCode := 500
          code := .DESERIALIZATION_FAILED
          message := "Failed to deserialize the cached value.".toList
          details := some [detail "error" DESERIALIZATION_ERROR,
            ("length", .number (.ofNat raw.codeUnits.length))] } :=
  ⟨_, deserialize_undecodable h, rfl⟩

/-- Payloads that are alike decode to the same value or fail with the same
exception. -/
theorem PayloadAlike.deserialize {raw raw' : Text} (h : PayloadAlike json raw raw') :
    (JsonSerializer json).deserialize raw = (JsonSerializer json).deserialize raw' := by
  cases h with
  | same => rfl
  | undecodable h h' hlength =>
      rw [deserialize_undecodable h, deserialize_undecodable h', hlength]

section Replies

variable {service : CacheService T} (hserializer : service.serializer = JsonSerializer json)

include hserializer

/-- **Payloads that are alike decode alike**: to the same value, or to an
exception that tells no more than their length. -/
theorem decode_alike {raw raw' : Option Text} (h : Option.Rel (PayloadAlike json) raw raw') :
    service.decode raw = service.decode raw' := by
  cases h with
  | none => rfl
  | some h => simp only [CacheService.decode, hserializer, h.deserialize]

/-- So do fields of the same name. -/
theorem decodeEntry_alike {field field' : Text × Text} (hname : field.1 = field'.1)
    (h : PayloadAlike json field.2 field'.2) :
    service.decodeEntry field = service.decodeEntry field' := by
  simp only [CacheService.decodeEntry, hserializer, h.deserialize, hname]

end Replies

/-! ## Sorted fields -/

/-- Inserting into related lists by comparisons that agree. The induction is on
the lists; the comparisons decide alike where the element goes. -/
theorem forall₂_orderedInsert {α β : Type} {R : α → β → Prop} {r : α → α → Prop}
    {s : β → β → Prop} [DecidableRel r] [DecidableRel s]
    (hcompare : ∀ a a' b b', R a b → R a' b' → (r a a' ↔ s b b')) {a : α} {b : β} (hab : R a b)
    {l : List α} {l' : List β} (h : List.Forall₂ R l l') :
    List.Forall₂ R (l.orderedInsert r a) (l'.orderedInsert s b) := by
  induction h with
  | nil => exact .cons hab .nil
  | @cons first first' rest rest' hfirst hrest ih =>
      rw [List.orderedInsert_cons, List.orderedInsert_cons]
      by_cases hle : r a first
      · rw [if_pos hle, if_pos ((hcompare _ _ _ _ hab hfirst).mp hle)]
        exact .cons hab (.cons hfirst hrest)
      · rw [if_neg hle, if_neg fun hs => hle ((hcompare _ _ _ _ hab hfirst).mpr hs)]
        exact .cons hfirst ih

/-- Lists that are related element by element are sorted into related lists,
if the two orders agree on related elements; the induction is on the lists. -/
theorem forall₂_insertionSort {α β : Type} {R : α → β → Prop} {r : α → α → Prop}
    {s : β → β → Prop} [DecidableRel r] [DecidableRel s]
    (hcompare : ∀ a a' b b', R a b → R a' b' → (r a a' ↔ s b b')) {l : List α} {l' : List β}
    (h : List.Forall₂ R l l') : List.Forall₂ R (l.insertionSort r) (l'.insertionSort s) := by
  induction h with
  | nil => exact .nil
  | cons hfirst _ ih => exact forall₂_orderedInsert hcompare hfirst ih

/-- The order of entries depends on their names only. -/
theorem FieldsAlike.objectEntries {fields fields' : List (Text × Text)}
    (h : FieldsAlike json fields fields') :
    FieldsAlike json (NestCache.objectEntries fields) (NestCache.objectEntries fields') := by
  refine List.rel_append (forall₂_insertionSort ?_ (List.rel_filter ?_ h)) (List.rel_filter ?_ h)
  · intro field next field' next' hfield hnext
    rw [hfield.1, hnext.1]
  · intro field field' hfield
    simp only [hfield.1]
  · intro field field' hfield
    simp only [hfield.1]

/-- Fields that are alike have payloads that are alike under every name,
or none. -/
theorem FieldsAlike.lookup {fields fields' : List (Text × Text)} (h : FieldsAlike json fields fields')
    (name : Text) : Option.Rel (PayloadAlike json) (fields.lookup name) (fields'.lookup name) := by
  induction h with
  | nil => exact .none
  | @cons field field' rest rest' hfield _ ih =>
      obtain ⟨first, raw⟩ := field
      obtain ⟨first', raw'⟩ := field'
      obtain ⟨rfl, hraw⟩ := hfield
      rw [List.lookup_cons, List.lookup_cons]
      cases name == first with
      | true => exact .some hraw
      | false => exact ih

/-! ## Replies -/

/-- What a key holds is alike in both stores at all times. Entries that are
alike have the same deadline, so they expire together. -/
theorem StoreAlike.held {store store' : RedisStore} (h : StoreAlike json store store') (now : Nat)
    (key : Text) :
    Option.Rel (ValueAlike json) (heldAt now (store key)) (heldAt now (store' key)) := by
  have hentry := h key
  revert hentry
  generalize store key = entry
  generalize store' key = entry'
  intro hentry
  cases hentry with
  | none => exact .none
  | some hentry =>
      simp only [heldAt, hentry.expiresAt]
      split
      · exact .some hentry.value
      · exact .none

section Reads

variable {service : CacheService T} (hserializer : service.serializer = JsonSerializer json)
  {held held' : Option StoredValue} (h : Option.Rel (ValueAlike json) held held')

include h

/-- Values that are alike are replied to `MGET` as payloads that are alike. -/
theorem mgetReply_alike : Option.Rel (PayloadAlike json) (mgetReply held) (mgetReply held') := by
  cases h with
  | none => exact .none
  | some h =>
      cases h with
      | string h => exact .some h
      | _ => exact .none

include hserializer

/-- `GET`, decoded. -/
theorem get_alike : (awaitReply (getReply held)).bind service.decode =
    (awaitReply (getReply held')).bind service.decode := by
  cases h with
  | none => rfl
  | some h =>
      cases h with
      | string h => exact decode_alike hserializer (.some h)
      | _ => rfl

/-- `HGET`, decoded. -/
theorem hget_alike (field : Text) : (awaitReply (hgetReply held field)).bind service.decode =
    (awaitReply (hgetReply held' field)).bind service.decode := by
  cases h with
  | none => rfl
  | some h =>
      cases h with
      | hash _ _ h => exact decode_alike hserializer (h.lookup field)
      | _ => rfl

/-- `HGETALL`, decoded entry by entry. -/
theorem hgetall_alike :
    ((awaitReply (hgetallReply held)).bind fun all =>
        (objectEntries all).mapM service.decodeEntry) =
      (awaitReply (hgetallReply held')).bind fun all =>
        (objectEntries all).mapM service.decodeEntry := by
  cases h with
  | none => rfl
  | some h =>
      cases h with
      | hash _ _ h =>
          exact mapM_congr_forall₂ (h.objectEntries.imp fun _ _ hfield =>
            decodeEntry_alike hserializer hfield.1 hfield.2)
      | _ => rfl

end Reads

/-- `MGET`, decoded key by key. -/
theorem mget_alike {service : CacheService T} (hserializer : service.serializer = JsonSerializer json)
    {store store' : RedisStore} (h : StoreAlike json store store') (now : Nat) (keys : List Text) :
    (keys.map fun key => mgetReply (heldAt now (store key))).mapM service.decode =
      (keys.map fun key => mgetReply (heldAt now (store' key))).mapM service.decode := by
  refine mapM_congr_forall₂ ?_
  rw [List.forall₂_map_left_iff, List.forall₂_map_right_iff, List.forall₂_same]
  exact fun key _ => decode_alike hserializer (mgetReply_alike (h.held now key))

/-! ## Calls -/

/-- **What an undecodable value reveals.** With the default serializer and
on stores that differ only in what is no JSON, pair by pair of one length,
every read that decodes ends in the same result or with the same exception;
and what a failed decode is served as shows the length and nothing else of
the payload. -/
theorem undecodable_reveals_length (json : JsonRuntime T) (service : CacheService T)
    (hserializer : service.serializer = JsonSerializer json)
    (answer : Nat × RedisStore → (c : ServiceCommand) → (Nat × RedisStore) × ServiceReply V c)
    (hredis : AnswersAsDocumented answer) (now : Nat) (store store' : RedisStore)
    (h : StoreAlike json store store') (call : ServiceCall T) (hcall : call.isDecodingRead = true) :
    ((service.run call).exec answer (now, store)).result =
      ((service.run call).exec answer (now, store')).result ∧
    ∀ raw, Undecodable json raw → ∃ e : CacheException,
      service.serializer.deserialize raw = .error (.cache e) ∧
      e.response =
        { statusCode := 500
          code := .DESERIALIZATION_FAILED
          message := "Failed to deserialize the cached value.".toList
          details := some [detail "error" DESERIALIZATION_ERROR,
            ("length", .number (.ofNat raw.codeUnits.length))] } := by
  refine ⟨?_, fun raw hraw => hserializer ▸ response_of_undecodable hraw⟩
  have hread : ∀ {α : Type} (c : KeyCommand) {f : KeyReply c → Except Thrown α},
      (awaitReply (answer (now, store) (.key c)).2).bind f =
        (awaitReply (answer (now, store') (.key c)).2).bind f →
      EndsAlike answer (now, store) (now, store') ((onKeys c).bind fun r => .ofExcept (f r)) := by
    intro α c f hreply
    rw [onKeys, request_bind_ofExcept]
    exact .request hreply
  cases call with
  | get keyPrefix id =>
      refine EndsAlike.map (.prepare _ fun key _ => .prepare _ fun _ _ => hread (.get key) ?_) _
      rw [hredis.get, hredis.get]
      exact get_alike hserializer (h.held now key)
  | hget keyPrefix id field =>
      refine EndsAlike.map (.prepare _ fun key _ => .prepare _ fun _ _ => hread (.hget key field) ?_) _
      rw [hredis.hget, hredis.hget]
      exact hget_alike hserializer (h.held now key) field
  | hgetall keyPrefix id =>
      refine EndsAlike.map (.prepare _ fun key _ => .prepare _ fun _ _ => hread (.hgetall key) ?_) _
      rw [hredis.hgetall, hredis.hgetall]
      exact hgetall_alike hserializer (h.held now key)
  | mget keyPrefix ids =>
      refine EndsAlike.map ?_ _
      unfold CacheService.mget
      split
      · exact endsAlike_ofExcept (.ok [])
      · rename_i hids
        refine .prepare _ fun built hkeys => .prepare _ fun _ _ =>
          .prepare _ fun keys hspread => hread (.mget keys) ?_
        obtain ⟨-, rfl⟩ := spreadArguments_eq_ok.mp hspread
        have hne : keys ≠ [] := KeysOf.ne_nil (mapM_eq_ok_iff.mp hkeys) (by simpa using hids)
        rw [hredis.mget now store keys hne, hredis.mget now store' keys hne]
        exact mget_alike hserializer h now keys
  | _ => cases hcall

/-- A store with a payload that is no JSON under one key. -/
def corruptedStore (payload : Text) : RedisStore := fun key =>
  if key = "app:users:x".toList then some ⟨.string payload, none⟩ else mixedStore key

/-- A batch that meets the undecodable payload second. The first payload of the
batch decodes in both stores. -/
theorem undecodable_reveals_length_mget :
    ((numberService.run (.mget "users".toList ["a".toList, "x".toList])).exec redisAnswer
        (0, corruptedStore "pin=1234".toList)).result =
      ((numberService.run (.mget "users".toList ["a".toList, "x".toList])).exec redisAnswer
        (0, corruptedStore "pin=9876".toList)).result := by
  have hundecodable : ∀ raw : Text, arrayIndex? raw = none → Undecodable naturalJson raw :=
    fun raw hraw => ⟨.error "Unexpected token".toList, by simp [naturalJson, hraw]⟩
  have hpayload : PayloadAlike naturalJson "pin=1234".toList "pin=9876".toList :=
    .undecodable (hundecodable _ (by decide)) (hundecodable _ (by decide)) (by decide)
  refine (undecodable_reveals_length naturalJson numberService rfl redisAnswer
    redisAnswer_documented 0 _ _ (fun key => ?_) _ rfl).1
  by_cases hkey : key = "app:users:x".toList
  · simp only [corruptedStore, if_pos hkey]
    exact .some ⟨.string hpayload, rfl⟩
  · simp only [corruptedStore, if_neg hkey]
    exact StoreAlike.refl naturalJson mixedStore key

end NestCache
