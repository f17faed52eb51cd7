import NestCache.JsonEncoder
import NestCache.RedisStore

/-!
# Failing closed on encode

The guard of `serialize` refuses the types without text up front, and looks at
the value as it was passed.  The encoder looks at what `toJSON` returned.  The two
agree except on values that pass the guard and are replaced by one without text
(`Vanishes`): for these `serialize` returns `undefined`.

* `serialize_closed_iff` — exactly then is the result neither a string nor a
  refusal;
* `writes_carry` — a write sends what `serialize` returned for its values, so the
  strings of the encoder, unless one of them vanishes.
-/

namespace NestCache

open Dialogue

/-! ## One value -/

/-- A string, or the refusal of the library. -/
def ClosedResult (result : Except Thrown Payload) : Prop :=
  (∃ text, result = .ok (some text)) ∨
    ∃ e : CacheException, result = .error (.cache e) ∧ e.code = .SERIALIZATION_FAILED

/-- The value passes the guard, and its `toJSON` returns one without text. -/
def JsValue.Vanishes (value : JsValue) : Prop :=
  hasNoText value.typeOf = false ∧
    ∃ substitute, value.toJSON = some (.ok substitute) ∧ hasNoText substitute.typeOf = true

section Encoding

variable (numeral : JsNumber → Text) (parse : Text → Except Reason JsValue)

/-- `JsonSerializer` on JavaScript values. -/
def jsonSerializer : Serializer JsValue := JsonSerializer (jsonRuntime numeral parse)

/-- `serialize` is the guard, then the encoder. -/
theorem serialize_eq (value : JsValue) : (jsonSerializer numeral parse).serialize value =
    if hasNoText value.typeOf = true then
      throwCache .SERIALIZATION_FAILED
        [detail "error" "Cannot serialize a top-level undefined, function, or symbol value"]
    else match encodeValue numeral value with
      | .ok raw => .ok raw
      | .error err => throwCache .SERIALIZATION_FAILED [("error", .text (describeError err))] := by
  simp only [hasNoText, decide_eq_true_eq]
  rfl

/-- **The guard and the encoder.**  `serialize` fails closed exactly on the
values that do not vanish. -/
theorem serialize_closed_iff (value : JsValue) :
    ClosedResult ((jsonSerializer numeral parse).serialize value) ↔ ¬ value.Vanishes := by
  rw [serialize_eq]
  by_cases hguard : hasNoText value.typeOf = true
  · rw [if_pos hguard]
    exact iff_of_true (Or.inr ⟨_, rfl, rfl⟩) fun h => by simp [h.1] at hguard
  · rw [if_neg hguard]
    have hnone := encodeValue_eq_none numeral value
    cases hencoded : encodeValue numeral value with
    | error err =>
        refine iff_of_true (Or.inr ⟨_, rfl, rfl⟩) fun ⟨_, hsubstitute⟩ => ?_
        rw [hnone.mpr (Or.inr hsubstitute)] at hencoded
        cases hencoded
    | ok raw =>
        cases raw with
        | none =>
            -- the encoder returned `undefined`
            have hvanishes : value.Vanishes := by
              rcases hnone.mp hencoded with ⟨-, htype⟩ | hsubstitute
              · exact absurd htype hguard
              · exact ⟨by simpa using hguard, hsubstitute⟩
            refine iff_of_false ?_ (not_not.mpr hvanishes)
            rintro (⟨text, heq⟩ | ⟨e, heq, -⟩)
            · cases heq
            · cases heq
        | some text =>
            refine iff_of_true (Or.inl ⟨text, rfl⟩) fun ⟨_, hsubstitute⟩ => ?_
            rw [hnone.mpr (Or.inr hsubstitute)] at hencoded
            cases hencoded

/-- A value that vanishes passes the guard and the encoder. -/
theorem JsValue.Vanishes.serialize_eq {value : JsValue} (hvalue : value.Vanishes) :
    (jsonSerializer numeral parse).serialize value = .ok none := by
  rw [NestCache.serialize_eq, if_neg (by simp [hvalue.1]),
    (encodeValue_eq_none numeral value).mpr (Or.inr hvalue.2)]

/-- The payload is the string the encoder made of one of the values. -/
def EncoderString (values : List JsValue) (raw : Payload) : Prop :=
  ∃ value ∈ values, ∃ text, raw = some text ∧ encodeValue numeral value = .ok (some text)

/-- What `serialize` returns is the encoder's string, unless the value
vanishes. -/
theorem encoderString_of_serialize {value : JsValue} (hvalue : ¬ value.Vanishes) {raw : Payload}
    (h : (jsonSerializer numeral parse).serialize value = .ok raw) {values : List JsValue}
    (hmem : value ∈ values) : EncoderString numeral values raw := by
  rcases (serialize_closed_iff numeral parse value).mpr hvalue with ⟨text, htext⟩ | ⟨e, he, -⟩
  · obtain rfl : raw = some text := Except.ok.inj (h.symm.trans htext)
    refine ⟨value, hmem, text, rfl, ?_⟩
    rw [NestCache.serialize_eq] at h
    split at h
    · cases h
    · split at h
      · rename_i hencoded
        rw [hencoded, Except.ok.inj h]
      · cases h
  · rw [he] at h
    cases h

end Encoding

/-! ## Writes -/

/-- The payloads of a command. -/
def ServiceCommand.payloads : ServiceCommand → List Payload
  | .key (.set _ raw _ _) | .key (.hset _ _ raw) | .publish _ raw => [raw]
  | .key (.mset pairs) => (msetEntries pairs).map Prod.snd
  | _ => []

/-- The values that a call encodes: those of `set`, `setNx`, `hset`, `mset` and
`publish`. -/
def ServiceCall.encodes {T : Type} : ServiceCall T → Option (List T)
  | .set _ _ value _ | .setNx _ _ value _ | .hset _ _ _ value | .publish _ value => some [value]
  | .mset _ entries => some (entries.map Prod.snd)
  | _ => none

section Writes

variable {T V : Type} {service : CacheService T} {values : List T}

/-- The payloads of the command are what `serialize` returned for the values,
in their order. -/
def Carries (service : CacheService T) (values : List T) (c : ServiceCommand) : Prop :=
  values.map service.serializer.serialize = c.payloads.map .ok

/-- A command with one payload. -/
theorem carries_one {value : T} {raw : Payload} (hraw : service.serializer.serialize value = .ok raw)
    {c : ServiceCommand} (hc : c.payloads = [raw]) : Carries service [value] c := by
  rw [Carries, hc, List.map_singleton, List.map_singleton, hraw]

/-- The payloads of `mset` are those of its entries. The induction is on the
entries, each of which is composed and encoded before the next. -/
theorem carries_msetPairs {keyPrefix : Text} {entries : List (Text × T)} {pairs : List Payload}
    (h : service.msetPairs keyPrefix entries = .ok pairs) :
    Carries service (entries.map Prod.snd) (.key (.mset pairs)) := by
  induction entries generalizing pairs with
  | nil =>
      obtain rfl : [] = pairs := Except.ok.inj h
      rfl
  | cons entry rest ih =>
      obtain ⟨id, value⟩ := entry
      obtain ⟨key, hkey, h⟩ := ok_of_bind_ok h
      obtain ⟨raw, hraw, h⟩ := ok_of_bind_ok h
      obtain ⟨later, hlater, h⟩ := ok_of_bind_ok h
      obtain rfl : some key :: raw :: later = pairs := Except.ok.inj h
      have hrest := ih hlater
      simp only [Carries, ServiceCommand.payloads, msetEntries, List.map_cons] at hrest ⊢
      rw [hraw, hrest]

/-- The command that ends a method, its reply read. -/
theorem onKeys_carries {c : KeyCommand} (hc : Carries service values (.key c)) {α : Type}
    (f : KeyReply c → α) :
    ((onKeys c : ServiceDialogue V _).map f).Sends (fun _ _ => True) (Carries service values) :=
  Sends.map ((sends_request _ _).mpr hc) f

/-- `set` from the TTL check on. -/
theorem write_carries {key : Text} {value : T} {raw : Payload}
    (hraw : service.serializer.serialize value = .ok raw) (ttlSeconds : Option JsNumber) :
    (service.write key raw ttlSeconds : ServiceDialogue V Unit).Sends (fun _ _ => True)
      (Carries service [value]) := by
  have hset : ∀ ex, Carries service [value] (.key (.set key raw ex false)) :=
    fun ex => carries_one hraw rfl
  cases ttlSeconds with
  | none =>
      refine (sends_ofExcept_bind _ _).mpr fun _ _ => ?_
      exact onKeys_carries (hset none) fun _ => ()
  | some ttl =>
      refine (sends_ofExcept_bind _ _).mpr fun _ _ => (sends_ofExcept_bind _ _).mpr fun _ _ => ?_
      exact onKeys_carries (hset (some ttl)) fun _ => ()

/-- **What a write sends.** With any serializer and whatever the server
replies, each command of a call that encodes values carries all of them. -/
theorem writes_carry {call : ServiceCall T} (hencodes : call.encodes = some values) :
    (service.run call : ServiceDialogue V (ServiceResult T V)).Sends (fun _ _ => True)
      (Carries service values) := by
  cases call with
  | set keyPrefix id value ttlSeconds =>
      obtain rfl : [value] = values := Option.some.inj hencodes
      refine Sends.map ((sends_ofExcept_bind _ _).mpr fun key _ =>
        (sends_ofExcept_bind _ _).mpr fun raw hraw => ?_) _
      exact write_carries hraw ttlSeconds
  | setNx keyPrefix id value ttlSeconds =>
      obtain rfl : [value] = values := Option.some.inj hencodes
      refine Sends.map ((sends_ofExcept_bind _ _).mpr fun key _ =>
        (sends_ofExcept_bind _ _).mpr fun raw hraw => (sends_ofExcept_bind _ _).mpr fun _ _ =>
          (sends_ofExcept_bind _ _).mpr fun _ _ => ?_) _
      exact onKeys_carries (carries_one hraw rfl) _
  | hset keyPrefix id field value =>
      obtain rfl : [value] = values := Option.some.inj hencodes
      refine Sends.map ((sends_ofExcept_bind _ _).mpr fun key _ =>
        (sends_ofExcept_bind _ _).mpr fun _ _ => (sends_ofExcept_bind _ _).mpr fun raw hraw => ?_) _
      exact (sends_request _ _).mpr (carries_one hraw rfl)
  | publish channel message =>
      obtain rfl : [message] = values := Option.some.inj hencodes
      refine Sends.map ((sends_ofExcept_bind _ _).mpr fun fullChannel _ =>
        (sends_ofExcept_bind _ _).mpr fun raw hraw => (sends_ofExcept_bind _ _).mpr fun _ _ => ?_) _
      exact (sends_request _ _).mpr (carries_one hraw rfl)
  | mset keyPrefix entries =>
      obtain rfl : entries.map Prod.snd = values := Option.some.inj hencodes
      refine Sends.map ?_ _
      unfold CacheService.mset
      split
      · trivial
      · refine (sends_ofExcept_bind _ _).mpr fun pairs hpairs =>
          (sends_ofExcept_bind _ _).mpr fun _ _ =>
            (sends_ofExcept_bind _ _).mpr fun arguments harguments => ?_
        obtain ⟨-, rfl⟩ := spreadArguments_eq_ok.mp harguments
        exact onKeys_carries (carries_msetPairs hpairs) _
  | _ => cases hencodes

end Writes

/-! ## Encoded writes -/

section EncodedWrites

variable {numeral : JsNumber → Text} {parse : Text → Except Reason JsValue}
  {service : CacheService JsValue} {values : List JsValue} {c : ServiceCommand}

/-- Every payload of the command is the encoder's string for one of the
values. -/
def Encoded (numeral : JsNumber → Text) (values : List JsValue) (c : ServiceCommand) : Prop :=
  ∀ raw ∈ c.payloads, EncoderString numeral values raw

/-- A vanishing value is carried as `undefined`, any other one as the encoder's
string. -/
theorem Carries.encoded_iff (hserializer : service.serializer = jsonSerializer numeral parse)
    (hc : Carries service values c) :
    Encoded numeral values c ↔ ∀ value ∈ values, ¬ value.Vanishes := by
  rw [Carries, hserializer] at hc
  constructor
  · intro hencoded value hmem hvalue
    have hsent : Except.ok none ∈ c.payloads.map (.ok : Payload → Except Thrown Payload) := by
      rw [← hc, ← hvalue.serialize_eq numeral parse]
      exact List.mem_map_of_mem hmem
    obtain ⟨raw, hraw, hnone⟩ := List.mem_map.mp hsent
    obtain rfl : raw = none := Except.ok.inj hnone
    obtain ⟨_, _, text, htext, _⟩ := hencoded none hraw
    cases htext
  · intro hvalues raw hraw
    have hserialized : Except.ok raw ∈ values.map (jsonSerializer numeral parse).serialize := by
      rw [hc]
      exact List.mem_map_of_mem hraw
    obtain ⟨value, hmem, hvalue⟩ := List.mem_map.mp hserialized
    exact encoderString_of_serialize numeral parse (hvalues value hmem) hvalue hmem

end EncodedWrites

/-- **Failing closed.** `serialize` returns a string or refuses exactly
when the value does not vanish, and a command of a call that encodes values
sends nothing but the strings of the encoder exactly when none of the
values vanishes. -/
theorem serialization_fails_closed_iff (numeral : JsNumber → Text)
    (parse : Text → Except Reason JsValue) :
    (∀ value : JsValue, ClosedResult ((jsonSerializer numeral parse).serialize value) ↔
      ¬ value.Vanishes) ∧
    ∀ (service : CacheService JsValue), service.serializer = jsonSerializer numeral parse →
      ∀ (call : ServiceCall JsValue) values, call.encodes = some values →
      ∀ (V σ : Type) (server : σ → (c : ServiceCommand) → σ × ServiceReply V c) (s : σ),
        ∀ c ∈ ((service.run call).exec server s).sent,
          (Encoded numeral values c ↔ ∀ value ∈ values, ¬ value.Vanishes) := by
  refine ⟨serialize_closed_iff numeral parse, ?_⟩
  intro service hserializer call values hencodes V σ server s c hc
  have hcarries : Carries service values c :=
    (writes_carry (V := V) hencodes).exec server (fun _ _ => trivial) s c hc
  exact hcarries.encoded_iff hserializer

/-- An object whose `toJSON` returns `undefined`. -/
def hiddenObject : JsValue := .reference (some (.ok (.primitive .undefined))) (.object [])

/-- A service of JavaScript values. -/
def jsonService : CacheService JsValue :=
  ⟨defaultOptions, .connected .redis, .ofOptions defaultOptions,
    jsonSerializer (fun _ => []) (fun _ => .ok hiddenObject), none, none, 120000⟩

/-- A batch of two values is sent as strings, the object of
`hiddenObject` is not. -/
theorem serialization_fails_closed_iff_sent :
    (∃ c ∈ ((jsonService.run (V := Unit) (.mset "users".toList
        [("1".toList, .primitive .null), ("2".toList, .primitive (.boolean true))])).exec
        countingRedis 0).sent,
      Encoded (fun _ => []) [.primitive .null, .primitive (.boolean true)] c) ∧
    ∃ c ∈ ((jsonService.run (V := Unit) (.set "users".toList "1".toList hiddenObject none)).exec
        countingRedis 0).sent, ¬ Encoded (fun _ => []) [hiddenObject] c := by
  have hsent := (serialization_fails_closed_iff (fun _ => []) fun _ => .ok hiddenObject).2
    jsonService rfl
  have hbatch := hsent (.mset "users".toList
    [("1".toList, .primitive .null), ("2".toList, .primitive (.boolean true))]) _ rfl
    Unit _ countingRedis 0
  have hhidden := hsent (.set "users".toList "1".toList hiddenObject none) _ rfl
    Unit _ countingRedis 0
  refine ⟨⟨_, List.mem_cons_self, (hbatch _ List.mem_cons_self).mpr ?_⟩,
    ⟨_, List.mem_cons_self, fun hencoded => ?_⟩⟩
  · rintro value hvalue ⟨-, substitute, hsubstitute, -⟩
    rcases List.mem_pair.mp hvalue with rfl | rfl <;> cases hsubstitute
  · exact (hhidden _ List.mem_cons_self).mp hencoded hiddenObject List.mem_cons_self
      ⟨rfl, _, rfl, rfl⟩

/-- **A vanishing value.** For an object whose `toJSON` returns `undefined`,
`serialize` neither returns a string nor refuses, and `set` sends the
`undefined`. -/
theorem serialize_returns_undefined :
    ¬ ((∀ value : JsValue, ClosedResult
        ((jsonSerializer (fun _ => []) fun _ => .ok hiddenObject).serialize value)) ∨
      ∀ service : CacheService JsValue,
        service.serializer = jsonSerializer (fun _ => []) (fun _ => .ok hiddenObject) →
        ∀ c ∈ ((service.run (V := Unit) (.set "users".toList "1".toList hiddenObject none)).exec
          countingRedis 0).sent, ∀ raw ∈ c.payloads, raw ≠ none) := by
  rintro (hclosed | hsent)
  · rcases hclosed hiddenObject with ⟨text, htext⟩ | ⟨e, he, -⟩
    · cases htext
    · cases he
  · exact hsent jsonService rfl _ List.mem_cons_self none List.mem_cons_self rfl

end NestCache
