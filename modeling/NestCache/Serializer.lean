import NestCache.CacheErrors

/-!
# Value serialization

The strategy that turns values into the strings Redis stores and back, the
default one over `JSON.stringify` and `JSON.parse`, and the choice between the
configured, the injected and the default serializer.
-/

namespace NestCache

/-- An argument that the source types as a string.  `none` is `undefined`,
which `JSON.stringify` may return for one. -/
abbrev Payload := Option Text

/-- `ISerializer`, for values of type `T`. -/
structure Serializer (T : Type) where
  serialize : T → Except Thrown Payload
  deserialize : Text → Except Thrown T

/-- The contract of `deserialize`: what it throws as an exception of the
library is a failed decode. -/
def Serializer.FailsClosed {T : Type} (serializer : Serializer T) : Prop :=
  ∀ raw e, serializer.deserialize raw = .error (.cache e) → e.code = .DESERIALIZATION_FAILED

/-- The contract of `deserialize` in full: whatever it throws is a
failed decode. -/
def Serializer.FailsTyped {T : Type} (serializer : Serializer T) : Prop :=
  ∀ raw thrown, serializer.deserialize raw = .error thrown →
    ∃ e : CacheException, thrown = .cache e ∧ e.code = .DESERIALIZATION_FAILED

/-- What `typeof` tells apart; `undefined` is the value of that type. -/
inductive JsType
  | undefined
  | object
  | boolean
  | number
  | bigint
  | string
  | symbol
  | function
  deriving DecidableEq

/-- The JSON functions of the runtime, on values of type `T`. -/
structure JsonRuntime (T : Type) where
  typeOf : T → JsType
  stringify : T → Except Reason Payload
  parse : Text → Except Reason T

/-- Fixed `details.error` of a failed decode. -/
def DESERIALIZATION_ERROR : String := "stored value is not valid JSON"

/-- `JsonSerializer`. -/
def JsonSerializer {T : Type} (json : JsonRuntime T) : Serializer T where
  serialize value :=
    if json.typeOf value ∈ [.undefined, .function, .symbol] then
      throwCache .SERIALIZATION_FAILED
        [detail "error" "Cannot serialize a top-level undefined, function, or symbol value"]
    else match json.stringify value with
      | .ok raw => .ok raw
      | .error err => throwCache .SERIALIZATION_FAILED [("error", .text (describeError err))]
  deserialize raw :=
    match json.parse raw with
    | .ok value => .ok value
    | .error _ => throwCache .DESERIALIZATION_FAILED
        [detail "error" DESERIALIZATION_ERROR, ("length", .number (.ofNat raw.codeUnits.length))]

/-- The configured serializer, else the injected one, else JSON. -/
def resolveSerializer {T : Type} (configured injected : Option (Serializer T))
    (json : JsonRuntime T) : Serializer T :=
  (configured.or injected).getD (JsonSerializer json)

/-- Every decode that the default serializer refuses fails closed. -/
theorem JsonSerializer_error {T : Type} (json : JsonRuntime T) {raw : Text} {thrown : Thrown}
    (h : (JsonSerializer json).deserialize raw = .error thrown) :
    ∃ e : CacheException, thrown = .cache e ∧ e.code = .DESERIALIZATION_FAILED := by
  simp only [JsonSerializer] at h
  split at h
  · cases h
  · exact ⟨_, (Except.error.inj h).symm, rfl⟩

/-- The serializer of the package throws a failed decode, whatever the
parser throws. -/
theorem JsonSerializer_failsTyped {T : Type} (json : JsonRuntime T) :
    (JsonSerializer json).FailsTyped := fun _ _ h => JsonSerializer_error json h

/-- So it meets the contract of `deserialize`. -/
theorem JsonSerializer_failsClosed {T : Type} (json : JsonRuntime T) :
    (JsonSerializer json).FailsClosed := by
  intro raw e h
  obtain ⟨e', heq, hcode⟩ := JsonSerializer_error json h
  obtain rfl := Thrown.cache.inj heq
  exact hcode

/-- JSON on the natural numbers below `2 ^ 32 - 1`. -/
def naturalJson : JsonRuntime Nat where
  typeOf _ := .number
  stringify n := .ok (some (Nat.toDigits 10 n))
  parse raw := match arrayIndex? raw with
    | some n => .ok n
    | none => .error (.error "Unexpected token".toList)

end NestCache
