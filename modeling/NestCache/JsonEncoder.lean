import NestCache.Serializer

/-!
# What `JSON.stringify` does with a value

A value is given as the encoder reads it: for a BigInt or an object first what
its `toJSON` does, if that is callable, then its content; reading an element or
a property gives a value or throws.  A value is asked for `toJSON` once: what
`toJSON` returns is encoded as it is.

Circular structures are cut where the encoder meets an object it is inside of:
there, and wherever else it cannot go on, it throws.
-/

namespace NestCache

/-- The values without a `toJSON` of their own. -/
inductive JsPrimitive
  | undefined
  | null
  | boolean (b : Bool)
  | number (n : JsNumber)
  | string (t : Text)
  | symbol
  deriving DecidableEq

/-- What a `Number`, `String`, `Boolean` or `BigInt` object converts to. -/
inductive JsBoxed
  | boolean (b : Bool)
  | number (n : JsNumber)
  | string (t : Text)
  | bigint
  deriving DecidableEq

mutual

/-- A JavaScript value.  `toJSON` is `none` unless it is callable; otherwise it
returns or throws. -/
inductive JsValue
  | primitive (p : JsPrimitive)
  | reference (toJSON : Option (Except Reason JsValue)) (content : JsContent)

/-- A BigInt or an object, behind its `toJSON`. -/
inductive JsContent
  | bigint
  | function
  | boxed (b : JsBoxed)
  | array (elements : List (Except Reason JsValue))
  | object (properties : List (Text × Except Reason JsValue))
  /-- An object that the encoder is inside of or cannot read, with the error. -/
  | unreadable (reason : Reason)

end

namespace JsPrimitive

/-- `typeof`. -/
def typeOf : JsPrimitive → JsType
  | undefined => .undefined
  | null => .object
  | boolean _ => .boolean
  | number _ => .number
  | string _ => .string
  | symbol => .symbol

end JsPrimitive

/-- `typeof`. -/
def JsContent.typeOf : JsContent → JsType
  | bigint => .bigint
  | function => .function
  | _ => .object

namespace JsValue

/-- `typeof`. -/
def typeOf : JsValue → JsType
  | primitive p => p.typeOf
  | reference _ content => content.typeOf

/-- What calling `toJSON` gives, if the encoder calls it. -/
def toJSON : JsValue → Option (Except Reason JsValue)
  | primitive _ => none
  | reference toJSON _ => toJSON

end JsValue

/-! ## Texts -/

/-- A code unit as `\uXXXX`. -/
def unicodeEscape (c : Char) : Text :=
  "\\u".toList ++ List.replicate (4 - (Nat.toDigits 16 c.toNat).length) '0' ++
    Nat.toDigits 16 c.toNat

/-- One character inside a JSON string. -/
def quoteCharacter (c : Char) : Text :=
  if c = '"' then "\\\"".toList
  else if c = '\\' then "\\\\".toList
  else if c = '\x08' then "\\b".toList
  else if c = '\t' then "\\t".toList
  else if c = '\n' then "\\n".toList
  else if c = '\x0c' then "\\f".toList
  else if c = '\r' then "\\r".toList
  else if c.toNat < 0x20 then unicodeEscape c
  else [c]

/-- `QuoteJSONString`. -/
def quoteJson (t : Text) : Text := '"' :: t.flatMap quoteCharacter ++ ['"']

/-- The texts of the elements of an array. -/
def bracketed (elements : List Text) : Text := '[' :: [','].intercalate elements ++ [']']

/-- The texts of the properties of an object. -/
def braced (properties : List (Text × Text)) : Text :=
  '\x7b' :: [','].intercalate (properties.map fun property =>
    quoteJson property.1 ++ ':' :: property.2) ++ ['\x7d']

/-- A number; only finite ones have a numeral. -/
def encodeNumber (numeral : JsNumber → Text) (n : JsNumber) : Text :=
  match n with
  | .finite _ => numeral n
  | _ => "null".toList

def encodeBoolean (b : Bool) : Text := if b then "true".toList else "false".toList

/-- A primitive value; `undefined` and symbols have no text. -/
def JsPrimitive.encode (numeral : JsNumber → Text) : JsPrimitive → Payload
  | undefined => none
  | null => some "null".toList
  | boolean b => some (encodeBoolean b)
  | number n => some (encodeNumber numeral n)
  | string t => some (quoteJson t)
  | symbol => none

/-- The error of a BigInt without a `toJSON`. -/
def BIGINT_ERROR : Reason := .error "Do not know how to serialize a BigInt".toList

def JsBoxed.encode (numeral : JsNumber → Text) : JsBoxed → Except Reason Payload
  | boolean b => .ok (some (encodeBoolean b))
  | number n => .ok (some (encodeNumber numeral n))
  | string t => .ok (some (quoteJson t))
  | bigint => .error BIGINT_ERROR

/-! ## The encoder -/

section Encoder

variable (numeral : JsNumber → Text)

mutual

/-- `SerializeJSONProperty`: call `toJSON` if there is one, then encode.
Values of any depth are encoded; the engine throws a `RangeError` beyond
its stack. -/
def encodeValue : JsValue → Except Reason Payload
  | .primitive p => .ok (p.encode numeral)
  | .reference none content => encodeContent content
  | .reference (some (.error reason)) _ => .error reason
  | .reference (some (.ok substitute)) _ => encodeSubstitute substitute

/-- What `toJSON` returned is not asked for another one. -/
def encodeSubstitute : JsValue → Except Reason Payload
  | .primitive p => .ok (p.encode numeral)
  | .reference _ content => encodeContent content

/-- The content of a BigInt or an object; functions have no text. -/
def encodeContent : JsContent → Except Reason Payload
  | .bigint => .error BIGINT_ERROR
  | .function => .ok none
  | .boxed b => b.encode numeral
  | .array elements => (encodeElements elements).map fun texts => some (bracketed texts)
  | .object properties => (encodeProperties properties).map fun texts => some (braced texts)
  | .unreadable reason => .error reason

/-- `SerializeJSONArray`: an element without text counts as `null`. -/
def encodeElements : List (Except Reason JsValue) → Except Reason (List Text)
  | [] => .ok []
  | .error reason :: _ => .error reason
  | .ok value :: rest => do
      let text ← encodeValue value
      let texts ← encodeElements rest
      return text.getD "null".toList :: texts

/-- `SerializeJSONObject`: a property without text is left out. -/
def encodeProperties : List (Text × Except Reason JsValue) → Except Reason (List (Text × Text))
  | [] => .ok []
  | (_, .error reason) :: _ => .error reason
  | (name, .ok value) :: rest => do
      let text ← encodeValue value
      let texts ← encodeProperties rest
      return (text.map fun text => (name, text)).toList ++ texts

end

/-- The types of the values that have no text. -/
def hasNoText (type : JsType) : Bool := type ∈ [JsType.undefined, .function, .symbol]

/-- A primitive has no text exactly if its type has none. -/
theorem encodePrimitive_eq_none (p : JsPrimitive) :
    p.encode numeral = none ↔ hasNoText p.typeOf = true := by
  cases p <;> simp [JsPrimitive.encode, JsPrimitive.typeOf, hasNoText]

/-- Of what is held by reference only a function has no text; arrays, objects
and boxed primitives have one, unless they are refused. -/
theorem encodeContent_eq_none (content : JsContent) :
    encodeContent numeral content = .ok none ↔ hasNoText content.typeOf = true := by
  cases content with
  | bigint | function | unreadable =>
      simp [encodeContent, JsContent.typeOf, hasNoText]
  | boxed b => cases b <;> simp [encodeContent, JsBoxed.encode, JsContent.typeOf, hasNoText]
  | array elements =>
      rw [encodeContent]
      cases encodeElements numeral elements <;> simp [Except.map, JsContent.typeOf, hasNoText]
  | object properties =>
      rw [encodeContent]
      cases encodeProperties numeral properties <;> simp [Except.map, JsContent.typeOf, hasNoText]

/-- What `toJSON` returned has no text exactly if its type has none. -/
theorem encodeSubstitute_eq_none (value : JsValue) :
    encodeSubstitute numeral value = .ok none ↔ hasNoText value.typeOf = true := by
  cases value with
  | primitive p =>
      rw [encodeSubstitute, Except.ok.injEq]
      exact encodePrimitive_eq_none numeral p
  | reference toJSON content =>
      rw [encodeSubstitute]
      exact encodeContent_eq_none numeral content

/-- **When there is no text.** The encoder returns `undefined` exactly
when the value, or what its `toJSON` returned in its place, is of a type
without text. -/
theorem encodeValue_eq_none (value : JsValue) : encodeValue numeral value = .ok none ↔
    (value.toJSON = none ∧ hasNoText value.typeOf = true) ∨
      ∃ substitute, value.toJSON = some (.ok substitute) ∧ hasNoText substitute.typeOf = true := by
  cases value with
  | primitive p =>
      rw [encodeValue, Except.ok.injEq, encodePrimitive_eq_none]
      simp [JsValue.toJSON, JsValue.typeOf]
  | reference toJSON content =>
      cases toJSON with
      | none =>
          rw [encodeValue, encodeContent_eq_none]
          simp [JsValue.toJSON, JsValue.typeOf]
      | some result =>
          cases result with
          | error reason => simp [encodeValue, JsValue.toJSON]
          | ok substitute =>
              rw [encodeValue, encodeSubstitute_eq_none]
              simp [JsValue.toJSON]

/-- The JSON functions of the runtime; `numeral` prints a finite number. -/
def jsonRuntime (parse : Text → Except Reason JsValue) : JsonRuntime JsValue where
  typeOf := JsValue.typeOf
  stringify := encodeValue numeral
  parse := parse

end Encoder

/-- An object whose `toJSON` returns `undefined` disappears as a property and
is `null` as an element. -/
example :
    let hidden : JsValue := .reference (some (.ok (.primitive .undefined))) (.object [])
    encodeValue (fun _ => "7".toList) (.reference none (.object [("a".toList, .ok hidden),
      ("b".toList, .ok (.reference none (.array [.ok hidden, .ok (.primitive (.number 7))])))])) =
    .ok (some "\x7b\"b\":[null,7]\x7d".toList) := by decide

end NestCache
