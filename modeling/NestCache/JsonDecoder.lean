import NestCache.JsonEncoder
import NestCache.NumeralsAndDates

/-!
# What `JSON.parse` does with a text

A reader for each kind of token gives a value and the rest of the text; a value
is followed by white space only.  Strings are words of characters, so a lone
surrogate that an escape spells reads as U+FFFD.  Of properties with one name the
last one counts, in the place of the first.

Reading is local: more text behind what was read does not change it, unless that
ends with a number and the text goes on with it (`readJsonValue_append`).
-/

namespace NestCache

/-! ## White space -/

/-- White space between the tokens of JSON. -/
def isJsonSpace (c : Char) : Bool := c ∈ [' ', '\t', '\n', '\r']

def skipSpace (t : Text) : Text := t.dropWhile isJsonSpace

/-! ## Strings -/

/-- What a string is made of: a character, or a code unit that an escape
spells. -/
inductive StringUnit
  | char (c : Char)
  | codeUnit (n : Nat)
  deriving DecidableEq

/-- The value of a hexadecimal digit. -/
def hexDigitValue? (c : Char) : Option Nat :=
  if '0' ≤ c ∧ c ≤ '9' then some (c.toNat - '0'.toNat)
  else if 'a' ≤ c ∧ c ≤ 'f' then some (c.toNat - 'a'.toNat + 10)
  else if 'A' ≤ c ∧ c ≤ 'F' then some (c.toNat - 'A'.toNat + 10)
  else none

/-- The code unit behind `\u`. -/
def hexCodeUnit? (a b c d : Char) : Option Nat := do
  return ((← hexDigitValue? a) * 16 + (← hexDigitValue? b)) * 256 +
    ((← hexDigitValue? c) * 16 + (← hexDigitValue? d))

/-- The character behind a one-letter escape. -/
def escapedCharacter? (c : Char) : Option Char :=
  match c with
  | '"' => some '"'
  | '\\' => some '\\'
  | '/' => some '/'
  | 'b' => some '\x08'
  | 'f' => some '\x0c'
  | 'n' => some '\n'
  | 'r' => some '\r'
  | 't' => some '\t'
  | _ => none

/-- A string behind its opening quote, up to the closing one. -/
def readUnits : Text → Option (List StringUnit × Text)
  | [] => none
  | '"' :: rest => some ([], rest)
  | '\\' :: 'u' :: a :: b :: c :: d :: rest => do
      let n ← hexCodeUnit? a b c d
      let (units, rest) ← readUnits rest
      return (.codeUnit n :: units, rest)
  | '\\' :: c :: rest => do
      let escaped ← escapedCharacter? c
      let (units, rest) ← readUnits rest
      return (.char escaped :: units, rest)
  | c :: rest =>
      if c = '\\' ∨ c.toNat < 0x20 then none
      else do
        let (units, rest) ← readUnits rest
        return (.char c :: units, rest)

/-- Stands for a lone surrogate. -/
def REPLACEMENT : Char := '\ufffd'

def isHighSurrogate (n : Nat) : Bool := 0xD800 ≤ n && n < 0xDC00

def isLowSurrogate (n : Nat) : Bool := 0xDC00 ≤ n && n < 0xE000

/-- The character of a code unit on its own. -/
def codeUnitCharacter (n : Nat) : Char :=
  if isHighSurrogate n || isLowSurrogate n then REPLACEMENT else Char.ofNat n

/-- The string: two surrogates make one character, and one on its own, which
JavaScript keeps, is replaced. -/
def unitsText : List StringUnit → Text
  | [] => []
  | .char c :: rest => c :: unitsText rest
  | .codeUnit high :: .codeUnit low :: rest =>
      if isHighSurrogate high && isLowSurrogate low then
        Char.ofNat (0x10000 + (high - 0xD800) * 0x400 + (low - 0xDC00)) :: unitsText rest
      else codeUnitCharacter high :: unitsText (.codeUnit low :: rest)
  | .codeUnit n :: rest => codeUnitCharacter n :: unitsText rest

/-- A string behind its opening quote. -/
def readString (t : Text) : Option (Text × Text) :=
  (readUnits t).map fun (units, rest) => (unitsText units, rest)

/-! ## Numbers -/

/-- A minus sign. -/
def readMinus : Text → Bool × Text
  | '-' :: rest => (true, rest)
  | rest => (false, rest)

/-- The digits behind a point, if there is one. -/
def readFractionPart : Text → Option (Text × Text)
  | '.' :: rest => readDigits rest
  | rest => some ([], rest)

/-- The exponent, if there is one. -/
def readExponentPart : Text → Option (Int × Text)
  | [] => some (0, [])
  | c :: rest =>
      if c = 'e' ∨ c = 'E' then
        let (negative, rest) := readSign rest
        (readDigits rest).map fun (digits, rest) =>
          (if negative then -(digitsValue digits : Int) else digitsValue digits, rest)
      else some (0, c :: rest)

/-- A number; only a single zero begins with zero. -/
def readNumber (t : Text) : Option (Numeral × Text) := do
  let (negative, rest) := readMinus t
  let (whole, rest) ← readDigits rest
  if whole.head? = some '0' ∧ whole ≠ ['0'] then none
  else
    let (fraction, rest) ← readFractionPart rest
    let (exponent, rest) ← readExponentPart rest
    return ({ negative, whole, fraction, exponent }, rest)

/-! ## Values -/

/-- A property is set: one of that name keeps its place. -/
def setProperty {α : Type} (properties : List (Text × α)) (property : Text × α) :
    List (Text × α) :=
  if properties.any (·.1 = property.1) then
    properties.map fun other => if other.1 = property.1 then property else other
  else properties ++ [property]

/-- The order in which properties are enumerated: array indices come first, in
ascending order. -/
def enumerated {α : Type} (properties : List (Text × α)) : List (Text × α) :=
  (properties.filter (arrayIndex? ·.1 |>.isSome)).insertionSort
      (fun a b => (arrayIndex? a.1).getD 0 ≤ (arrayIndex? b.1).getD 0) ++
    properties.filter (arrayIndex? ·.1 |>.isNone)

/-- The properties of an object that they are set on one after the other. -/
def ownProperties {α : Type} (properties : List (Text × α)) : List (Text × α) :=
  enumerated (properties.foldl setProperty [])

section OwnProperties

variable {α : Type}

/-- The test of `setProperty` asks whether the name is taken. -/
theorem any_name_iff {properties : List (Text × α)} {name : Text} :
    properties.any (·.1 = name) = true ↔ name ∈ properties.map Prod.fst := by
  simp [List.any_eq_true, List.mem_map]

/-- Setting a property adds its name behind the others, if it is a new one. -/
theorem setProperty_map_fst (properties : List (Text × α)) (property : Text × α) :
    (setProperty properties property).map Prod.fst =
      if property.1 ∈ properties.map Prod.fst then properties.map Prod.fst
      else properties.map Prod.fst ++ [property.1] := by
  by_cases hname : property.1 ∈ properties.map Prod.fst
  · rw [setProperty, if_pos (any_name_iff.mpr hname), if_pos hname, List.map_map]
    refine List.map_congr_left fun other _ => ?_
    by_cases hother : other.1 = property.1
    · simp [hother]
    · simp [hother]
  · rw [setProperty, if_neg (mt any_name_iff.mp hname), if_neg hname]
    simp

/-- After setting a property there is nothing but it and what was there. -/
theorem mem_setProperty {properties : List (Text × α)} {property other : Text × α}
    (h : other ∈ setProperty properties property) : other ∈ properties ∨ other = property := by
  unfold setProperty at h
  split at h
  · obtain ⟨first, hfirst, heq⟩ := List.mem_map.mp h
    split at heq
    · exact .inr heq.symm
    · exact .inl (heq ▸ hfirst)
  · simpa using h

/-- No two properties of an object have one name. The induction is on the
properties: a name that is taken is overwritten in its place. -/
theorem foldl_setProperty_nodup (properties : List (Text × α)) {set : List (Text × α)}
    (h : (set.map Prod.fst).Nodup) : ((properties.foldl setProperty set).map Prod.fst).Nodup := by
  induction properties generalizing set with
  | nil => exact h
  | cons property rest ih =>
      refine ih ?_
      rw [setProperty_map_fst]
      split
      · exact h
      · rename_i hnew
        exact List.nodup_append.mpr ⟨h, List.nodup_singleton _, by
          rintro name hname _ hsingle rfl
          rw [List.mem_singleton.mp hsingle] at hname
          exact hnew hname⟩

/-- Properties that are set one after the other come from the list or were
there before; the induction is on the list. -/
theorem mem_foldl_setProperty {properties set : List (Text × α)} {property : Text × α}
    (h : property ∈ properties.foldl setProperty set) : property ∈ set ∨ property ∈ properties := by
  induction properties generalizing set with
  | nil => exact .inl h
  | cons first rest ih =>
      rcases ih h with hset | hrest
      · rcases mem_setProperty hset with hmem | rfl
        · exact .inl hmem
        · exact .inr List.mem_cons_self
      · exact .inr (List.mem_cons_of_mem _ hrest)

/-- Setting properties with names of their own just lists them. -/
theorem foldl_setProperty_of_nodup {properties set : List (Text × α)}
    (h : ((set ++ properties).map Prod.fst).Nodup) :
    properties.foldl setProperty set = set ++ properties := by
  induction properties generalizing set with
  | nil => simp
  | cons property rest ih =>
      have hnew : property.1 ∉ set.map Prod.fst := by
        rw [List.map_append, List.map_cons] at h
        exact fun hmem => (List.nodup_append.mp h).2.2 _ hmem _ List.mem_cons_self rfl
      have hset : setProperty set property = set ++ [property] :=
        if_neg (mt any_name_iff.mp hnew)
      rw [List.foldl_cons, hset, ih (by simpa using h)]
      simp

/-- Enumerating properties only changes their order. -/
theorem enumerated_perm (properties : List (Text × α)) :
    (enumerated properties).Perm properties := by
  have hnone : (fun property : Text × α => (arrayIndex? property.1).isNone) =
      fun property => !(arrayIndex? property.1).isSome := by
    funext property
    simp
  unfold enumerated
  rw [hnone]
  exact ((List.perm_insertionSort _ _).append_right _).trans (List.filter_append_perm _ properties)

/-- Enumerated properties are in order. The indices are sorted and in front
already, and sorting what is sorted leaves it. -/
theorem enumerated_enumerated (properties : List (Text × α)) :
    enumerated (enumerated properties) = enumerated properties := by
  let before : Text × α → Text × α → Prop :=
    fun a b => (arrayIndex? a.1).getD 0 ≤ (arrayIndex? b.1).getD 0
  have htotal : Std.Total before := ⟨fun _ _ => Nat.le_total _ _⟩
  have htrans : IsTrans (Text × α) before := ⟨fun _ _ _ => Nat.le_trans⟩
  have hshape : ∃ indices others, enumerated properties = indices ++ others ∧
      indices.Pairwise before ∧
      (∀ property ∈ indices, (arrayIndex? property.1).isSome = true) ∧
      ∀ property ∈ others, (arrayIndex? property.1).isNone = true := by
    refine ⟨_, _, rfl, List.pairwise_insertionSort before _, fun property hmem => ?_,
      fun property hmem => (List.mem_filter.mp hmem).2⟩
    exact (List.mem_filter.mp ((List.mem_insertionSort before).mp hmem)).2
  obtain ⟨indices, others, heq, hsorted, hindices, hothers⟩ := hshape
  have hfirst : (indices ++ others).filter (arrayIndex? ·.1 |>.isSome) = indices := by
    have hnone : others.filter (arrayIndex? ·.1 |>.isSome) = [] :=
      List.filter_eq_nil_iff.mpr fun property hmem => by simpa using hothers property hmem
    rw [List.filter_append, List.filter_eq_self.mpr hindices, hnone, List.append_nil]
  have hlast : (indices ++ others).filter (arrayIndex? ·.1 |>.isNone) = others := by
    have hnone : indices.filter (arrayIndex? ·.1 |>.isNone) = [] :=
      List.filter_eq_nil_iff.mpr fun property hmem => by
        simpa [Option.isSome_iff_ne_none] using hindices property hmem
    rw [List.filter_append, List.filter_eq_self.mpr hothers, hnone, List.nil_append]
  rw [heq, enumerated, hfirst, hlast, hsorted.insertionSort_eq]

/-- The properties of an object are among those that it was given. -/
theorem mem_ownProperties {properties : List (Text × α)} {property : Text × α}
    (h : property ∈ ownProperties properties) : property ∈ properties := by
  have hmem := (enumerated_perm _).mem_iff.mp h
  exact (mem_foldl_setProperty hmem).resolve_left List.not_mem_nil

/-- **Properties.** The properties of an object, set on another one in the
order they are enumerated, are its properties. -/
theorem ownProperties_ownProperties (properties : List (Text × α)) :
    ownProperties (ownProperties properties) = ownProperties properties := by
  have hnodup : ((ownProperties properties).map Prod.fst).Nodup :=
    ((enumerated_perm _).map Prod.fst).nodup_iff.mpr (foldl_setProperty_nodup properties .nil)
  have hlisted : (ownProperties properties).foldl setProperty [] = [] ++ ownProperties properties :=
    foldl_setProperty_of_nodup hnodup
  calc ownProperties (ownProperties properties)
      = enumerated (ownProperties properties) := congrArg enumerated hlisted
    _ = ownProperties properties := enumerated_enumerated _

end OwnProperties

def JsValue.null : JsValue := .primitive .null

/-- An array of values. -/
def JsValue.ofElements (elements : List JsValue) : JsValue :=
  .reference none (.array (elements.map .ok))

/-- An object with properties. -/
def JsValue.ofProperties (properties : List (Text × JsValue)) : JsValue :=
  .reference none (.object ((ownProperties properties).map fun property =>
    (property.1, .ok property.2)))

mutual

/-- A value at the beginning of a text. -/
def readJsonValue : Nat → Text → Option (JsValue × Text)
  | 0, _ => none
  | fuel + 1, t =>
      match t with
      | 'n' :: 'u' :: 'l' :: 'l' :: rest => some (.null, rest)
      | 't' :: 'r' :: 'u' :: 'e' :: rest => some (.primitive (.boolean true), rest)
      | 'f' :: 'a' :: 'l' :: 's' :: 'e' :: rest => some (.primitive (.boolean false), rest)
      | '"' :: rest => (readString rest).map fun (text, rest) => (.primitive (.string text), rest)
      | '[' :: rest =>
          match skipSpace rest with
          | ']' :: rest => some (.ofElements [], rest)
          | rest =>
              (readElements fuel rest).map fun (elements, rest) => (.ofElements elements, rest)
      | '\x7b' :: rest =>
          match skipSpace rest with
          | '\x7d' :: rest => some (.ofProperties [], rest)
          | rest =>
              (readMembers fuel rest).map fun (properties, rest) => (.ofProperties properties, rest)
      | t => (readNumber t).map fun (numeral, rest) =>
          (.primitive (.number (.ofRat numeral.value)), rest)

/-- The elements of an array, up to its end. -/
def readElements : Nat → Text → Option (List JsValue × Text)
  | 0, _ => none
  | fuel + 1, t => do
      let (value, rest) ← readJsonValue fuel t
      match skipSpace rest with
      | ']' :: rest => return ([value], rest)
      | ',' :: rest =>
          let (values, rest) ← readElements fuel (skipSpace rest)
          return (value :: values, rest)
      | _ => none

/-- The properties of an object, up to its end. -/
def readMembers : Nat → Text → Option (List (Text × JsValue) × Text)
  | 0, _ => none
  | fuel + 1, t =>
      match t with
      | '"' :: rest => do
          let (name, rest) ← readString rest
          match skipSpace rest with
          | ':' :: rest =>
              let (value, rest) ← readJsonValue fuel (skipSpace rest)
              match skipSpace rest with
              | '\x7d' :: rest => return ([(name, value)], rest)
              | ',' :: rest =>
                  let (properties, rest) ← readMembers fuel (skipSpace rest)
                  return ((name, value) :: properties, rest)
              | _ => none
          | _ => none
      | _ => none

end

/-- What `JSON.parse` throws. -/
def SYNTAX_ERROR : Reason := .error "Unexpected token in JSON".toList

/-- `JSON.parse`: one value, and white space around it.  Numbers are exact, so
that `-0` is `0`. -/
def parseJson (t : Text) : Except Reason JsValue :=
  match readJsonValue (2 * t.length + 1) (skipSpace t) with
  | some (value, rest) => if skipSpace rest = [] then .ok value else .error SYNTAX_ERROR
  | none => .error SYNTAX_ERROR

end NestCache
