import NestCache.JsonReading

/-!
# What JSON keeps of a value

* `Spelled.kept` — a value that a text spells, with finite numbers, is kept as it
  is;
* `Spelled.nullsLarge` — with any numbers, it is kept with `null` in place of
  those that are not finite;
* `keptValue_spelled` — what is kept of a value is spelled with finite numbers;
* `read_spelled` — what is read is spelled.
-/

namespace NestCache

/-! ## What JSON keeps of a value -/

/-- Infinities and `NaN` become `null`. -/
def JsNumber.kept : JsNumber → JsPrimitive
  | .finite q => .number (.finite q)
  | .nan | .negInf | .posInf => .null

def JsPrimitive.kept : JsPrimitive → Option JsPrimitive
  | undefined | symbol => none
  | null => some null
  | boolean b => some (boolean b)
  | number n => some n.kept
  | string t => some (string t)

def JsBoxed.kept : JsBoxed → Option JsPrimitive
  | boolean b => some (.boolean b)
  | number n => some n.kept
  | string t => some (.string t)
  | bigint => none

mutual

/-- The value that a text of the encoder stands for, if there is one: what
`toJSON` returned, without the parts that have no text. -/
def keptValue : JsValue → Option JsValue
  | .primitive p => p.kept.map .primitive
  | .reference none content => keptContent content
  | .reference (some (.error _)) _ => none
  | .reference (some (.ok substitute)) _ => keptSubstitute substitute

def keptSubstitute : JsValue → Option JsValue
  | .primitive p => p.kept.map .primitive
  | .reference _ content => keptContent content

def keptContent : JsContent → Option JsValue
  | .bigint | .function | .unreadable _ => none
  | .boxed b => b.kept.map .primitive
  | .array elements => some (.ofElements (keptElements elements))
  | .object properties => some (.ofProperties (keptProperties properties))

def keptElements : List (Except Reason JsValue) → List JsValue
  | [] => []
  | .error _ :: rest => keptElements rest
  | .ok value :: rest => (keptValue value).getD .null :: keptElements rest

def keptProperties : List (Text × Except Reason JsValue) → List (Text × JsValue)
  | [] => []
  | (_, .error _) :: rest => keptProperties rest
  | (name, .ok value) :: rest =>
      ((keptValue value).map fun kept => (name, kept)).toList ++ keptProperties rest

end

/-! ## Values that a text spells -/

def JsNumber.IsFinite (n : JsNumber) : Prop := ∃ q, n = .finite q

/-- The values that a text spells, with numbers of one kind. -/
inductive JsValue.Spelled (number : JsNumber → Prop) : JsValue → Prop
  | null : Spelled number .null
  | boolean (b : Bool) : Spelled number (.primitive (.boolean b))
  | number {n : JsNumber} (h : number n) : Spelled number (.primitive (.number n))
  | string (t : Text) : Spelled number (.primitive (.string t))
  | array {elements : List JsValue} (h : ∀ element ∈ elements, element.Spelled number) :
      Spelled number (.ofElements elements)
  | object {properties : List (Text × JsValue)}
      (h : ∀ property ∈ properties, property.2.Spelled number) :
      Spelled number (.ofProperties properties)

/-- What is kept of the elements one by one is kept of the array. -/
theorem keptElements_ok {values : List JsValue} {keep : JsValue → JsValue}
    (h : ∀ value ∈ values, keptValue value = some (keep value)) :
    keptElements (values.map .ok) = values.map keep := by
  induction values with
  | nil => rfl
  | cons value values ih =>
      obtain ⟨hvalue, hrest⟩ := List.forall_mem_cons.mp h
      rw [List.map_cons, keptElements, hvalue, ih hrest]
      rfl

/-- What is kept of the properties one by one is kept of the object. -/
theorem keptProperties_ok {properties : List (Text × JsValue)} {keep : JsValue → JsValue}
    (h : ∀ property ∈ properties, keptValue property.2 = some (keep property.2)) :
    keptProperties (properties.map fun property => (property.1, .ok property.2)) =
      properties.map fun property => (property.1, keep property.2) := by
  induction properties with
  | nil => rfl
  | cons property properties ih =>
      obtain ⟨hvalue, hrest⟩ := List.forall_mem_cons.mp h
      rw [List.map_cons, keptProperties, hvalue, ih hrest]
      rfl

/-- With finite numbers, the value is kept as it is. The induction is on how
the value is spelled: an object that was parsed has its properties in the
order in which they are enumerated again. -/
theorem JsValue.Spelled.kept {value : JsValue} (h : value.Spelled JsNumber.IsFinite) :
    keptValue value = some value := by
  induction h with
  | null => rfl
  | boolean b => rfl
  | number hfinite =>
      obtain ⟨q, rfl⟩ := hfinite
      rfl
  | string t => rfl
  | array _ ih =>
      show some (JsValue.ofElements (keptElements (List.map .ok _))) = _
      rw [@keptElements_ok _ id ih, List.map_id]
  | @object properties _ ih =>
      have hown : ∀ property ∈ ownProperties properties, keptValue property.2 = some property.2 :=
        fun property hmem => ih property (mem_ownProperties hmem)
      show some (JsValue.ofProperties (keptProperties
        ((ownProperties properties).map fun property => (property.1, .ok property.2)))) = _
      rw [@keptProperties_ok _ id hown]
      simp only [id_eq, Prod.mk.eta, List.map_id', JsValue.ofProperties,
        ownProperties_ownProperties]

/-- The second value is the first with `null` in place of every number that is
not finite. -/
inductive JsValue.NullsLarge : JsValue → JsValue → Prop
  | null : NullsLarge .null .null
  | boolean (b : Bool) : NullsLarge (.primitive (.boolean b)) (.primitive (.boolean b))
  | finite (q : Rat) :
      NullsLarge (.primitive (.number (.finite q))) (.primitive (.number (.finite q)))
  | large {n : JsNumber} (h : ¬ n.IsFinite) : NullsLarge (.primitive (.number n)) .null
  | string (t : Text) : NullsLarge (.primitive (.string t)) (.primitive (.string t))
  | array {elements : List JsValue} {keep : JsValue → JsValue}
      (h : ∀ element ∈ elements, element.NullsLarge (keep element)) :
      NullsLarge (.ofElements elements) (.ofElements (elements.map keep))
  | object {properties : List (Text × JsValue)} {keep : JsValue → JsValue}
      (h : ∀ property ∈ properties, property.2.NullsLarge (keep property.2)) :
      NullsLarge (.ofProperties properties)
        (.ofProperties (properties.map fun property => (property.1, keep property.2)))

/-- What is kept of the value, `null` if nothing is. -/
def JsValue.keptOrNull (value : JsValue) : JsValue := (keptValue value).getD .null

/-- Of a value that a text spells everything is kept but the numbers beyond the
doubles. -/
theorem JsValue.Spelled.nullsLarge {number : JsNumber → Prop} {value : JsValue}
    (h : value.Spelled number) :
    keptValue value = some value.keptOrNull ∧ value.NullsLarge value.keptOrNull := by
  induction h with
  | null => exact ⟨rfl, .null⟩
  | boolean b => exact ⟨rfl, .boolean b⟩
  | @number n hn =>
      cases n with
      | finite q => exact ⟨rfl, .finite q⟩
      | nan | negInf | posInf => exact ⟨rfl, .large (by rintro ⟨q, hq⟩; cases hq)⟩
  | string t => exact ⟨rfl, .string t⟩
  | @array elements _ ih =>
      have hkept : keptValue (.ofElements elements) =
          some (.ofElements (elements.map JsValue.keptOrNull)) := by
        show some (JsValue.ofElements (keptElements (List.map .ok _))) = _
        rw [keptElements_ok fun element hmem => (ih element hmem).1]
      rw [JsValue.keptOrNull, hkept]
      exact ⟨rfl, .array fun element hmem => (ih element hmem).2⟩
  | @object properties _ ih =>
      have hown : ∀ property ∈ ownProperties properties,
          keptValue property.2 = some property.2.keptOrNull ∧
            property.2.NullsLarge property.2.keptOrNull :=
        fun property hmem => ih property (mem_ownProperties hmem)
      have hkept : keptValue (.ofProperties properties) = some (.ofProperties
          ((ownProperties properties).map fun property => (property.1, property.2.keptOrNull))) := by
        show some (JsValue.ofProperties (keptProperties
          ((ownProperties properties).map fun property => (property.1, .ok property.2)))) = _
        rw [keptProperties_ok fun property hmem => (hown property hmem).1]
      have hsame : JsValue.ofProperties properties = .ofProperties (ownProperties properties) := by
        rw [JsValue.ofProperties, JsValue.ofProperties, ownProperties_ownProperties]
      rw [JsValue.keptOrNull, hkept]
      refine ⟨rfl, ?_⟩
      rw [hsame]
      exact .object fun property hmem => (hown property hmem).2

/-- What is kept of a primitive can be spelled in JSON, with a finite number
if it is one. -/
theorem spelled_of_kept {p kept : JsPrimitive} (h : p.kept = some kept) :
    (JsValue.primitive kept).Spelled JsNumber.IsFinite := by
  cases p with
  | undefined => cases h
  | symbol => cases h
  | null =>
      obtain rfl := Option.some.inj h
      exact .null
  | boolean b =>
      obtain rfl := Option.some.inj h
      exact .boolean b
  | number n =>
      obtain rfl := Option.some.inj h
      cases n with
      | finite q => exact .number ⟨q, rfl⟩
      | nan => exact .null
      | negInf => exact .null
      | posInf => exact .null
  | string t =>
      obtain rfl := Option.some.inj h
      exact .string t

/-- So can what is kept of a boxed primitive. -/
theorem spelled_of_boxed {b : JsBoxed} {kept : JsPrimitive} (h : b.kept = some kept) :
    (JsValue.primitive kept).Spelled JsNumber.IsFinite := by
  cases b with
  | boolean b => exact spelled_of_kept (p := .boolean b) h
  | number n => exact spelled_of_kept (p := .number n) h
  | string t => exact spelled_of_kept (p := .string t) h
  | bigint => cases h

mutual

/-- **What is kept of a value** can be spelled in JSON, with finite numbers.
The mutual induction follows the encoder through `toJSON`, contents, elements
and properties. -/
theorem keptValue_spelled (value : JsValue) {kept : JsValue} (h : keptValue value = some kept) :
    kept.Spelled JsNumber.IsFinite := by
  match value with
  | .primitive p =>
      obtain ⟨keptHere, hkept, rfl⟩ := Option.map_eq_some_iff.mp h
      exact spelled_of_kept hkept
  | .reference none content => exact keptContent_spelled content h
  | .reference (some (.error reason)) _ => cases h
  | .reference (some (.ok substitute)) _ => exact keptSubstitute_spelled substitute h

/-- The same for what `toJSON` returned; nothing is kept where the result
has no text. -/
theorem keptSubstitute_spelled (value : JsValue) {kept : JsValue}
    (h : keptSubstitute value = some kept) : kept.Spelled JsNumber.IsFinite := by
  match value with
  | .primitive p =>
      obtain ⟨keptHere, hkept, rfl⟩ := Option.map_eq_some_iff.mp h
      exact spelled_of_kept hkept
  | .reference _ content => exact keptContent_spelled content h

/-- The same for an object, an array or a boxed primitive. Of an object and an
array, the parts are spelled by the other lemmas of the induction. -/
theorem keptContent_spelled (content : JsContent) {kept : JsValue}
    (h : keptContent content = some kept) : kept.Spelled JsNumber.IsFinite := by
  match content with
  | .bigint => cases h
  | .function => cases h
  | .unreadable reason => cases h
  | .boxed b =>
      obtain ⟨keptHere, hkept, rfl⟩ := Option.map_eq_some_iff.mp h
      exact spelled_of_boxed hkept
  | .array elements =>
      obtain rfl := Option.some.inj h
      exact .array (keptElements_spelled elements)
  | .object properties =>
      obtain rfl := Option.some.inj h
      exact .object (keptProperties_spelled properties)

/-- The same for every element of an array, where null stands for one
without a text. -/
theorem keptElements_spelled (elements : List (Except Reason JsValue)) :
    ∀ kept ∈ keptElements elements, kept.Spelled JsNumber.IsFinite := by
  match elements with
  | [] => simp [keptElements]
  | .error reason :: rest => exact keptElements_spelled rest
  | .ok value :: rest =>
      refine List.forall_mem_cons.mpr ⟨?_, keptElements_spelled rest⟩
      cases hvalue : keptValue value with
      | none => exact .null
      | some kept => exact keptValue_spelled value hvalue

/-- The same for every property of an object; one without a text is left
out. -/
theorem keptProperties_spelled (properties : List (Text × Except Reason JsValue)) :
    ∀ kept ∈ keptProperties properties, kept.2.Spelled JsNumber.IsFinite := by
  match properties with
  | [] => simp [keptProperties]
  | (_, .error reason) :: rest => exact keptProperties_spelled rest
  | (name, .ok value) :: rest =>
      intro kept hmem
      rcases List.mem_append.mp hmem with hfirst | hrest
      · obtain ⟨keptHere, hvalue, rfl⟩ : ∃ keptHere, keptValue value = some keptHere ∧
            kept = (name, keptHere) := by
          simpa [eq_comm] using hfirst
        exact keptValue_spelled value hvalue
      · exact keptProperties_spelled rest kept hrest

end

/-- What is read is spelled, for values, elements and properties at once. The
mutual induction is on the fuel, and the cases are those of
`readJsonValue_eq_some`. -/
theorem read_spelled (fuel : Nat) :
    (∀ t value rest, readJsonValue fuel t = some (value, rest) → value.Spelled fun _ => True) ∧
    (∀ t elements rest, readElements fuel t = some (elements, rest) →
      ∀ element ∈ elements, element.Spelled fun _ => True) ∧
    ∀ t properties rest, readMembers fuel t = some (properties, rest) →
      ∀ property ∈ properties, property.2.Spelled fun _ => True := by
  induction fuel with
  | zero =>
      refine ⟨?_, ?_, ?_⟩
      all_goals
        intro t _ _ h
        cases h
  | succ fuel ih =>
      obtain ⟨ihvalue, ihelements, ihmembers⟩ := ih
      refine ⟨fun t value rest h => ?_, fun t elements rest h => ?_,
        fun t properties rest h => ?_⟩
      · cases readJsonValue_eq_some.mp h with
        | null => exact .null
        | true => exact .boolean true
        | false => exact .boolean false
        | string => exact .string _
        | emptyArray => exact .array (by simp)
        | array _ _ helements => exact .array (ihelements _ _ _ helements)
        | emptyObject => exact .object (by simp)
        | object _ _ hproperties => exact .object (ihmembers _ _ _ hproperties)
        | number => exact .number trivial
      · obtain ⟨value, behind, hvalue, h⟩ := readElements_eq_some.mp h
        have hfirst := ihvalue _ _ _ hvalue
        rcases h with ⟨-, rfl⟩ | ⟨tail, values, -, hvalues, rfl⟩
        · exact List.forall_mem_singleton.mpr hfirst
        · exact List.forall_mem_cons.mpr ⟨hfirst, ihelements _ _ _ hvalues⟩
      · obtain ⟨quoted, name, value, behindName, colon, behind, -, -, -, hvalue, h⟩ :=
          readMembers_eq_some.mp h
        have hfirst := ihvalue _ _ _ hvalue
        rcases h with ⟨-, rfl⟩ | ⟨tail, others, -, hothers, rfl⟩
        · exact List.forall_mem_singleton.mpr hfirst
        · exact List.forall_mem_cons.mpr ⟨hfirst, ihmembers _ _ _ hothers⟩

end NestCache
