import NestCache.FailClosedWrites
import NestCache.KeptValues
import NestCache.RedisCells

/-!
# What is serialized reads back

A text that the encoder writes is read as what it keeps of the value
(`encodeValue_keeps`); from this:

* `serialized_reads_back` — what `serialize` wrote, `deserialize` reads as what
  JSON keeps of the value, and of this JSON keeps all;
* `damaged_payload_refused` — a payload that is cut short or goes on is refused,
  unless it is that of a bare number;
* `deserialized_writes_back` — what `deserialize` returned, written again, reads
  back with `null` for its numbers beyond the doubles, and from then on as it is.

Strings are lists of characters: an escape of a lone surrogate is read as the
replacement character, and a payload is cut between characters.
-/

namespace NestCache

/-! ## Numbers -/

def JsNumber.finitePart : JsNumber → List Rat
  | .finite q => [q]
  | .nan | .negInf | .posInf => []

def JsPrimitive.numbers : JsPrimitive → List Rat
  | number n => n.finitePart
  | undefined | null | boolean _ | string _ | symbol => []

def JsBoxed.numbers : JsBoxed → List Rat
  | number n => n.finitePart
  | boolean _ | string _ | bigint => []

mutual

/-- The finite numbers that the encoder meets. -/
def numbersIn : JsValue → List Rat
  | .primitive p => p.numbers
  | .reference none content => numbersInContent content
  | .reference (some (.error _)) _ => []
  | .reference (some (.ok substitute)) _ => numbersInSubstitute substitute

def numbersInSubstitute : JsValue → List Rat
  | .primitive p => p.numbers
  | .reference _ content => numbersInContent content

def numbersInContent : JsContent → List Rat
  | .bigint | .function | .unreadable _ => []
  | .boxed b => b.numbers
  | .array elements => numbersInElements elements
  | .object properties => numbersInProperties properties

def numbersInElements : List (Except Reason JsValue) → List Rat
  | [] => []
  | .error _ :: rest => numbersInElements rest
  | .ok value :: rest => numbersIn value ++ numbersInElements rest

def numbersInProperties : List (Text × Except Reason JsValue) → List Rat
  | [] => []
  | (_, .error _) :: rest => numbersInProperties rest
  | (_, .ok value) :: rest => numbersIn value ++ numbersInProperties rest

end

/-- A number of properties is one of the value of a property. -/
theorem mem_numbersInProperties {properties : List (Text × JsValue)} {q : Rat} :
    q ∈ numbersInProperties (properties.map fun property => (property.1, .ok property.2)) ↔
      ∃ property ∈ properties, q ∈ numbersIn property.2 := by
  induction properties with
  | nil => simp [numbersInProperties]
  | cons property properties ih => simp [numbersInProperties, ih]

/-- A primitive value keeps its number. -/
theorem numbers_kept {p kept : JsPrimitive} (h : p.kept = some kept) :
    kept.numbers ⊆ p.numbers := by
  cases p with
  | undefined | symbol => cases h
  | null | boolean | string =>
      obtain rfl := Option.some.inj h
      exact List.Subset.refl _
  | number n =>
      obtain rfl := Option.some.inj h
      cases n <;> exact List.Subset.refl _

/-- So does a boxed one. -/
theorem boxedNumbers_kept {b : JsBoxed} {kept : JsPrimitive} (h : b.kept = some kept) :
    kept.numbers ⊆ b.numbers := by
  cases b with
  | boolean b => exact numbers_kept (p := .boolean b) h
  | number n => exact numbers_kept (p := .number n) h
  | string t => exact numbers_kept (p := .string t) h
  | bigint => cases h

mutual

/-- The numbers of what is kept of a value are numbers of the value. -/
theorem numbersIn_kept (value : JsValue) {kept : JsValue} (h : keptValue value = some kept) :
    numbersIn kept ⊆ numbersIn value := by
  match value with
  | .primitive p =>
      obtain ⟨keptHere, hkept, rfl⟩ := Option.map_eq_some_iff.mp h
      exact numbers_kept hkept
  | .reference none content => exact numbersInContent_kept content h
  | .reference (some (.error reason)) _ => cases h
  | .reference (some (.ok substitute)) _ => exact numbersInSubstitute_kept substitute h

/-- The numbers of what is kept of a substitute. -/
theorem numbersInSubstitute_kept (value : JsValue) {kept : JsValue}
    (h : keptSubstitute value = some kept) : numbersIn kept ⊆ numbersInSubstitute value := by
  match value with
  | .primitive p =>
      obtain ⟨keptHere, hkept, rfl⟩ := Option.map_eq_some_iff.mp h
      exact numbers_kept hkept
  | .reference _ content => exact numbersInContent_kept content h

/-- The numbers of what is kept of an object. Nothing is kept that was not
there; what is left out takes its numbers with it. -/
theorem numbersInContent_kept (content : JsContent) {kept : JsValue}
    (h : keptContent content = some kept) : numbersIn kept ⊆ numbersInContent content := by
  match content with
  | .bigint => cases h
  | .function => cases h
  | .unreadable reason => cases h
  | .boxed b =>
      obtain ⟨keptHere, hkept, rfl⟩ := Option.map_eq_some_iff.mp h
      exact boxedNumbers_kept hkept
  | .array elements =>
      obtain rfl := Option.some.inj h
      exact numbersInElements_kept elements
  | .object properties =>
      obtain rfl := Option.some.inj h
      intro q hq
      obtain ⟨property, hmem, hq⟩ := mem_numbersInProperties.mp hq
      exact numbersInProperties_kept properties property (mem_ownProperties hmem) hq

/-- The numbers of what is kept of the elements. -/
theorem numbersInElements_kept (elements : List (Except Reason JsValue)) :
    numbersInElements ((keptElements elements).map .ok) ⊆ numbersInElements elements := by
  match elements with
  | [] => exact List.Subset.refl _
  | .error reason :: rest => exact numbersInElements_kept rest
  | .ok value :: rest =>
      refine List.append_subset.mpr ⟨List.subset_append_of_subset_left _ ?_,
        List.subset_append_of_subset_right _ (numbersInElements_kept rest)⟩
      cases hvalue : keptValue value with
      | none => exact List.nil_subset _
      | some kept => exact numbersIn_kept value hvalue

/-- The numbers of what is kept of a property. -/
theorem numbersInProperties_kept (properties : List (Text × Except Reason JsValue)) :
    ∀ kept ∈ keptProperties properties, numbersIn kept.2 ⊆ numbersInProperties properties := by
  match properties with
  | [] => simp [keptProperties]
  | (_, .error reason) :: rest => exact numbersInProperties_kept rest
  | (name, .ok value) :: rest =>
      intro kept hmem
      rcases List.mem_append.mp hmem with hfirst | hrest
      · obtain ⟨keptHere, hvalue, rfl⟩ : ∃ keptHere, keptValue value = some keptHere ∧
            kept = (name, keptHere) := by
          simpa [eq_comm] using hfirst
        exact List.subset_append_of_subset_left _ (numbersIn_kept value hvalue)
      · exact List.subset_append_of_subset_right _ (numbersInProperties_kept rest kept hrest)

end

/-- The number is printed as a numeral that reads back as it, as
`Number.prototype.toString` does with every double. -/
def PrintsBack (numeral : JsNumber → Text) (q : Rat) : Prop :=
  ∃ x, readNumber (numeral (.finite q)) = some (x, []) ∧ JsNumber.ofRat x.value = .finite q

/-! ## Texts that read as a value -/

/-- The text is read as the value. -/
def ReadsAs (t : Text) (value : JsValue) : Prop := ∃ fuel, readJsonValue fuel t = some (value, [])

/-- Fuel of twice the length is enough for whatever can be read at all, and
`parseJson` gives more. -/
theorem ReadsAs.enough {t : Text} {value : JsValue} (h : ReadsAs t value) {fuel : Nat}
    (hfuel : 2 * t.length ≤ fuel) : readJsonValue fuel t = some (value, []) := by
  obtain ⟨_, hread⟩ := h
  exact ((read_enough _).1 _ _ _ hread).2 fuel hfuel

/-- Behind a value, something that ends a number. -/
theorem ReadsAs.append {t more : Text} {value : JsValue} (h : ReadsAs t value)
    (hstops : Stops more) {fuel : Nat} (hfuel : 2 * t.length ≤ fuel) :
    readJsonValue fuel (t ++ more) = some (value, more) := by
  have hread := readJsonValue_append (h.enough hfuel) fun _ => .inr hstops
  simpa using hread

/-- The first character of a value. -/
def BeginsValue (c : Char) : Prop := isJsonSpace c = false ∧ c ≠ ']' ∧ c ≠ '\x7d'

/-- A value does not begin with white space or a closing bracket. So the reader
of an array can tell an empty one from one with a first element. -/
theorem readJsonValue_head {fuel : Nat} {t rest : Text} {value : JsValue}
    (h : readJsonValue fuel t = some (value, rest)) : ∃ c tail, t = c :: tail ∧ BeginsValue c := by
  cases fuel with
  | zero => cases h
  | succ fuel =>
      cases readJsonValue_eq_some.mp h with
      | number hc =>
          refine ⟨_, _, rfl, ?_, isDigit_ne hc (by decide) (by decide),
            isDigit_ne hc (by decide) (by decide)⟩
          simp only [isJsonSpace, decide_eq_false_iff_not, List.mem_cons, List.not_mem_nil,
            or_false, not_or]
          exact ⟨isDigit_ne hc (by decide) (by decide), isDigit_ne hc (by decide) (by decide),
            isDigit_ne hc (by decide) (by decide), isDigit_ne hc (by decide) (by decide)⟩
      | _ => exact ⟨_, _, rfl, by decide, by decide, by decide⟩

/-- A text that reads as a value begins with the first character of one. -/
theorem ReadsAs.head {t : Text} {value : JsValue} (h : ReadsAs t value) :
    ∃ c tail, t = c :: tail ∧ BeginsValue c := by
  obtain ⟨_, hread⟩ := h
  exact readJsonValue_head hread

/-- In front of such a text no white space is skipped. -/
theorem ReadsAs.noSpace {t : Text} {value : JsValue} (h : ReadsAs t value) (more : Text) :
    skipSpace (t ++ more) = t ++ more := by
  obtain ⟨c, tail, rfl, hspace, -⟩ := h.head
  exact skipSpace_cons hspace (tail ++ more)

/-! ### Arrays and objects -/

/-- A character that cannot go on with a number stops it, whatever follows. -/
theorem stops_of_head {c : Char} (h : isDigit c = false ∧ c ≠ '.' ∧ c ≠ 'e' ∧ c ≠ 'E') (t : Text) :
    Stops (c :: t) := by
  intro d hd
  obtain rfl : c = d := by simpa using hd
  exact h

/-- The elements of an array, up to its end, read as these values. The
induction is on the elements; the fuel grows by one with each of them. -/
theorem readElements_texts {texts : List Text} {values : List JsValue}
    (h : List.Forall₂ ReadsAs texts values) (hne : texts ≠ []) :
    ∃ fuel, readElements fuel ([','].intercalate texts ++ [']']) = some (values, []) := by
  induction h with
  | nil => exact absurd rfl hne
  | @cons t value texts values hvalue hrest ih =>
      cases hrest with
      | nil =>
          refine ⟨2 * t.length + 1, readElements_eq_some.mpr ⟨value, [']'], ?_, .inl ⟨rfl, rfl⟩⟩⟩
          rw [List.intercalate_singleton]
          exact hvalue.append (stops_of_head (by decide) []) (Nat.le_refl _)
      | @cons t' value' texts' values' hvalue' hrest' =>
          obtain ⟨fuel, hfuel⟩ := ih (by simp)
          have henough := ((read_enough fuel).2.1 _ _ _ hfuel).2
          have hskip : skipSpace ([','].intercalate (t' :: texts') ++ [']']) =
              [','].intercalate (t' :: texts') ++ [']'] := by
            obtain ⟨c, tail, rfl, hspace, -⟩ := hvalue'.head
            cases texts' <;> exact skipSpace_cons hspace _
          generalize hlater : [','].intercalate (t' :: texts') ++ [']'] = later at henough hskip
          refine ⟨2 * (t.length + later.length) + 2, readElements_eq_some.mpr
            ⟨value, ',' :: later, ?_, .inr ⟨later, value' :: values', rfl, ?_, rfl⟩⟩⟩
          · have hsplit : [','].intercalate (t :: t' :: texts') ++ [']'] = t ++ ',' :: later := by
              simp [← hlater]
            rw [hsplit]
            exact hvalue.append (stops_of_head (by decide) later) (by omega)
          · rw [hskip]
            exact henough _ (by omega)

/-- **Arrays.** The texts of the elements, with commas between them and in
brackets, read as the array. -/
theorem bracketed_reads {texts : List Text} {values : List JsValue}
    (h : List.Forall₂ ReadsAs texts values) : ReadsAs (bracketed texts) (.ofElements values) := by
  cases h with
  | nil => exact ⟨1, rfl⟩
  | @cons t value texts values hvalue hrest =>
      obtain ⟨fuel, hfuel⟩ := readElements_texts (.cons hvalue hrest) (by simp)
      obtain ⟨c, tail, rfl, hspace, hclose, -⟩ := hvalue.head
      have hhead : ∃ later, [','].intercalate ((c :: tail) :: texts) ++ [']'] = c :: later := by
        cases texts <;> exact ⟨_, rfl⟩
      obtain ⟨later, hlater⟩ := hhead
      refine ⟨fuel + 1, ?_⟩
      rw [hlater] at hfuel
      rw [bracketed, List.cons_append, hlater, readJsonValue_array (skipSpace_cons hspace later),
        if_neg hclose, hfuel]
      rfl

/-! ### Strings -/

/-- The escape of a control character has two zeros and two hexadecimal
digits. -/
theorem unicodeEscape_eq : ∀ n < 0x20, unicodeEscape (Char.ofNat n) =
    ['\\', 'u', '0', '0', Nat.digitChar (n / 16), Nat.digitChar (n % 16)] := by decide

/-- These digits are read back as the code of the character. -/
theorem hexCodeUnit_digits : ∀ n < 0x20,
    hexCodeUnit? '0' '0' (Nat.digitChar (n / 16)) (Nat.digitChar (n % 16)) = some n := by decide

/-- The code unit of a control character is no surrogate: it stands for the
character itself. -/
theorem unitsText_codeUnit {n : Nat} (h : n < 0x20) (units : List StringUnit) :
    unitsText (.codeUnit n :: units) = Char.ofNat n :: unitsText units := by
  have hhigh : isHighSurrogate n = false := by
    simp only [isHighSurrogate, Bool.and_eq_false_iff, decide_eq_false_iff_not]
    omega
  have hlow : isLowSurrogate n = false := by
    simp only [isLowSurrogate, Bool.and_eq_false_iff, decide_eq_false_iff_not]
    omega
  have hcharacter : codeUnitCharacter n = Char.ofNat n := by
    simp [codeUnitCharacter, hhigh, hlow]
  cases units with
  | nil => simp [unitsText, hcharacter]
  | cons unit units =>
      cases unit with
      | char c => simp [unitsText, hcharacter]
      | codeUnit low => simp [unitsText, hhigh, hcharacter]

/-- A quoted character spells one unit, which stands for it. The cases are
those of the encoder: the quote, the backslash, the short escapes, other
control characters, and everything else. -/
theorem quoteCharacter_spells (c : Char) : ∃ unit, Spells (quoteCharacter c) unit ∧
    ∀ units, unitsText (unit :: units) = c :: unitsText units := by
  have hescape : ∀ letter, escapedCharacter? letter = some c → ∃ unit, Spells ['\\', letter] unit ∧
      ∀ units, unitsText (unit :: units) = c :: unitsText units := fun _ hletter =>
    ⟨.char c, .escape hletter, fun _ => rfl⟩
  unfold quoteCharacter
  split_ifs with hquote hbackslash hbackspace htab hline hform hreturn hcontrol
  · exact hescape '"' (by rw [hquote]; rfl)
  · exact hescape '\\' (by rw [hbackslash]; rfl)
  · exact hescape 'b' (by rw [hbackspace]; rfl)
  · exact hescape 't' (by rw [htab]; rfl)
  · exact hescape 'n' (by rw [hline]; rfl)
  · exact hescape 'f' (by rw [hform]; rfl)
  · exact hescape 'r' (by rw [hreturn]; rfl)
  · have hcharacter : Char.ofNat c.toNat = c := Char.ofNat_toNat c
    refine ⟨.codeUnit c.toNat, ?_, fun units => ?_⟩
    · have hcode := unicodeEscape_eq c.toNat hcontrol
      rw [hcharacter] at hcode
      rw [hcode]
      exact .codeUnit (hexCodeUnit_digits c.toNat hcontrol)
    · rw [unitsText_codeUnit hcontrol, hcharacter]
  · exact ⟨.char c, .char hquote hbackslash hcontrol, fun _ => rfl⟩

/-- **Strings.**  A quoted string reads back. -/
theorem readString_quoteJson (text more : Text) :
    readString (text.flatMap quoteCharacter ++ '"' :: more) = some (text, more) := by
  induction text with
  | nil => simp [readString, readUnits, unitsText]
  | cons c text ih =>
      obtain ⟨⟨units, rest⟩, hunits, heq⟩ := Option.map_eq_some_iff.mp ih
      obtain ⟨htext, rfl⟩ := Prod.mk.inj heq
      obtain ⟨unit, hspells, hstands⟩ := quoteCharacter_spells c
      rw [List.flatMap_cons, List.append_assoc, readString, hspells.2, hunits]
      simp [consUnit, hstands, htext]

/-- **A quoted text** reads as the text: each of its characters is spelled by
its word, and the quote behind them ends it. -/
theorem quoteJson_reads (text : Text) : ReadsAs (quoteJson text) (.primitive (.string text)) := by
  refine ⟨1, ?_⟩
  rw [quoteJson, List.cons_append, readJsonValue, readString_quoteJson]
  rfl

/-! ### Objects -/

/-- A property and its text. -/
def PropertyReads (text : Text × Text) (property : Text × JsValue) : Prop :=
  text.1 = property.1 ∧ ReadsAs text.2 property.2

/-- The text of a property. -/
def propertyText (property : Text × Text) : Text := quoteJson property.1 ++ ':' :: property.2

/-- The properties of an object, up to its end, read as these. The induction is
on the properties, as it is on the elements of an array. -/
theorem readMembers_texts {texts : List (Text × Text)} {properties : List (Text × JsValue)}
    (h : List.Forall₂ PropertyReads texts properties) (hne : texts ≠ []) :
    ∃ fuel, readMembers fuel ([','].intercalate (texts.map propertyText) ++ ['\x7d']) =
      some (properties, []) := by
  induction h with
  | nil => exact absurd rfl hne
  | @cons text property texts properties hproperty hrest ih =>
      obtain ⟨name, t⟩ := text
      obtain ⟨_, value⟩ := property
      obtain ⟨rfl, hvalue⟩ := hproperty
      have hquoted : ∀ more, propertyText (name, t) ++ more =
          '"' :: (name.flatMap quoteCharacter ++ '"' :: (':' :: (t ++ more))) := fun more => by
        simp [propertyText, quoteJson]
      cases hrest with
      | nil =>
          refine ⟨2 * t.length + 1, readMembers_eq_some.mpr ⟨_, name, value, ':' :: (t ++ ['\x7d']),
            t ++ ['\x7d'], ['\x7d'], ?_, readString_quoteJson name _, rfl, ?_, .inl ⟨rfl, rfl⟩⟩⟩
          · rw [List.map_singleton, List.intercalate_singleton, hquoted]
          · rw [hvalue.noSpace]
            exact hvalue.append (stops_of_head (by decide) []) (Nat.le_refl _)
      | @cons text' property' texts' properties' hproperty' hrest' =>
          obtain ⟨fuel, hfuel⟩ := ih (by simp)
          have henough := ((read_enough fuel).2.2 _ _ _ hfuel).2
          have hskip : skipSpace ([','].intercalate ((text' :: texts').map propertyText) ++
              ['\x7d']) = [','].intercalate ((text' :: texts').map propertyText) ++ ['\x7d'] := by
            cases texts' <;> exact skipSpace_cons (by decide) _
          have hsplit : [','].intercalate (((name, t) :: text' :: texts').map propertyText) ++
              ['\x7d'] = propertyText (name, t) ++
                ',' :: ([','].intercalate ((text' :: texts').map propertyText) ++ ['\x7d']) := by
            simp
          generalize [','].intercalate ((text' :: texts').map propertyText) ++ ['\x7d'] = later
            at henough hskip hsplit
          refine ⟨2 * (t.length + later.length) + 2, readMembers_eq_some.mpr
            ⟨_, name, value, ':' :: (t ++ ',' :: later), t ++ ',' :: later, ',' :: later, ?_,
              readString_quoteJson name _, rfl, ?_,
              .inr ⟨later, property' :: properties', rfl, ?_, rfl⟩⟩⟩
          · rw [hsplit, hquoted]
          · rw [hvalue.noSpace]
            exact hvalue.append (stops_of_head (by decide) later) (by dsimp only; omega)
          · rw [hskip]
            exact henough _ (by omega)

/-- **Objects.** The texts of the properties, quoted names in front of them,
read as the object that has these properties. -/
theorem braced_reads {texts : List (Text × Text)} {properties : List (Text × JsValue)}
    (h : List.Forall₂ PropertyReads texts properties) :
    ReadsAs (braced texts) (.ofProperties properties) := by
  cases h with
  | nil => exact ⟨1, rfl⟩
  | @cons text property texts properties hproperty hrest =>
      obtain ⟨fuel, hfuel⟩ := readMembers_texts (.cons hproperty hrest) (by simp)
      have hhead : ∃ later, [','].intercalate ((text :: texts).map propertyText) ++ ['\x7d'] =
          '"' :: later := by
        cases texts <;> exact ⟨_, rfl⟩
      obtain ⟨later, hlater⟩ := hhead
      refine ⟨fuel + 1, ?_⟩
      rw [hlater] at hfuel
      have hbraced : braced (text :: texts) =
          '\x7b' :: ([','].intercalate ((text :: texts).map propertyText) ++ ['\x7d']) := rfl
      rw [hbraced, hlater, readJsonValue_object (skipSpace_cons (by decide) later),
        if_neg (by decide), hfuel]
      rfl

/-! ## The encoder -/

section Encoder

variable {numeral : JsNumber → Text}

/-- A number. -/
theorem PrintsBack.reads {q : Rat} (h : PrintsBack numeral q) :
    ReadsAs (numeral (.finite q)) (.primitive (.number (.finite q))) := by
  obtain ⟨x, hread, hvalue⟩ := h
  obtain ⟨c, tail, ht, hc⟩ := readNumber_head hread
  refine ⟨1, ?_⟩
  rw [ht] at hread ⊢
  rw [readJsonValue_number hc, hread, ← hvalue]
  rfl

/-- What the encoder writes reads as what is kept; it writes nothing when
nothing is kept. -/
def KeepsAs (payload : Payload) (kept : Option JsValue) : Prop := Option.Rel ReadsAs payload kept

/-- A number reads as what is kept of it: itself if it prints back, and null
if it is not finite. -/
theorem number_reads {n : JsNumber} (h : ∀ q ∈ n.finitePart, PrintsBack numeral q) :
    ReadsAs (encodeNumber numeral n) (.primitive n.kept) := by
  cases n with
  | finite q => exact (h q (by simp [JsNumber.finitePart])).reads
  | nan => exact ⟨1, rfl⟩
  | negInf => exact ⟨1, rfl⟩
  | posInf => exact ⟨1, rfl⟩

/-- A boolean reads as itself. -/
theorem boolean_reads (b : Bool) : ReadsAs (encodeBoolean b) (.primitive (.boolean b)) := by
  cases b
  all_goals exact ⟨1, rfl⟩

/-- What a primitive is written as reads as what is kept of it. -/
theorem primitive_keeps {p : JsPrimitive} (h : ∀ q ∈ p.numbers, PrintsBack numeral q) :
    KeepsAs (p.encode numeral) (p.kept.map .primitive) := by
  cases p with
  | undefined => exact .none
  | symbol => exact .none
  | null => exact .some ⟨1, rfl⟩
  | boolean b => exact .some (boolean_reads b)
  | number n => exact .some (number_reads h)
  | string t => exact .some (quoteJson_reads t)

/-- A boxed primitive is written as the primitive it holds; a boxed bigint is
refused, so it writes nothing that had to be read. -/
theorem boxed_keeps {b : JsBoxed} (h : ∀ q ∈ b.numbers, PrintsBack numeral q) {payload : Payload}
    (hencode : b.encode numeral = .ok payload) : KeepsAs payload (b.kept.map .primitive) := by
  cases b with
  | boolean b =>
      obtain rfl := Except.ok.inj hencode
      exact .some (boolean_reads b)
  | number n =>
      obtain rfl := Except.ok.inj hencode
      exact .some (number_reads h)
  | string t =>
      obtain rfl := Except.ok.inj hencode
      exact .some (quoteJson_reads t)
  | bigint => cases hencode

/-- `null` reads as null. -/
theorem null_reads : ReadsAs "null".toList .null := ⟨1, rfl⟩

/-- An element: `null` stands for what has no text. -/
theorem KeepsAs.element {payload : Payload} {kept : Option JsValue} (h : KeepsAs payload kept) :
    ReadsAs (payload.getD "null".toList) (kept.getD .null) := by
  cases h with
  | none => exact null_reads
  | some hread => exact hread

/-- A property: what has no text is left out. -/
theorem KeepsAs.property {payload : Payload} {kept : Option JsValue} (h : KeepsAs payload kept)
    (name : Text) {texts : List (Text × Text)} {properties : List (Text × JsValue)}
    (hrest : List.Forall₂ PropertyReads texts properties) :
    List.Forall₂ PropertyReads ((payload.map fun text => (name, text)).toList ++ texts)
      ((kept.map fun value => (name, value)).toList ++ properties) := by
  cases h with
  | none => exact hrest
  | some hread => exact .cons ⟨rfl, hread⟩ hrest

mutual

/-- **What the encoder writes** reads as what is kept of the value. The mutual
induction follows the encoder: a value, what its `toJSON` returned, its
content, its elements and its properties. -/
theorem encodeValue_keeps (value : JsValue) {payload : Payload}
    (h : ∀ q ∈ numbersIn value, PrintsBack numeral q)
    (hencode : encodeValue numeral value = .ok payload) : KeepsAs payload (keptValue value) := by
  match value with
  | .primitive p =>
      obtain rfl := Except.ok.inj hencode
      exact primitive_keeps h
  | .reference none content => exact encodeContent_keeps content h hencode
  | .reference (some (.error reason)) _ => cases hencode
  | .reference (some (.ok substitute)) _ => exact encodeSubstitute_keeps substitute h hencode

/-- The same for what `toJSON` returned, where one is there to call. -/
theorem encodeSubstitute_keeps (value : JsValue) {payload : Payload}
    (h : ∀ q ∈ numbersInSubstitute value, PrintsBack numeral q)
    (hencode : encodeSubstitute numeral value = .ok payload) :
    KeepsAs payload (keptSubstitute value) := by
  match value with
  | .primitive p =>
      obtain rfl := Except.ok.inj hencode
      exact primitive_keeps h
  | .reference _ content => exact encodeContent_keeps content h hencode

/-- The same for an object, an array or a boxed primitive. Functions have no
text, and a bigint or an object that cannot be read is refused. -/
theorem encodeContent_keeps (content : JsContent) {payload : Payload}
    (h : ∀ q ∈ numbersInContent content, PrintsBack numeral q)
    (hencode : encodeContent numeral content = .ok payload) :
    KeepsAs payload (keptContent content) := by
  match content with
  | .bigint => cases hencode
  | .function =>
      obtain rfl := Except.ok.inj hencode
      exact .none
  | .boxed b => exact boxed_keeps h hencode
  | .array elements =>
      rw [encodeContent] at hencode
      cases htexts : encodeElements numeral elements with
      | error reason => simp [htexts, Except.map] at hencode
      | ok texts =>
          rw [htexts] at hencode
          obtain rfl := Except.ok.inj hencode
          exact .some (bracketed_reads (encodeElements_keeps elements h htexts))
  | .object properties =>
      rw [encodeContent] at hencode
      cases htexts : encodeProperties numeral properties with
      | error reason => simp [htexts, Except.map] at hencode
      | ok texts =>
          rw [htexts] at hencode
          obtain rfl := Except.ok.inj hencode
          exact .some (braced_reads (encodeProperties_keeps properties h htexts))
  | .unreadable reason => cases hencode

/-- The elements of an array are written one by one; one that is not kept is
written as null. -/
theorem encodeElements_keeps (elements : List (Except Reason JsValue)) {texts : List Text}
    (h : ∀ q ∈ numbersInElements elements, PrintsBack numeral q)
    (hencode : encodeElements numeral elements = .ok texts) :
    List.Forall₂ ReadsAs texts (keptElements elements) := by
  match elements with
  | [] =>
      obtain rfl := Except.ok.inj hencode
      exact .nil
  | .error reason :: _ => cases hencode
  | .ok value :: rest =>
      rw [encodeElements] at hencode
      obtain ⟨payload, hvalue, hencode⟩ := ok_of_bind_ok hencode
      obtain ⟨later, hrest, hencode⟩ := ok_of_bind_ok hencode
      obtain rfl := Except.ok.inj hencode
      refine .cons (KeepsAs.element ?_) ?_
      · exact encodeValue_keeps value (fun q hq => h q (List.mem_append_left _ hq)) hvalue
      · exact encodeElements_keeps rest (fun q hq => h q (List.mem_append_right _ hq)) hrest

/-- The properties of an object are written one by one; one that is not kept
is left out of both lists. -/
theorem encodeProperties_keeps (properties : List (Text × Except Reason JsValue))
    {texts : List (Text × Text)} (h : ∀ q ∈ numbersInProperties properties, PrintsBack numeral q)
    (hencode : encodeProperties numeral properties = .ok texts) :
    List.Forall₂ PropertyReads texts (keptProperties properties) := by
  match properties with
  | [] =>
      obtain rfl := Except.ok.inj hencode
      exact .nil
  | (_, .error reason) :: _ => cases hencode
  | (name, .ok value) :: rest =>
      rw [encodeProperties] at hencode
      obtain ⟨payload, hvalue, hencode⟩ := ok_of_bind_ok hencode
      obtain ⟨later, hrest, hencode⟩ := ok_of_bind_ok hencode
      obtain rfl := Except.ok.inj hencode
      refine KeepsAs.property ?_ name ?_
      · exact encodeValue_keeps value (fun q hq => h q (List.mem_append_left _ hq)) hvalue
      · exact encodeProperties_keeps rest (fun q hq => h q (List.mem_append_right _ hq)) hrest

end

end Encoder

/-! ## Payloads -/

/-- A payload is accepted if white space around one value is all of it. How
much fuel there is does not matter, as `read_enough` shows. -/
theorem parseJson_eq_ok {t : Text} {value : JsValue} : parseJson t = .ok value ↔
    ∃ fuel rest, readJsonValue fuel (skipSpace t) = some (value, rest) ∧ skipSpace rest = [] := by
  unfold parseJson
  constructor
  · intro h
    split at h
    · rename_i read rest hread
      split at h
      · rename_i hend
        obtain rfl := Except.ok.inj h
        exact ⟨_, rest, hread, hend⟩
      · cases h
    · cases h
  · rintro ⟨fuel, rest, hread, hend⟩
    have hspace := skipSpace_length t
    rw [((read_enough fuel).1 _ _ _ hread).2 _ (by omega)]
    exact if_pos hend

/-- A text that reads as a value is parsed as it: no white space stands in
front of it and nothing is left behind. -/
theorem ReadsAs.parses {t : Text} {value : JsValue} (h : ReadsAs t value) :
    parseJson t = .ok value := by
  obtain ⟨fuel, hread⟩ := h
  have hskip := ReadsAs.noSpace ⟨fuel, hread⟩ []
  rw [List.append_nil] at hskip
  exact parseJson_eq_ok.mpr ⟨fuel, [], by rwa [hskip], rfl⟩

/-- **Cut short.**  A proper part at the beginning of the text of a value is
another number, or no value at all. -/
theorem ReadsAs.cut {t more : Text} {value other : JsValue} (h : ReadsAs (t ++ more) value)
    (hmore : more ≠ []) (hparse : parseJson t = .ok other) : value.IsNumber ∧ other.IsNumber := by
  obtain ⟨fuel, rest, hread, -⟩ := parseJson_eq_ok.mp hparse
  have hskip : skipSpace t = t := by
    obtain ⟨d, tail, heq, hspace, -⟩ := h.head
    cases t with
    | nil => rfl
    | cons c t =>
        obtain ⟨rfl, -⟩ := List.cons.inj heq
        exact skipSpace_cons hspace t
  rw [hskip] at hread
  obtain ⟨_, hwhole⟩ := h
  rcases readJsonValue_longer hread hwhole with hnumbers | ⟨-, hrest⟩
  · exact hnumbers.symm
  · exact absurd (List.append_eq_nil_iff.mp hrest.symm).2 hmore

/-- **Gone on.** What stands behind the text of a value, beyond white space,
makes it another number, or no value at all. -/
theorem ReadsAs.gone_on {t more : Text} {value other : JsValue} (h : ReadsAs t value)
    (hmore : skipSpace more ≠ []) (hparse : parseJson (t ++ more) = .ok other) :
    value.IsNumber ∧ other.IsNumber := by
  obtain ⟨fuel, rest, hread, hend⟩ := parseJson_eq_ok.mp hparse
  rw [h.noSpace] at hread
  obtain ⟨_, hvalue⟩ := h
  rcases readJsonValue_longer hvalue hread with hnumbers | ⟨-, rfl⟩
  · exact hnumbers
  · exact absurd hend hmore

section Serializer

variable {numeral : JsNumber → Text}

/-- Deserializing succeeds exactly where parsing does; the rest is the
wrapping of the error. -/
theorem deserialize_eq_ok {t : Text} {value : JsValue} :
    (jsonSerializer numeral parseJson).deserialize t = .ok value ↔ parseJson t = .ok value := by
  cases hparse : parseJson t with
  | ok parsed => simp [jsonSerializer, JsonSerializer, jsonRuntime, hparse]
  | error reason => simp [jsonSerializer, JsonSerializer, jsonRuntime, hparse, throwCache]

/-- What was serialized is what the encoder wrote: the checks in front of it
refuse, and change nothing. -/
theorem encodeValue_of_serialize {value : JsValue} {payload : Payload}
    (h : (jsonSerializer numeral parseJson).serialize value = .ok payload) :
    encodeValue numeral value = .ok payload := by
  rw [serialize_eq] at h
  split at h
  · cases h
  · split at h
    · rename_i hencode
      rw [hencode, ← Except.ok.inj h]
    · cases h

/-- What `serialize` wrote reads as what is kept of the value. -/
theorem serialize_keeps {value : JsValue} (hnumbers : ∀ q ∈ numbersIn value, PrintsBack numeral q)
    {text : Text} (h : (jsonSerializer numeral parseJson).serialize value = .ok (some text)) :
    ∃ kept, keptValue value = some kept ∧ ReadsAs text kept := by
  have hkeeps := encodeValue_keeps value hnumbers (encodeValue_of_serialize h)
  cases hkept : keptValue value with
  | none =>
      rw [hkept] at hkeeps
      cases hkeeps
  | some kept =>
      rw [hkept] at hkeeps
      cases hkeeps with
      | some hread => exact ⟨kept, rfl, hread⟩

/-- **Serialized values.** What `serialize` wrote, `deserialize` reads as what
JSON keeps of the value: what `toJSON` returned, without the parts that have
no text; of this nothing gets lost any more. -/
theorem serialized_reads_back (numeral : JsNumber → Text) (value : JsValue)
    (hnumbers : ∀ q ∈ numbersIn value, PrintsBack numeral q) {text : Text}
    (h : (jsonSerializer numeral parseJson).serialize value = .ok (some text)) :
    ∃ kept, keptValue value = some kept ∧
      (jsonSerializer numeral parseJson).deserialize text = .ok kept ∧
      keptValue kept = some kept := by
  obtain ⟨kept, hkept, hread⟩ := serialize_keeps hnumbers h
  exact ⟨kept, hkept, deserialize_eq_ok.mpr hread.parses, (keptValue_spelled value hkept).kept⟩

/-- Prints whole numbers. -/
def wholeNumeral : JsNumber → Text
  | .finite q => decimal q.num
  | .nan | .negInf | .posInf => []

/-- Seven prints back. -/
theorem wholeNumeral_seven : PrintsBack wholeNumeral 7 :=
  ⟨{ negative := false, whole := ['7'], fraction := [], exponent := 0 }, rfl, by decide +kernel⟩

/-- A visit count, and a session that does not want to be stored. -/
def visitRecord : JsValue :=
  .reference none (.object [("session".toList, .ok (.reference (some (.ok (.primitive .undefined)))
    (.object []))), ("visits".toList, .ok (.primitive (.number 7)))])

/-- The only number of the record is seven. -/
theorem visitRecord_numbers : ∀ q ∈ numbersIn visitRecord, PrintsBack wholeNumeral q := by
  intro q hq
  obtain rfl : q = 7 := List.mem_singleton.mp hq
  exact wholeNumeral_seven

/-- The record is written without its session. -/
theorem visitRecord_serialized : (jsonSerializer wholeNumeral parseJson).serialize visitRecord =
    .ok (some "\x7b\"visits\":7\x7d".toList) := rfl

/-- Only the count is left. -/
theorem serialized_reads_back_visits :
    (jsonSerializer wholeNumeral parseJson).deserialize "\x7b\"visits\":7\x7d".toList =
      .ok (.ofProperties [("visits".toList, .primitive (.number 7))]) := by
  obtain ⟨kept, hkept, hread, -⟩ :=
    serialized_reads_back wholeNumeral visitRecord visitRecord_numbers visitRecord_serialized
  obtain rfl := Option.some.inj hkept
  exact hread

/-- **Damaged payloads.** A payload that is cut short, or has more than white
space behind it, is refused as a failed decode, unless the value was a bare
number and what is left is one. -/
theorem damaged_payload_refused (numeral : JsNumber → Text) (value : JsValue)
    (hnumbers : ∀ q ∈ numbersIn value, PrintsBack numeral q) {text damaged : Text}
    (h : (jsonSerializer numeral parseJson).serialize value = .ok (some text))
    (hdamaged : (∃ more, more ≠ [] ∧ text = damaged ++ more) ∨
      ∃ more, skipSpace more ≠ [] ∧ damaged = text ++ more) :
    (∃ e : CacheException, e.code = .DESERIALIZATION_FAILED ∧
      (jsonSerializer numeral parseJson).deserialize damaged = .error (.cache e)) ∨
    ∃ n m, keptValue value = some (.primitive (.number n)) ∧
      (jsonSerializer numeral parseJson).deserialize damaged = .ok (.primitive (.number m)) := by
  obtain ⟨kept, hkept, hread⟩ := serialize_keeps hnumbers h
  cases hresult : (jsonSerializer numeral parseJson).deserialize damaged with
  | error thrown =>
      obtain ⟨e, rfl, hcode⟩ := JsonSerializer_error _ hresult
      exact .inl ⟨e, hcode, rfl⟩
  | ok other =>
      have hparse := deserialize_eq_ok.mp hresult
      have hboth : kept.IsNumber ∧ other.IsNumber := by
        rcases hdamaged with ⟨more, hmore, rfl⟩ | ⟨more, hmore, rfl⟩
        · exact hread.cut hmore hparse
        · exact hread.gone_on hmore hparse
      obtain ⟨⟨n, rfl⟩, m, rfl⟩ := hboth
      exact .inr ⟨n, m, hkept, rfl⟩

/-- Without its closing brace, the record is refused. -/
theorem damaged_payload_refused_visits : ∃ e : CacheException, e.code = .DESERIALIZATION_FAILED ∧
    (jsonSerializer wholeNumeral parseJson).deserialize "\x7b\"visits\":7".toList =
      .error (.cache e) := by
  refine (damaged_payload_refused wholeNumeral visitRecord visitRecord_numbers
    visitRecord_serialized (.inl ⟨['\x7d'], by decide, by decide⟩)).resolve_right ?_
  rintro ⟨n, m, hkept, -⟩
  cases hkept

/-- **Payloads written again.** What `deserialize` returned and `serialize`
turned into a text again is read from that text as what JSON keeps of it,
which is everything but the numbers beyond the doubles: the value is the same
exactly if it has no such number, `null` stands in the place of each of them,
and nothing is lost any more when that is written and read again. -/
theorem deserialized_writes_back (numeral : JsNumber → Text) {payload text : Text}
    {value : JsValue} (h : (jsonSerializer numeral parseJson).deserialize payload = .ok value)
    (hserialize : (jsonSerializer numeral parseJson).serialize value = .ok (some text))
    (hnumbers : ∀ q ∈ numbersIn value, PrintsBack numeral q) :
    ∃ kept, (jsonSerializer numeral parseJson).deserialize text = .ok kept ∧
      keptValue value = some kept ∧ value.NullsLarge kept ∧
      (kept = value ↔ value.Spelled JsNumber.IsFinite) ∧
      ∀ again, (jsonSerializer numeral parseJson).serialize kept = .ok (some again) →
        (jsonSerializer numeral parseJson).deserialize again = .ok kept := by
  obtain ⟨fuel, rest, hread, -⟩ := parseJson_eq_ok.mp (deserialize_eq_ok.mp h)
  obtain ⟨hown, hnulls⟩ := ((read_spelled fuel).1 _ _ _ hread).nullsLarge
  obtain ⟨kept, hkept, hback⟩ := serialize_keeps hnumbers hserialize
  obtain rfl : value.keptOrNull = kept := Option.some.inj (hown.symm.trans hkept)
  have hspelled := keptValue_spelled value hkept
  refine ⟨_, deserialize_eq_ok.mpr hback.parses, hkept, hnulls, ⟨fun heq => ?_, fun hfinite => ?_⟩,
    fun again hagain => ?_⟩
  · exact heq ▸ hspelled
  · exact Option.some.inj (hown.symm.trans hfinite.kept)
  · obtain ⟨kept', hkept', hback'⟩ := serialize_keeps
      (fun q hq => hnumbers q (numbersIn_kept value hkept hq)) hagain
    obtain rfl : _ = kept' := Option.some.inj (hspelled.kept.symm.trans hkept')
    exact deserialize_eq_ok.mpr hback'.parses

/-- A numeral beyond the doubles is read as infinity. -/
theorem tooLarge_reads : ReadsAs "1e999".toList (.primitive (.number .posInf)) := by
  have hnumber : readNumber "1e999".toList =
      some ({ negative := false, whole := ['1'], fraction := [], exponent := 999 }, []) := rfl
  have hvalue : JsNumber.ofRat (Numeral.value
      { negative := false, whole := ['1'], fraction := [], exponent := 999 }) = .posInf := by
    decide +kernel
  refine ⟨1, ?_⟩
  rw [show "1e999".toList = '1' :: "e999".toList from rfl] at hnumber ⊢
  rw [readJsonValue_number (.inr rfl), hnumber, ← hvalue]
  rfl

/-- Ten to the 999 is read, and lost when it is written again. In its place the
second text has null. -/
theorem deserialized_writes_back_large :
    (jsonSerializer wholeNumeral parseJson).deserialize "[7,null]".toList =
      .ok (.ofElements [.primitive (.number 7), .null]) ∧
    JsValue.NullsLarge (.ofElements [.primitive (.number 7), .primitive (.number .posInf)])
      (.ofElements [.primitive (.number 7), .null]) := by
  have hread : ReadsAs "[7,1e999]".toList
      (.ofElements [.primitive (.number 7), .primitive (.number .posInf)]) :=
    bracketed_reads (.cons wholeNumeral_seven.reads (.cons tooLarge_reads .nil))
  have hserialize : (jsonSerializer wholeNumeral parseJson).serialize
      (.ofElements [.primitive (.number 7), .primitive (.number .posInf)]) =
        .ok (some "[7,null]".toList) := rfl
  obtain ⟨kept, hdeserialize, hkept, hnulls, -⟩ := deserialized_writes_back wholeNumeral
    (deserialize_eq_ok.mpr hread.parses) hserialize (by
      intro q hq
      obtain rfl : q = 7 := List.mem_singleton.mp hq
      exact wholeNumeral_seven)
  obtain rfl : JsValue.ofElements [.primitive (.number 7), .null] = kept := Option.some.inj hkept
  exact ⟨hdeserialize, hnulls⟩

end Serializer

end NestCache
