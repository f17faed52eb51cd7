import Mathlib.Data.List.TakeWhile
import NestCache.JsonDecoder

/-!
# Reading JSON is local

* `readJsonValue_append` — more text behind what was read changes nothing, unless
  this ends with a number and the text goes on with it;
* `read_enough` — twice as much fuel as the text is long reads all that any fuel
  reads.
-/

namespace NestCache

/-! ## Tokens -/

/-- Nothing that a number could go on with. -/
def Stops (t : Text) : Prop :=
  ∀ c ∈ t.head?, isDigit c = false ∧ c ≠ '.' ∧ c ≠ 'e' ∧ c ≠ 'E'

/-- What is left ends the number, or what comes behind does. -/
def EndsBefore (rest more : Text) : Prop := rest ≠ [] ∨ Stops more

/-- Where a number stops there are no digits to take. -/
theorem Stops.takeWhile {t : Text} (h : Stops t) : t.takeWhile isDigit = [] := by
  cases t with
  | nil => rfl
  | cons c t => simp [(h c rfl).1]

/-- Where a number stops there are no digits to drop. -/
theorem Stops.dropWhile {t : Text} (h : Stops t) : t.dropWhile isDigit = t := by
  cases t with
  | nil => rfl
  | cons c t => simp [(h c rfl).1]

/-- White space is skipped up to the same character when more is appended. -/
theorem skipSpace_append {t rest more : Text} {c : Char} (h : skipSpace t = c :: rest) :
    skipSpace (t ++ more) = c :: (rest ++ more) := by
  unfold skipSpace at h ⊢
  rw [List.dropWhile_append, h]
  rfl

/-- Nothing is skipped in front of a character that is no white space. -/
theorem skipSpace_cons {c : Char} (h : isJsonSpace c = false) (t : Text) :
    skipSpace (c :: t) = c :: t := by
  simp [skipSpace, h]

/-- A unit in front of the units that are read. -/
def consUnit (unit : StringUnit) (read : Option (List StringUnit × Text)) :
    Option (List StringUnit × Text) :=
  read.map fun (units, rest) => (unit :: units, rest)

/-- The word is read as the unit, whatever follows it. -/
def Spells (word : Text) (unit : StringUnit) : Prop :=
  word ≠ [] ∧ ∀ more, readUnits (word ++ more) = consUnit unit (readUnits more)

/-- A printable character other than the quote and the backslash spells
itself. -/
theorem Spells.char {c : Char} (hquote : c ≠ '"') (hescape : c ≠ '\\')
    (hprintable : ¬ c.toNat < 0x20) : Spells [c] (.char c) := by
  refine ⟨by simp, fun more => ?_⟩
  rw [List.singleton_append, readUnits]
  · rw [if_neg (by simp [hescape, hprintable])]
    cases readUnits more <;> rfl
  · exact hquote
  · exact fun _ _ _ _ _ h _ => hescape h
  · exact fun _ _ h _ => hescape h

/-- A backslash and one of the letters of the escapes spell the escaped
character. -/
theorem Spells.escape {c escaped : Char} (h : escapedCharacter? c = some escaped) :
    Spells ['\\', c] (.char escaped) := by
  have hne : c ≠ 'u' := by
    rintro rfl
    cases h
  refine ⟨by simp, fun more => ?_⟩
  show readUnits ('\\' :: c :: more) = _
  rw [readUnits]
  · rw [h]
    cases readUnits more <;> rfl
  · exact fun _ _ _ _ _ hu _ => hne hu

/-- `\u` and four hexadecimal digits spell a code unit. -/
theorem Spells.codeUnit {a b c d : Char} {n : Nat} (h : hexCodeUnit? a b c d = some n) :
    Spells ['\\', 'u', a, b, c, d] (.codeUnit n) := by
  refine ⟨by simp, fun more => ?_⟩
  show readUnits ('\\' :: 'u' :: a :: b :: c :: d :: more) = _
  rw [readUnits, h]
  cases readUnits more <;> rfl

/-- A unit is put in front of what is read behind it, and only if that
is read. -/
theorem consUnit_eq_some {unit : StringUnit} {read : Option (List StringUnit × Text)}
    {units : List StringUnit} {rest : Text} : consUnit unit read = some (units, rest) ↔
      ∃ later, read = some (later, rest) ∧ units = unit :: later := by
  cases read with
  | none => simp [consUnit]
  | some read => simp [consUnit, Prod.ext_iff, eq_comm, and_comm]

/-- **One unit.** What is read begins with the end of the string or with a
word that spells a unit. -/
theorem readUnits_cases {t rest : Text} {units : List StringUnit}
    (h : readUnits t = some (units, rest)) :
    (t = '"' :: rest ∧ units = []) ∨ ∃ word unit tail later, Spells word unit ∧
      t = word ++ tail ∧ readUnits tail = some (later, rest) ∧ units = unit :: later := by
  have hspelled : ∀ {word tail : Text} {unit : StringUnit}, Spells word unit → t = word ++ tail →
      ∃ word unit tail later, Spells word unit ∧ t = word ++ tail ∧
        readUnits tail = some (later, rest) ∧ units = unit :: later := by
    rintro word tail unit hspells rfl
    rw [hspells.2 tail] at h
    obtain ⟨later, htail, hunits⟩ := consUnit_eq_some.mp h
    exact ⟨word, unit, tail, later, hspells, rfl, htail, hunits⟩
  fun_cases readUnits t with
  | case1 => cases h
  | case2 tail =>
      obtain ⟨rfl, rfl⟩ := Prod.mk.inj (Option.some.inj h)
      exact .inl ⟨rfl, rfl⟩
  | case3 a b c d tail =>
      cases hn : hexCodeUnit? a b c d with
      | none => simp [readUnits, hn] at h
      | some n => exact .inr (hspelled (.codeUnit hn) rfl)
  | case4 c tail hu =>
      cases hescaped : escapedCharacter? c with
      | none => simp [readUnits, hescaped] at h
      | some escaped => exact .inr (hspelled (.escape hescaped) rfl)
  | case5 c tail hquote hescape hletter hbad => simp [readUnits, hbad] at h
  | case6 c tail hquote hescape hletter hgood =>
      push Not at hgood
      exact .inr (hspelled (.char (fun hc => hquote hc) hgood.1 (by omega)) rfl)

/-- What is read up to the closing quote does not depend on what comes behind
it; the induction is along the units. -/
theorem readUnits_append {t rest : Text} {units : List StringUnit}
    (h : readUnits t = some (units, rest)) (more : Text) :
    readUnits (t ++ more) = some (units, rest ++ more) := by
  induction units generalizing t with
  | nil =>
      rcases readUnits_cases h with ⟨rfl, -⟩ | ⟨_, _, _, _, -, -, -, heq⟩
      · rfl
      · cases heq
  | cons unit units ih =>
      rcases readUnits_cases h with ⟨-, heq⟩ | ⟨word, _, tail, _, hspells, rfl, htail, heq⟩
      · cases heq
      · obtain ⟨rfl, rfl⟩ := List.cons.inj heq
        rw [List.append_assoc, hspells.2, ih htail]
        rfl

/-- A string is read the same whatever comes behind it: its closing
quote ends it. -/
theorem readString_append {t text rest : Text} (h : readString t = some (text, rest))
    (more : Text) : readString (t ++ more) = some (text, rest ++ more) := by
  obtain ⟨⟨units, tail⟩, hunits, heq⟩ := Option.map_eq_some_iff.mp h
  obtain ⟨rfl, rfl⟩ := Prod.mk.inj heq
  simp [readString, readUnits_append hunits more]

/-! ### Numbers -/

/-- A text does not begin with a digit. -/
def NoDigit (t : Text) : Prop := ∀ c ∈ t.head?, isDigit c = false

/-- The digits in front of something that is no digit are all the digits
there are. -/
theorem takeWhile_digits {digits rest : Text} (hdigits : ∀ c ∈ digits, isDigit c = true)
    (hrest : NoDigit rest) : (digits ++ rest).takeWhile isDigit = digits ∧
      (digits ++ rest).dropWhile isDigit = rest := by
  rw [List.takeWhile_append_of_pos hdigits, List.dropWhile_append_of_pos hdigits]
  cases rest with
  | nil => simp
  | cons c rest => simp [hrest c rfl]

/-- **Digits** are read as far as they go. There is at least one, and what is
left does not begin with another. -/
theorem readDigits_eq_some {t digits rest : Text} : readDigits t = some (digits, rest) ↔
    t = digits ++ rest ∧ digits ≠ [] ∧ (∀ c ∈ digits, isDigit c = true) ∧ NoDigit rest := by
  constructor
  · intro h
    unfold readDigits at h
    split at h
    · cases h
    · rename_i hne
      obtain ⟨rfl, rfl⟩ := Prod.mk.inj (Option.some.inj h)
      refine ⟨List.takeWhile_append_dropWhile.symm, hne, fun c hc => List.mem_takeWhile_imp hc,
        fun c hc => ?_⟩
      have hnot := List.head?_dropWhile_not isDigit t
      rw [Option.mem_def.mp hc] at hnot
      simpa using hnot
  · rintro ⟨rfl, hne, hdigits, hrest⟩
    obtain ⟨htake, hdrop⟩ := takeWhile_digits hdigits hrest
    rw [readDigits, htake, hdrop, if_neg hne]

/-- The end of a run of digits stays its end when something that ends a number
is appended. -/
theorem NoDigit.append {rest more : Text} (h : NoDigit rest) (hends : EndsBefore rest more) :
    NoDigit (rest ++ more) := by
  cases rest with
  | nil =>
      rcases hends with hne | hstops
      · exact absurd rfl hne
      · exact fun c hc => (hstops c hc).1
  | cons c rest => exact h

/-- Digits are read the same when something is appended that does not go on
with the number. Without that condition a number at the end of a text would
take in digits of what follows. -/
theorem readDigits_append {t digits rest more : Text} (h : readDigits t = some (digits, rest))
    (hends : EndsBefore rest more) : readDigits (t ++ more) = some (digits, rest ++ more) := by
  obtain ⟨rfl, hne, hdigits, hrest⟩ := readDigits_eq_some.mp h
  exact readDigits_eq_some.mpr ⟨by simp, hne, hdigits, hrest.append hends⟩

/-- A fraction is read the same when something is appended that does not go on
with the number. Where the text ends in front of it, the appended text must
not begin with a point. -/
theorem readFractionPart_append {t fraction rest more : Text}
    (h : readFractionPart t = some (fraction, rest)) (hends : EndsBefore rest more) :
    readFractionPart (t ++ more) = some (fraction, rest ++ more) := by
  unfold readFractionPart at h
  split at h
  · exact readDigits_append h hends
  · rename_i hpoint
    obtain ⟨rfl, rfl⟩ := Prod.mk.inj (Option.some.inj h)
    unfold readFractionPart
    split
    · rename_i heq
      cases t with
      | nil =>
          rcases hends with hne | hstops
          · exact absurd rfl hne
          · exact absurd rfl (hstops '.' (by simp [show more = _ from heq])).2.1
      | cons c t =>
          obtain ⟨rfl, -⟩ := List.cons.inj heq
          exact absurd rfl (hpoint t)
    · rfl

/-- The sign is the first character, so only an empty text could take it from
what is appended. -/
theorem readSign_append {t : Text} (h : t ≠ []) (more : Text) :
    readSign (t ++ more) = ((readSign t).1, (readSign t).2 ++ more) := by
  cases t with
  | nil => exact absurd rfl h
  | cons c t =>
      rw [List.cons_append]
      unfold readSign
      split
      · rename_i heq
        obtain ⟨rfl, rfl⟩ := List.cons.inj heq
        rfl
      · rename_i heq
        obtain ⟨rfl, rfl⟩ := List.cons.inj heq
        rfl
      · rename_i hminus hplus
        split
        · rename_i heq
          obtain ⟨rfl, rfl⟩ := List.cons.inj heq
          exact absurd rfl (hminus _)
        · rename_i heq
          obtain ⟨rfl, rfl⟩ := List.cons.inj heq
          exact absurd rfl (hplus _)
        · rfl

/-- An exponent is read the same when something is appended that does not go
on with the number. Where the text ends in front of it, the appended text must
not begin with `e` or `E`. -/
theorem readExponentPart_append {t rest more : Text} {exponent : Int}
    (h : readExponentPart t = some (exponent, rest)) (hends : EndsBefore rest more) :
    readExponentPart (t ++ more) = some (exponent, rest ++ more) := by
  cases t with
  | nil =>
      obtain ⟨rfl, rfl⟩ := Prod.mk.inj (Option.some.inj h)
      have hstops := hends.resolve_left (by simp)
      cases more with
      | nil => rfl
      | cons c more =>
          obtain ⟨-, -, he, hE⟩ := hstops c rfl
          simp [readExponentPart, he, hE]
  | cons c t =>
      rw [List.cons_append]
      simp only [readExponentPart] at h ⊢
      split
      · rename_i he
        rw [if_pos he] at h
        obtain ⟨⟨digits, rest'⟩, hdigits, heq⟩ := Option.map_eq_some_iff.mp h
        obtain ⟨rfl, rfl⟩ := Prod.mk.inj heq
        have hne : t ≠ [] := by
          rintro rfl
          cases hdigits
        rw [readSign_append hne, readDigits_append hdigits hends]
        rfl
      · rename_i he
        rw [if_neg he] at h
        obtain ⟨rfl, rfl⟩ := Prod.mk.inj (Option.some.inj h)
        rfl

/-- A number is read part by part. The sign, the whole part without leading
zeros, the fraction and the exponent follow each other, and each leaves to the
next what it has not read. -/
theorem readNumber_eq_some {t rest : Text} {numeral : Numeral} :
    readNumber t = some (numeral, rest) ↔ numeral.negative = (readMinus t).1 ∧
      ∃ behindWhole behindFraction,
        readDigits (readMinus t).2 = some (numeral.whole, behindWhole) ∧
        (numeral.whole.head? = some '0' → numeral.whole = ['0']) ∧
        readFractionPart behindWhole = some (numeral.fraction, behindFraction) ∧
        readExponentPart behindFraction = some (numeral.exponent, rest) := by
  unfold readNumber
  constructor
  · intro h
    simp only [Option.bind_eq_bind, Option.bind_eq_some_iff, Prod.exists] at h
    obtain ⟨whole, behindWhole, hwhole, h⟩ := h
    split at h
    · cases h
    · rename_i hzero
      simp only [Option.bind_eq_some_iff, Option.pure_def, Option.some.injEq, Prod.exists,
        Prod.mk.injEq] at h
      obtain ⟨fraction, behindFraction, hfraction, exponent, rest', hexponent, rfl, rfl⟩ := h
      exact ⟨rfl, behindWhole, behindFraction, hwhole,
        fun hhead => by_contra fun hne => hzero ⟨hhead, hne⟩, hfraction, hexponent⟩
  · rintro ⟨hnegative, behindWhole, behindFraction, hwhole, hzero, hfraction, hexponent⟩
    have hguard : ¬ (numeral.whole.head? = some '0' ∧ numeral.whole ≠ ['0']) :=
      fun hbad => hbad.2 (hzero hbad.1)
    simp [hwhole, hguard, hfraction, hexponent, ← hnegative]

/-- The minus sign is the first character, as the sign of an exponent is. -/
theorem readMinus_append {t : Text} (h : t ≠ []) (more : Text) :
    readMinus (t ++ more) = ((readMinus t).1, (readMinus t).2 ++ more) := by
  cases t with
  | nil => exact absurd rfl h
  | cons c t =>
      by_cases hminus : c = '-'
      · subst hminus
        rfl
      · rw [List.cons_append, readMinus, readMinus]
        · rfl
        · exact fun _ h => hminus (List.cons.inj h).1
        · exact fun _ h => hminus (List.cons.inj h).1

/-- What a number is read from begins with a digit or a minus sign. The sign is
read first, and behind it there has to be a digit. -/
theorem readNumber_head {t rest : Text} {numeral : Numeral}
    (h : readNumber t = some (numeral, rest)) :
    ∃ c tail, t = c :: tail ∧ (c = '-' ∨ isDigit c = true) := by
  obtain ⟨-, behindWhole, -, hwhole, -⟩ := readNumber_eq_some.mp h
  obtain ⟨hsplit, hne, hdigits, -⟩ := readDigits_eq_some.mp hwhole
  cases t with
  | nil =>
      exact absurd (List.append_eq_nil_iff.mp hsplit.symm).1 hne
  | cons c tail =>
      refine ⟨c, tail, rfl, ?_⟩
      by_cases hminus : c = '-'
      · exact .inl hminus
      · rw [readMinus] at hsplit
        · obtain ⟨d, digits, hd⟩ := List.exists_cons_of_ne_nil hne
          rw [hd] at hsplit hdigits
          obtain ⟨rfl, -⟩ := List.cons.inj hsplit
          exact .inr (hdigits c List.mem_cons_self)
        · exact fun _ h => hminus (List.cons.inj h).1

/-- **A number** is read the same when something is appended that does not go
on with it: part by part, from the lemmas on digits, fraction and exponent. -/
theorem readNumber_append {t rest more : Text} {numeral : Numeral}
    (h : readNumber t = some (numeral, rest)) (hends : EndsBefore rest more) :
    readNumber (t ++ more) = some (numeral, rest ++ more) := by
  obtain ⟨c, tail, rfl, -⟩ := readNumber_head h
  obtain ⟨hnegative, behindWhole, behindFraction, hwhole, hzero, hfraction, hexponent⟩ :=
    readNumber_eq_some.mp h
  have hminus := readMinus_append (t := c :: tail) (by simp) more
  -- where a part ends the text, so do the parts behind it
  have hbehind : EndsBefore behindFraction more := by
    refine hends.imp (fun hne hnil => hne ?_) id
    subst hnil
    exact (Prod.mk.inj (Option.some.inj hexponent)).2.symm
  have hend : EndsBefore behindWhole more := by
    refine hbehind.imp (fun hne hnil => hne ?_) id
    subst hnil
    exact (Prod.mk.inj (Option.some.inj hfraction)).2.symm
  refine readNumber_eq_some.mpr ⟨by rw [hminus]; exact hnegative, behindWhole ++ more,
    behindFraction ++ more, ?_, hzero, readFractionPart_append hfraction hbehind,
    readExponentPart_append hexponent hends⟩
  rw [hminus]
  exact readDigits_append hwhole hend

/-! ## Values -/

/-- What a number begins with is none of the characters that another value
begins with. -/
theorem isDigit_ne {c : Char} (h : c = '-' ∨ isDigit c = true) {d : Char} (hminus : d ≠ '-')
    (hd : isDigit d = false) : c ≠ d := by
  rintro rfl
  rcases h with rfl | hdigit
  · exact hminus rfl
  · rw [hd] at hdigit
    cases hdigit

/-- Where a number is read. -/
theorem readJsonValue_number {c : Char} (hc : c = '-' ∨ isDigit c = true) (fuel : Nat) (t : Text) :
    readJsonValue (fuel + 1) (c :: t) = (readNumber (c :: t)).map fun (numeral, rest) =>
      (.primitive (.number (.ofRat numeral.value)), rest) := by
  rw [readJsonValue]
  all_goals
    intro _ h
    exact isDigit_ne hc (by decide) (by decide) (List.cons.inj h).1

/-- No value is read from an empty text. -/
theorem readJsonValue_nil (fuel : Nat) : readJsonValue fuel [] = none := by
  cases fuel <;> rfl

/-- No elements are read from an empty text: the closing bracket is missing. -/
theorem readElements_nil (fuel : Nat) : readElements fuel [] = none := by
  cases fuel with
  | zero => rfl
  | succ fuel => simp [readElements, readJsonValue_nil]

/-- No members are read from an empty text: the closing brace is missing. -/
theorem readMembers_nil (fuel : Nat) : readMembers fuel [] = none := by
  cases fuel <;> rfl

/-- Behind the opening bracket of an array. -/
theorem readJsonValue_array {t tail : Text} {c : Char} (h : skipSpace t = c :: tail) (fuel : Nat) :
    readJsonValue (fuel + 1) ('[' :: t) =
      if c = ']' then some (.ofElements [], tail)
      else (readElements fuel (c :: tail)).map fun (elements, rest) =>
        (.ofElements elements, rest) := by
  rw [readJsonValue, h]
  split
  · rename_i heq
    obtain ⟨rfl, rfl⟩ := List.cons.inj heq
    rfl
  · rename_i hne
    rw [if_neg fun hc => hne tail (by rw [hc])]

/-- Behind the opening brace of an object. -/
theorem readJsonValue_object {t tail : Text} {c : Char} (h : skipSpace t = c :: tail) (fuel : Nat) :
    readJsonValue (fuel + 1) ('\x7b' :: t) =
      if c = '\x7d' then some (.ofProperties [], tail)
      else (readMembers fuel (c :: tail)).map fun (properties, rest) =>
        (.ofProperties properties, rest) := by
  rw [readJsonValue, h]
  split
  · rename_i heq
    obtain ⟨rfl, rfl⟩ := List.cons.inj heq
    rfl
  · rename_i hne
    rw [if_neg fun hc => hne tail (by rw [hc])]

/-- What can be read at the beginning of a text; `fuel` is for what is
inside of it. -/
inductive ReadsValue (fuel : Nat) : Text → JsValue → Text → Prop
  | null (rest : Text) : ReadsValue fuel ('n' :: 'u' :: 'l' :: 'l' :: rest) .null rest
  | true (rest : Text) :
      ReadsValue fuel ('t' :: 'r' :: 'u' :: 'e' :: rest) (.primitive (.boolean true)) rest
  | false (rest : Text) :
      ReadsValue fuel ('f' :: 'a' :: 'l' :: 's' :: 'e' :: rest) (.primitive (.boolean false)) rest
  | string {t text rest : Text} (h : readString t = some (text, rest)) :
      ReadsValue fuel ('"' :: t) (.primitive (.string text)) rest
  | emptyArray {t rest : Text} (h : skipSpace t = ']' :: rest) :
      ReadsValue fuel ('[' :: t) (.ofElements []) rest
  | array {t tail rest : Text} {c : Char} {elements : List JsValue}
      (hskip : skipSpace t = c :: tail) (hopen : c ≠ ']')
      (h : readElements fuel (c :: tail) = some (elements, rest)) :
      ReadsValue fuel ('[' :: t) (.ofElements elements) rest
  | emptyObject {t rest : Text} (h : skipSpace t = '\x7d' :: rest) :
      ReadsValue fuel ('\x7b' :: t) (.ofProperties []) rest
  | object {t tail rest : Text} {c : Char} {properties : List (Text × JsValue)}
      (hskip : skipSpace t = c :: tail) (hopen : c ≠ '\x7d')
      (h : readMembers fuel (c :: tail) = some (properties, rest)) :
      ReadsValue fuel ('\x7b' :: t) (.ofProperties properties) rest
  | number {c : Char} {t rest : Text} {numeral : Numeral} (hc : c = '-' ∨ isDigit c = true)
      (h : readNumber (c :: t) = some (numeral, rest)) :
      ReadsValue fuel (c :: t) (.primitive (.number (.ofRat numeral.value))) rest

/-- **One value.** The relation has one constructor for each branch of the
reader, so that later proofs go by its cases and not through the code. -/
theorem readJsonValue_eq_some {fuel : Nat} {t rest : Text} {value : JsValue} :
    readJsonValue (fuel + 1) t = some (value, rest) ↔ ReadsValue fuel t value rest := by
  constructor
  · intro h
    unfold readJsonValue at h
    split at h
    · obtain ⟨rfl, rfl⟩ := Prod.mk.inj (Option.some.inj h)
      exact .null _
    · obtain ⟨rfl, rfl⟩ := Prod.mk.inj (Option.some.inj h)
      exact .true _
    · obtain ⟨rfl, rfl⟩ := Prod.mk.inj (Option.some.inj h)
      exact .false _
    · obtain ⟨⟨text, tail⟩, hstring, heq⟩ := Option.map_eq_some_iff.mp h
      obtain ⟨rfl, rfl⟩ := Prod.mk.inj heq
      exact .string hstring
    · rename_i t
      split at h
      · rename_i tail hskip
        obtain ⟨rfl, rfl⟩ := Prod.mk.inj (Option.some.inj h)
        exact .emptyArray hskip
      · rename_i hopen
        obtain ⟨⟨elements, tail⟩, helements, heq⟩ := Option.map_eq_some_iff.mp h
        obtain ⟨rfl, rfl⟩ := Prod.mk.inj heq
        cases hskip : skipSpace t with
        | nil => simp [hskip, readElements_nil] at helements
        | cons c inner =>
            exact .array hskip (fun hc => hopen inner (by rw [hskip, hc])) (hskip ▸ helements)
    · rename_i t
      split at h
      · rename_i tail hskip
        obtain ⟨rfl, rfl⟩ := Prod.mk.inj (Option.some.inj h)
        exact .emptyObject hskip
      · rename_i hopen
        obtain ⟨⟨properties, tail⟩, hproperties, heq⟩ := Option.map_eq_some_iff.mp h
        obtain ⟨rfl, rfl⟩ := Prod.mk.inj heq
        cases hskip : skipSpace t with
        | nil => simp [hskip, readMembers_nil] at hproperties
        | cons c inner =>
            exact .object hskip (fun hc => hopen inner (by rw [hskip, hc])) (hskip ▸ hproperties)
    · obtain ⟨⟨numeral, tail⟩, hnumber, heq⟩ := Option.map_eq_some_iff.mp h
      obtain ⟨rfl, rfl⟩ := Prod.mk.inj heq
      obtain ⟨c, t, rfl, hc⟩ := readNumber_head hnumber
      exact .number hc hnumber
  · intro h
    cases h with
    | null => rfl
    | true => rfl
    | false => rfl
    | string hstring => simp [readJsonValue, hstring]
    | emptyArray hskip => rw [readJsonValue_array hskip, if_pos rfl]
    | array hskip hopen helements =>
        rw [readJsonValue_array hskip, if_neg hopen, helements]
        rfl
    | emptyObject hskip => rw [readJsonValue_object hskip, if_pos rfl]
    | object hskip hopen hproperties =>
        rw [readJsonValue_object hskip, if_neg hopen, hproperties]
        rfl
    | number hc hnumber =>
        rw [readJsonValue_number hc, hnumber]
        rfl

/-- What is read behind an element. Either a closing bracket ends the array, or
a comma is followed by more elements; white space may stand on both sides. -/
theorem readElements_eq_some {fuel : Nat} {t rest : Text} {elements : List JsValue} :
    readElements (fuel + 1) t = some (elements, rest) ↔ ∃ value behind,
      readJsonValue fuel t = some (value, behind) ∧
      ((skipSpace behind = ']' :: rest ∧ elements = [value]) ∨
        ∃ tail values, skipSpace behind = ',' :: tail ∧
          readElements fuel (skipSpace tail) = some (values, rest) ∧
          elements = value :: values) := by
  rw [readElements]
  cases hvalue : readJsonValue fuel t with
  | none => simp
  | some read =>
      obtain ⟨value, behind⟩ := read
      constructor
      · intro h
        refine ⟨value, behind, rfl, ?_⟩
        simp only [Option.bind_eq_bind, Option.bind_some] at h
        split at h
        · rename_i tail hskip
          obtain ⟨rfl, rfl⟩ := Prod.mk.inj (Option.some.inj h)
          exact .inl ⟨hskip, rfl⟩
        · rename_i tail hskip
          obtain ⟨⟨values, rest'⟩, hvalues, heq⟩ := Option.bind_eq_some_iff.mp h
          obtain ⟨rfl, rfl⟩ := Prod.mk.inj (Option.some.inj heq)
          exact .inr ⟨tail, values, hskip, hvalues, rfl⟩
        · cases h
      · rintro ⟨_, _, heq, h⟩
        obtain ⟨rfl, rfl⟩ := Prod.mk.inj (Option.some.inj heq)
        rcases h with ⟨hskip, rfl⟩ | ⟨tail, values, hskip, hvalues, rfl⟩
        · simp [hskip]
        · simp [hskip, hvalues]

/-- What is read behind a property. A quoted name, a colon and a value make a
property; a comma or the closing brace follows it. -/
theorem readMembers_eq_some {fuel : Nat} {t rest : Text} {properties : List (Text × JsValue)} :
    readMembers (fuel + 1) t = some (properties, rest) ↔
      ∃ quoted name value behindName colon behind,
      t = '"' :: quoted ∧ readString quoted = some (name, behindName) ∧
      skipSpace behindName = ':' :: colon ∧
      readJsonValue fuel (skipSpace colon) = some (value, behind) ∧
      ((skipSpace behind = '\x7d' :: rest ∧ properties = [(name, value)]) ∨
        ∃ tail others, skipSpace behind = ',' :: tail ∧
          readMembers fuel (skipSpace tail) = some (others, rest) ∧
          properties = (name, value) :: others) := by
  constructor
  · intro h
    unfold readMembers at h
    split at h
    · rename_i quoted
      obtain ⟨⟨name, behindName⟩, hname, h⟩ := Option.bind_eq_some_iff.mp h
      simp only at h
      split at h
      · rename_i colon hcolon
        obtain ⟨⟨value, behind⟩, hvalue, h⟩ := Option.bind_eq_some_iff.mp h
        refine ⟨quoted, name, value, behindName, colon, behind, rfl, hname, hcolon, hvalue, ?_⟩
        simp only at h
        split at h
        · rename_i tail hskip
          obtain ⟨rfl, rfl⟩ := Prod.mk.inj (Option.some.inj h)
          exact .inl ⟨hskip, rfl⟩
        · rename_i tail hskip
          obtain ⟨⟨others, rest'⟩, hothers, heq⟩ := Option.bind_eq_some_iff.mp h
          obtain ⟨rfl, rfl⟩ := Prod.mk.inj (Option.some.inj heq)
          exact .inr ⟨tail, others, hskip, hothers, rfl⟩
        · cases h
      · cases h
    · cases h
  · rintro ⟨quoted, name, value, behindName, colon, behind, rfl, hname, hcolon, hvalue, h⟩
    rw [readMembers]
    rcases h with ⟨hskip, rfl⟩ | ⟨tail, others, hskip, hothers, rfl⟩
    · simp [hname, hcolon, hvalue, hskip]
    · simp [hname, hcolon, hvalue, hskip, hothers]

/-- Where something other than white space is left, the number ends before
what is appended. -/
theorem endsBefore_of_skipSpace {rest tail : Text} {c : Char} (h : skipSpace rest = c :: tail)
    (more : Text) : EndsBefore rest more := by
  refine .inl ?_
  rintro rfl
  cases h

/-- Skipping space before something that is read. -/
theorem skipSpace_append_of_read {α : Type} {read : Text → Option α} {t : Text} {a : α}
    (hnil : read [] = none) (h : read (skipSpace t) = some a) (more : Text) :
    skipSpace (t ++ more) = skipSpace t ++ more := by
  cases hskip : skipSpace t with
  | nil =>
      rw [hskip, hnil] at h
      cases h
  | cons c tail => exact skipSpace_append hskip

/-- The value is a number. -/
def JsValue.IsNumber (value : JsValue) : Prop := ∃ n, value = .primitive (.number n)

/-- **Locality**, for values, elements and properties at once. The mutual
induction is on the fuel; only a number at the end of the text can depend on
what is appended. -/
theorem read_append (fuel : Nat) (more : Text) :
    (∀ t value rest, readJsonValue fuel t = some (value, rest) →
      (value.IsNumber → EndsBefore rest more) →
      readJsonValue fuel (t ++ more) = some (value, rest ++ more)) ∧
    (∀ t elements rest, readElements fuel t = some (elements, rest) →
      readElements fuel (t ++ more) = some (elements, rest ++ more)) ∧
    ∀ t properties rest, readMembers fuel t = some (properties, rest) →
      readMembers fuel (t ++ more) = some (properties, rest ++ more) := by
  induction fuel with
  | zero =>
      refine ⟨?_, ?_, ?_⟩
      all_goals
        intro t _ _ h
        cases h
  | succ fuel ih =>
      obtain ⟨ihvalue, ihelements, ihmembers⟩ := ih
      refine ⟨fun t value rest h hends => ?_, fun t elements rest h => ?_,
        fun t properties rest h => ?_⟩
      · refine readJsonValue_eq_some.mpr ?_
        cases readJsonValue_eq_some.mp h with
        | null => exact .null _
        | true => exact .true _
        | false => exact .false _
        | string hstring => exact .string (readString_append hstring more)
        | emptyArray hskip => exact .emptyArray (skipSpace_append hskip)
        | array hskip hopen helements =>
            exact .array (skipSpace_append hskip) hopen (ihelements _ _ _ helements)
        | emptyObject hskip => exact .emptyObject (skipSpace_append hskip)
        | object hskip hopen hproperties =>
            exact .object (skipSpace_append hskip) hopen (ihmembers _ _ _ hproperties)
        | number hc hnumber => exact .number hc (readNumber_append hnumber (hends ⟨_, rfl⟩))
      · obtain ⟨value, behind, hvalue, h⟩ := readElements_eq_some.mp h
        refine readElements_eq_some.mpr ⟨value, behind ++ more, ?_, ?_⟩
        · refine ihvalue _ _ _ hvalue fun _ => ?_
          rcases h with ⟨hskip, -⟩ | ⟨tail, values, hskip, -⟩
          · exact endsBefore_of_skipSpace hskip more
          · exact endsBefore_of_skipSpace hskip more
        · rcases h with ⟨hskip, rfl⟩ | ⟨tail, values, hskip, hvalues, rfl⟩
          · exact .inl ⟨skipSpace_append hskip, rfl⟩
          · refine .inr ⟨tail ++ more, values, skipSpace_append hskip, ?_, rfl⟩
            rw [skipSpace_append_of_read (readElements_nil fuel) hvalues]
            exact ihelements _ _ _ hvalues
      · obtain ⟨quoted, name, value, behindName, colon, behind, rfl, hname, hcolon, hvalue, h⟩ :=
          readMembers_eq_some.mp h
        refine readMembers_eq_some.mpr ⟨quoted ++ more, name, value, behindName ++ more,
          colon ++ more, behind ++ more, rfl, readString_append hname more,
          skipSpace_append hcolon, ?_, ?_⟩
        · rw [skipSpace_append_of_read (readJsonValue_nil fuel) hvalue]
          refine ihvalue _ _ _ hvalue fun _ => ?_
          rcases h with ⟨hskip, -⟩ | ⟨tail, others, hskip, -⟩
          · exact endsBefore_of_skipSpace hskip more
          · exact endsBefore_of_skipSpace hskip more
        · rcases h with ⟨hskip, rfl⟩ | ⟨tail, others, hskip, hothers, rfl⟩
          · exact .inl ⟨skipSpace_append hskip, rfl⟩
          · refine .inr ⟨tail ++ more, others, skipSpace_append hskip, ?_, rfl⟩
            rw [skipSpace_append_of_read (readMembers_nil fuel) hothers]
            exact ihmembers _ _ _ hothers

/-- **Locality.** More text behind a value changes nothing, unless the value
is a number at the end of the text and goes on. -/
theorem readJsonValue_append {fuel : Nat} {t rest more : Text} {value : JsValue}
    (h : readJsonValue fuel t = some (value, rest))
    (hends : value.IsNumber → EndsBefore rest more) :
    readJsonValue fuel (t ++ more) = some (value, rest ++ more) :=
  (read_append fuel more).1 t value rest h hends

/-- The first character tells the numbers. No other value begins with a digit
or a minus sign. -/
theorem readJsonValue_isNumber {fuel : Nat} {c : Char} {t rest : Text} {value : JsValue}
    (h : readJsonValue fuel (c :: t) = some (value, rest)) :
    value.IsNumber ↔ c = '-' ∨ isDigit c = true := by
  cases fuel with
  | zero => cases h
  | succ fuel =>
      constructor
      · rintro ⟨n, rfl⟩
        cases readJsonValue_eq_some.mp h with
        | number hc => exact hc
      · intro hc
        rw [readJsonValue_number hc] at h
        obtain ⟨_, -, heq⟩ := Option.map_eq_some_iff.mp h
        exact ⟨_, (Prod.mk.inj heq).1.symm⟩

/-! ## Fuel -/

/-- Skipping white space makes a text no longer. -/
theorem skipSpace_length (t : Text) : (skipSpace t).length ≤ t.length :=
  (List.dropWhile_sublist isJsonSpace).length_le

/-- What is left behind the first character that is no white space is
shorter. -/
theorem length_of_skipSpace {t tail : Text} {c : Char} (h : skipSpace t = c :: tail) :
    tail.length < t.length := by
  have hle := skipSpace_length t
  rw [h, List.length_cons] at hle
  omega

/-- The units of a string take at least the closing quote; with it the
induction on the length of the text goes through. -/
theorem readUnits_length {t rest : Text} {units : List StringUnit}
    (h : readUnits t = some (units, rest)) : rest.length < t.length := by
  induction units generalizing t with
  | nil =>
      rcases readUnits_cases h with ⟨rfl, -⟩ | ⟨_, _, _, _, -, -, -, heq⟩
      · simp
      · cases heq
  | cons unit units ih =>
      rcases readUnits_cases h with ⟨-, heq⟩ | ⟨word, _, tail, _, -, rfl, htail, heq⟩
      · cases heq
      · obtain ⟨rfl, rfl⟩ := List.cons.inj heq
        have hlength := ih htail
        rw [List.length_append]
        omega

/-- A string takes at least its closing quote. -/
theorem readString_length {t text rest : Text} (h : readString t = some (text, rest)) :
    rest.length < t.length := by
  obtain ⟨⟨units, tail⟩, hunits, heq⟩ := Option.map_eq_some_iff.mp h
  obtain ⟨rfl, rfl⟩ := Prod.mk.inj heq
  exact readUnits_length hunits

/-- Digits are read only if there is one. -/
theorem readDigits_length {t digits rest : Text} (h : readDigits t = some (digits, rest)) :
    rest.length < t.length := by
  obtain ⟨rfl, hne, -⟩ := readDigits_eq_some.mp h
  have hpos := List.length_pos_iff.mpr hne
  rw [List.length_append]
  omega

/-- A number takes at least one digit. The sign may be missing, and the
fraction and the exponent only take more away. -/
theorem readNumber_length {t rest : Text} {numeral : Numeral}
    (h : readNumber t = some (numeral, rest)) : rest.length < t.length := by
  obtain ⟨-, behindWhole, behindFraction, hwhole, -, hfraction, hexponent⟩ :=
    readNumber_eq_some.mp h
  have hminus : (readMinus t).2.length ≤ t.length := by
    unfold readMinus
    split <;> simp
  have hdigits := readDigits_length hwhole
  have hpoint : behindFraction.length ≤ behindWhole.length := by
    unfold readFractionPart at hfraction
    split at hfraction
    · have hlength := readDigits_length hfraction
      rw [List.length_cons]
      omega
    · obtain ⟨-, rfl⟩ := Prod.mk.inj (Option.some.inj hfraction)
      exact Nat.le_refl _
  have hletter : rest.length ≤ behindFraction.length := by
    unfold readExponentPart at hexponent
    split at hexponent
    · obtain ⟨-, rfl⟩ := Prod.mk.inj (Option.some.inj hexponent)
      exact Nat.le_refl _
    · rename_i c tail
      split at hexponent
      · obtain ⟨⟨digits, rest'⟩, hread, heq⟩ := Option.map_eq_some_iff.mp hexponent
        obtain ⟨-, rfl⟩ := Prod.mk.inj heq
        have hlength : rest'.length < (readSign tail).2.length := readDigits_length hread
        have hsign : (readSign tail).2.length ≤ tail.length := by
          unfold readSign
          split <;> simp
        rw [List.length_cons]
        omega
      · obtain ⟨-, rfl⟩ := Prod.mk.inj (Option.some.inj hexponent)
        exact Nat.le_refl _
  omega

/-- **Enough fuel.** What is read with any fuel is read with twice as much as
the text is long; for values, elements and properties at once. -/
theorem read_enough (fuel : Nat) :
    (∀ t value rest, readJsonValue fuel t = some (value, rest) → rest.length < t.length ∧
      ∀ enough, 2 * t.length ≤ enough → readJsonValue enough t = some (value, rest)) ∧
    (∀ t elements rest, readElements fuel t = some (elements, rest) → rest.length < t.length ∧
      ∀ enough, 2 * t.length < enough → readElements enough t = some (elements, rest)) ∧
    ∀ t properties rest, readMembers fuel t = some (properties, rest) → rest.length < t.length ∧
      ∀ enough, 2 * t.length < enough → readMembers enough t = some (properties, rest) := by
  induction fuel with
  | zero =>
      refine ⟨?_, ?_, ?_⟩
      all_goals
        intro t _ _ h
        cases h
  | succ fuel ih =>
      obtain ⟨ihvalue, ihelements, ihmembers⟩ := ih
      refine ⟨fun t value rest h => ?_, fun t elements rest h => ?_,
        fun t properties rest h => ?_⟩
      · have hread := readJsonValue_eq_some.mp h
        suffices hboth : rest.length < t.length ∧
            ∀ less, 2 * t.length ≤ less + 1 → ReadsValue less t value rest by
          refine ⟨hboth.1, fun enough henough => ?_⟩
          obtain ⟨less, rfl⟩ : ∃ less, enough = less + 1 := ⟨enough - 1, by omega⟩
          exact readJsonValue_eq_some.mpr (hboth.2 less henough)
        cases hread with
        | null => exact ⟨by simp only [List.length_cons]; omega, fun _ _ => .null _⟩
        | true => exact ⟨by simp only [List.length_cons]; omega, fun _ _ => .true _⟩
        | false => exact ⟨by simp only [List.length_cons]; omega, fun _ _ => .false _⟩
        | string hstring =>
            have hlength := readString_length hstring
            exact ⟨by rw [List.length_cons]; omega, fun _ _ => .string hstring⟩
        | emptyArray hskip =>
            have hlength := length_of_skipSpace hskip
            exact ⟨by rw [List.length_cons]; omega, fun _ _ => .emptyArray hskip⟩
        | @array t _ _ _ _ hskip hopen helements =>
            obtain ⟨hlength, hall⟩ := ihelements _ _ _ helements
            have hspace := skipSpace_length t
            rw [hskip] at hspace
            rw [List.length_cons]
            exact ⟨by omega, fun less hless => .array hskip hopen (hall less (by omega))⟩
        | emptyObject hskip =>
            have hlength := length_of_skipSpace hskip
            exact ⟨by rw [List.length_cons]; omega, fun _ _ => .emptyObject hskip⟩
        | @object t _ _ _ _ hskip hopen hproperties =>
            obtain ⟨hlength, hall⟩ := ihmembers _ _ _ hproperties
            have hspace := skipSpace_length t
            rw [hskip] at hspace
            rw [List.length_cons]
            exact ⟨by omega, fun less hless => .object hskip hopen (hall less (by omega))⟩
        | number hc hnumber => exact ⟨readNumber_length hnumber, fun _ _ => .number hc hnumber⟩
      · obtain ⟨value, behind, hvalue, h⟩ := readElements_eq_some.mp h
        obtain ⟨hlength, hall⟩ := ihvalue _ _ _ hvalue
        rcases h with ⟨hskip, rfl⟩ | ⟨tail, values, hskip, hvalues, rfl⟩
        · have hclose := length_of_skipSpace hskip
          refine ⟨by omega, fun enough henough => ?_⟩
          obtain ⟨less, rfl⟩ : ∃ less, enough = less + 1 := ⟨enough - 1, by omega⟩
          exact readElements_eq_some.mpr ⟨value, behind, hall less (by omega), .inl ⟨hskip, rfl⟩⟩
        · obtain ⟨hshorter, hothers⟩ := ihelements _ _ _ hvalues
          have hcomma := length_of_skipSpace hskip
          have hspace := skipSpace_length tail
          refine ⟨by omega, fun enough henough => ?_⟩
          obtain ⟨less, rfl⟩ : ∃ less, enough = less + 1 := ⟨enough - 1, by omega⟩
          exact readElements_eq_some.mpr ⟨value, behind, hall less (by omega),
            .inr ⟨tail, values, hskip, hothers less (by omega), rfl⟩⟩
      · obtain ⟨quoted, name, value, behindName, colon, behind, rfl, hname, hcolon, hvalue, h⟩ :=
          readMembers_eq_some.mp h
        obtain ⟨hlength, hall⟩ := ihvalue _ _ _ hvalue
        have hquoted := readString_length hname
        have hafter := length_of_skipSpace hcolon
        have hgap := skipSpace_length colon
        rcases h with ⟨hskip, rfl⟩ | ⟨tail, others, hskip, hothers, rfl⟩
        · have hclose := length_of_skipSpace hskip
          refine ⟨by rw [List.length_cons]; omega, fun enough henough => ?_⟩
          obtain ⟨less, rfl⟩ : ∃ less, enough = less + 1 := ⟨enough - 1, by omega⟩
          rw [List.length_cons] at henough
          exact readMembers_eq_some.mpr ⟨quoted, name, value, behindName, colon, behind, rfl, hname,
            hcolon, hall less (by omega), .inl ⟨hskip, rfl⟩⟩
        · obtain ⟨hshorter, hrest⟩ := ihmembers _ _ _ hothers
          have hcomma := length_of_skipSpace hskip
          have hspace := skipSpace_length tail
          refine ⟨by rw [List.length_cons]; omega, fun enough henough => ?_⟩
          obtain ⟨less, rfl⟩ : ∃ less, enough = less + 1 := ⟨enough - 1, by omega⟩
          rw [List.length_cons] at henough
          exact readMembers_eq_some.mpr ⟨quoted, name, value, behindName, colon, behind, rfl, hname,
            hcolon, hall less (by omega), .inr ⟨tail, others, hskip, hrest less (by omega), rfl⟩⟩

/-- **A text and a longer one.** The same value is read from both, or
two numbers. -/
theorem readJsonValue_longer {fuel fuel' : Nat} {t more rest rest' : Text} {value other : JsValue}
    (h : readJsonValue fuel t = some (value, rest))
    (hlonger : readJsonValue fuel' (t ++ more) = some (other, rest')) :
    (value.IsNumber ∧ other.IsNumber) ∨ other = value ∧ rest' = rest ++ more := by
  cases t with
  | nil =>
      rw [readJsonValue_nil] at h
      cases h
  | cons c t =>
      rw [List.cons_append] at hlonger
      by_cases hc : c = '-' ∨ isDigit c = true
      · exact .inl ⟨(readJsonValue_isNumber h).mpr hc, (readJsonValue_isNumber hlonger).mpr hc⟩
      · refine .inr ?_
        have hends : value.IsNumber → EndsBefore rest more :=
          fun hnumber => absurd ((readJsonValue_isNumber h).mp hnumber) hc
        have hmore := readJsonValue_append h hends
        rw [List.cons_append] at hmore
        -- fuel that is enough for both
        have hboth := ((read_enough fuel).1 _ _ _ hmore).2 _ (Nat.le_refl _)
        rw [((read_enough fuel').1 _ _ _ hlonger).2 _ (Nat.le_refl _)] at hboth
        exact Prod.mk.inj (Option.some.inj hboth)

end NestCache
