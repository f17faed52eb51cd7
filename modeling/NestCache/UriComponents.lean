import Mathlib.Data.List.Basic
import NestCache.JsValues

/-!
# Encoded URI components

`encodeURIComponent` keeps the unreserved characters and writes the UTF-8 bytes
of every other one as `%XX`.  What it emits is confined to `isUriCharacter`, and
reading the bytes back shows that two strings never encode alike.
-/

namespace NestCache

/-- Letters, digits and the marks that `encodeURIComponent` keeps. -/
def isUnreserved (c : Char) : Bool :=
  c.isAlphanum || "-_.!~*'()".toList.contains c

/-- Everything that `encodeURIComponent` emits. -/
def isUriCharacter (c : Char) : Bool := isUnreserved c || c == '%'

/-- An upper-case hexadecimal digit. -/
def hexDigit (n : Nat) : Char := Char.ofNat (if n < 10 then '0'.toNat + n else 'A'.toNat + (n - 10))

/-- A byte as `%XX`. -/
def percentByte (b : UInt8) : Text := ['%', hexDigit (b.toNat / 16), hexDigit (b.toNat % 16)]

/-- One character encoded. -/
def encodeUriCharacter (c : Char) : Text :=
  if isUnreserved c then [c] else (String.utf8EncodeChar c).flatMap percentByte

/-- `encodeURIComponent`, on well-formed strings. -/
def encodeURIComponent (t : Text) : Text := t.flatMap encodeUriCharacter

/-! ## What is emitted -/

/-- The sixteen hexadecimal digits are among the characters of an encoding. -/
theorem isUriCharacter_hexDigit : ∀ n < 16, isUriCharacter (hexDigit n) = true := by decide

/-- Every character of an encoding is one that `encodeURIComponent` emits: a
character that is kept, or one of a percent sign and two digits. -/
theorem isUriCharacter_encodeUriCharacter {c d : Char} (h : d ∈ encodeUriCharacter c) :
    isUriCharacter d = true := by
  unfold encodeUriCharacter at h
  split at h
  · rename_i hc
    rw [List.mem_singleton.mp h, isUriCharacter, hc, Bool.true_or]
  · obtain ⟨b, -, hd⟩ := List.mem_flatMap.mp h
    have hb : b.toNat < 256 := b.toNat_lt
    simp only [percentByte, List.mem_cons, List.not_mem_nil, or_false] at hd
    rcases hd with rfl | rfl | rfl
    · decide
    · exact isUriCharacter_hexDigit _ (by omega)
    · exact isUriCharacter_hexDigit _ (by omega)

/-- **Alphabet.** Only letters, digits, unreserved marks and `%` are
emitted. -/
theorem isUriCharacter_encodeURIComponent {t : Text} {d : Char} (h : d ∈ encodeURIComponent t) :
    isUriCharacter d = true := by
  obtain ⟨c, -, hd⟩ := List.mem_flatMap.mp h
  exact isUriCharacter_encodeUriCharacter hd

/-- No character is encoded as nothing. -/
theorem encodeUriCharacter_ne_nil (c : Char) : encodeUriCharacter c ≠ [] := by
  unfold encodeUriCharacter
  split
  · exact List.cons_ne_nil _ _
  · obtain ⟨b, bytes, hbytes⟩ := List.exists_cons_of_ne_nil (@String.utf8EncodeChar_ne_nil c)
    simp [hbytes, percentByte]

/-- So a nonempty text is encoded as a nonempty one, and is not refused as
a key part. -/
theorem encodeURIComponent_ne_nil {t : Text} (h : t ≠ []) : encodeURIComponent t ≠ [] := by
  cases t with
  | nil => exact absurd rfl h
  | cons c t => simp [encodeURIComponent, encodeUriCharacter_ne_nil c]

/-! ## Reading back -/

/-- The value of an upper-case hexadecimal digit. -/
def hexValue (c : Char) : Nat :=
  if c.toNat < 'A'.toNat then c.toNat - '0'.toNat else c.toNat - 'A'.toNat + 10

/-- The bytes behind an encoded component. -/
def uriBytes : Text → List UInt8
  | '%' :: high :: low :: rest => (hexValue high * 16 + hexValue low).toUInt8 :: uriBytes rest
  | c :: rest => c.toNat.toUInt8 :: uriBytes rest
  | [] => []

/-- The value of a digit is read back from it. -/
theorem hexValue_hexDigit : ∀ n < 16, hexValue (hexDigit n) = n := by decide

/-- An escaped byte is read back as the byte. -/
theorem uriBytes_percentByte (b : UInt8) (rest : Text) :
    uriBytes (percentByte b ++ rest) = b :: uriBytes rest := by
  have hb : b.toNat < 256 := b.toNat_lt
  have hvalue : b.toNat / 16 * 16 + b.toNat % 16 = b.toNat := by omega
  simp only [percentByte, List.cons_append, List.nil_append, uriBytes]
  rw [hexValue_hexDigit _ (by omega), hexValue_hexDigit _ (by omega), hvalue]
  simp

/-- Escaped bytes are read back one by one. -/
theorem uriBytes_percentBytes (bytes : List UInt8) (rest : Text) :
    uriBytes (bytes.flatMap percentByte ++ rest) = bytes ++ uriBytes rest := by
  induction bytes with
  | nil => rfl
  | cons b bytes ih =>
      rw [List.flatMap_cons, List.append_assoc, uriBytes_percentByte, ih, List.cons_append]

/-- An unreserved character is one byte of its own, and no `%`. So it is not
mistaken for an escape when the encoding is read back. -/
theorem isUnreserved_ascii {c : Char} (h : isUnreserved c = true) : c.toNat ≤ 127 ∧ c ≠ '%' := by
  refine ⟨?_, fun hc => ?_⟩
  · -- Each class is a range of code points that ends below 128.
    have hclasses : (((c.isUpper || c.isLower) || c.isDigit) ||
        "-_.!~*'()".toList.contains c) = true := h
    rw [Bool.or_eq_true, Bool.or_eq_true, Bool.or_eq_true, List.contains_iff_mem] at hclasses
    rcases hclasses with ((hupper | hlower) | hdigit) | hmark
    · have hrange : 'A'.val ≤ c.val ∧ c.val ≤ 'Z'.val := of_decide_eq_true hupper
      exact le_trans (UInt32.le_iff_toNat_le.mp hrange.2) (by decide)
    · have hlast : c.val ≤ 'z'.val := of_decide_eq_true (Bool.and_eq_true_iff.mp hlower).2
      exact le_trans (UInt32.le_iff_toNat_le.mp hlast) (by decide)
    · have hlast : c.val ≤ '9'.val := of_decide_eq_true (Bool.and_eq_true_iff.mp hdigit).2
      exact le_trans (UInt32.le_iff_toNat_le.mp hlast) (by decide)
    · have hmarks : ("-_.!~*'()".toList.all fun d => d.toNat ≤ 127) = true := by decide
      exact of_decide_eq_true (List.all_eq_true.mp hmarks c hmark)
  · rw [hc] at h
    exact absurd h (by decide)

/-- A character is read back as its bytes in UTF-8, escaped or not, which
makes the encoding injective. -/
theorem uriBytes_encodeUriCharacter (c : Char) (rest : Text) :
    uriBytes (encodeUriCharacter c ++ rest) = String.utf8EncodeChar c ++ uriBytes rest := by
  unfold encodeUriCharacter
  split
  · rename_i hc
    obtain ⟨hascii, hpercent⟩ := isUnreserved_ascii hc
    have hsize : c.utf8Size = 1 :=
      Char.utf8Size_eq_one_iff.mpr (UInt32.le_iff_toNat_le.mpr hascii)
    rw [String.utf8EncodeChar_eq_singleton hsize, List.singleton_append, uriBytes]
    · rfl
    · rintro high low rest' rfl
      exact absurd rfl hpercent
  · exact uriBytes_percentBytes _ rest

/-- **Reading back.** The bytes behind an encoded string are those of
the string. -/
theorem uriBytes_encodeURIComponent (t : Text) :
    uriBytes (encodeURIComponent t) = t.flatMap String.utf8EncodeChar := by
  induction t with
  | nil => rfl
  | cons c t ih =>
      rw [encodeURIComponent, List.flatMap_cons, uriBytes_encodeUriCharacter, List.flatMap_cons]
      exact congrArg _ ih

/-- **Injectivity.** -/
theorem encodeURIComponent_injective : Function.Injective encodeURIComponent := by
  intro t t' h
  have hbytes : t.flatMap String.utf8EncodeChar = t'.flatMap String.utf8EncodeChar := by
    rw [← uriBytes_encodeURIComponent, ← uriBytes_encodeURIComponent, h]
  have hstrings : String.ofList t = String.ofList t' := by
    apply String.toByteArray_inj.mp
    rw [String.toByteArray_ofList, String.toByteArray_ofList, List.utf8Encode, List.utf8Encode,
      hbytes]
  simpa using congrArg String.toList hstrings

end NestCache
