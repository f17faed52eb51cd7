import Mathlib.Data.Set.Function
import NestCache.KeyBuilder
import NestCache.UriComponents

/-!
# Unambiguous keys

A key concatenates three strings around two separators and says nothing about
where each of them ends.  With a one-character separator that occurs in none of
them, it can be cut in one way only; encoded fields never contain a separator
that `encodeURIComponent` does not emit.
-/

namespace NestCache

/-- What a key is composed of. -/
structure KeyFields where
  nameSpace : Text
  keyPrefix : Text
  id : Text

namespace KeyFields

/-- The key of the fields. -/
def key (separator : Text) (fields : KeyFields) : Except Thrown Text :=
  KeyBuilder.build ⟨fields.nameSpace, separator⟩ fields.keyPrefix fields.id

/-- The fields as a caller encodes untrusted input. -/
def encoded (fields : KeyFields) : KeyFields :=
  { fields with
    keyPrefix := encodeURIComponent fields.keyPrefix
    id := encodeURIComponent fields.id }

/-- An accepted namespace and nonempty fields. -/
structure Accepted (separator : Text) (fields : KeyFields) : Prop where
  nameSpace : validateNamespace fields.nameSpace separator = .ok ()
  keyPrefix : fields.keyPrefix ≠ []
  id : fields.id ≠ []

/-- Neither field contains the separator. -/
structure FreeOf (separator : Char) (fields : KeyFields) : Prop where
  keyPrefix : separator ∉ fields.keyPrefix
  id : separator ∉ fields.id

/-- Accepted fields have a key. -/
theorem Accepted.key_eq {separator : Text} {fields : KeyFields} (h : fields.Accepted separator) :
    fields.key separator = .ok (fields.nameSpace ++ separator ++ fields.keyPrefix ++ separator ++
      fields.id) :=
  KeyBuilder.build_eq_ok.mpr ⟨h.keyPrefix, h.id, rfl⟩

/-- Encoding keeps the fields nonempty and does not touch the namespace. -/
theorem Accepted.encoded {separator : Text} {fields : KeyFields} (h : fields.Accepted separator) :
    fields.encoded.Accepted separator :=
  ⟨h.nameSpace, encodeURIComponent_ne_nil h.keyPrefix, encodeURIComponent_ne_nil h.id⟩

/-- An accepted namespace does not contain a one-character separator. -/
theorem Accepted.notMem_nameSpace {separator : Char} {fields : KeyFields}
    (h : fields.Accepted [separator]) : separator ∉ fields.nameSpace := by
  rw [← List.singleton_infix_iff]
  exact (validateNamespace_eq_ok.mp h.nameSpace).1.no_separator

/-- Encoded fields are free of what `encodeURIComponent` does not emit. -/
theorem freeOf_encoded {separator : Char} (hsep : isUriCharacter separator = false)
    (fields : KeyFields) : fields.encoded.FreeOf separator := by
  constructor
  · intro hmem
    simp [isUriCharacter_encodeURIComponent hmem] at hsep
  · intro hmem
    simp [isUriCharacter_encodeURIComponent hmem] at hsep

/-- **Encoding loses nothing**: the fields are read back from their
encoding. -/
theorem encoded_injective : Function.Injective encoded := by
  rintro ⟨nameSpace, keyPrefix, id⟩ ⟨nameSpace', keyPrefix', id'⟩ h
  simp only [encoded, mk.injEq] at h
  obtain ⟨rfl, hpre, hid⟩ := h
  rw [encodeURIComponent_injective hpre, encodeURIComponent_injective hid]

/-- **Unique decomposition.**  Accepted fields without the separator are
determined by their key: the namespace ends at the first separator, the prefix
at the second. -/
theorem key_injOn (separator : Char) :
    Set.InjOn (key [separator])
      {fields | fields.Accepted [separator] ∧ fields.FreeOf separator} := by
  rintro ⟨nameSpace, keyPrefix, id⟩ ⟨haccepted, hfree⟩ ⟨nameSpace', keyPrefix', id'⟩
    ⟨haccepted', hfree'⟩ h
  rw [haccepted.key_eq, haccepted'.key_eq] at h
  have hword : nameSpace ++ separator :: (keyPrefix ++ separator :: id) =
      nameSpace' ++ separator :: (keyPrefix' ++ separator :: id') := by
    simpa using Except.ok.inj h
  obtain ⟨rfl, hrest⟩ :=
    WordOverlap.cut_unique haccepted.notMem_nameSpace haccepted'.notMem_nameSpace hword
  obtain ⟨rfl, rfl⟩ := WordOverlap.cut_unique hfree.keyPrefix hfree'.keyPrefix hrest
  rfl

end KeyFields

open KeyFields

/-- **Unambiguous keys.** Every accepted triple has a key. For every
one-character separator, the key determines namespace, prefix and id among
the fields without the separator; when `encodeURIComponent` does not emit
the separator, the key of the encoded fields determines any namespace,
prefix and id. -/
theorem keys_unambiguous (separator : Char) :
    (∀ fields : KeyFields, fields.Accepted [separator] →
      (∃ key, fields.key [separator] = .ok key) ∧
        ∃ key, fields.encoded.key [separator] = .ok key) ∧
    Set.InjOn (KeyFields.key [separator])
      {fields | fields.Accepted [separator] ∧ fields.FreeOf separator} ∧
    (isUriCharacter separator = false →
      Set.InjOn (fun fields : KeyFields => fields.encoded.key [separator])
        {fields | fields.Accepted [separator]}) := by
  refine ⟨fun fields h => ⟨⟨_, h.key_eq⟩, _, h.encoded.key_eq⟩, key_injOn separator, fun hsep => ?_⟩
  intro fields haccepted fields' haccepted' h
  exact encoded_injective (key_injOn separator ⟨haccepted.encoded, freeOf_encoded hsep fields⟩
    ⟨haccepted'.encoded, freeOf_encoded hsep fields'⟩ h)

example : (KeyFields.mk "app".toList "a:b".toList "c".toList).encoded.key [':'] =
    .ok "app:a%3Ab:c".toList := by decide

end NestCache
