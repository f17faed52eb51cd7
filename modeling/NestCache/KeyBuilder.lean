import NestCache.OptionValidation
import NestCache.WordOverlap

/-!
# Namespaced keys

Every key is `{namespace}{separator}{prefix}{separator}{id}` and every channel
`{namespace}{separator}{name}`.  The flush region of a namespace is the set of
keys that start with `{namespace}{separator}`; two namespaces are isolated when
no key of one lies in the region of the other.

`isolated_iff` is the exact condition: the check that the namespace does not
contain the separator is enough unless one namespace is the other followed by
a shift of the separator.  It always is enough for a one-character separator.
-/

namespace NestCache

/-- The key builder: the namespace and separator of the resolved options. -/
structure KeyBuilder where
  nameSpace : Text
  separator : Text
  deriving DecidableEq

namespace KeyBuilder

/-- The constructor. -/
def ofOptions (options : ResolvedOptions) : KeyBuilder :=
  ⟨options.nameSpace, options.keySeparator⟩

/-- The refusal of an empty key part. -/
def invalidKey (reason : String) : Except Thrown Text :=
  throwCache .INVALID_KEY [detail "reason" reason]

/-- Builds the full namespaced key. -/
def build (kb : KeyBuilder) (keyPrefix id : Text) : Except Thrown Text :=
  if keyPrefix = [] then invalidKey "empty_prefix"
  else if id = [] then invalidKey "empty_id"
  else .ok (kb.nameSpace ++ kb.separator ++ keyPrefix ++ kb.separator ++ id)

/-- Applies only the namespace to an already composed key. -/
def applyNamespace (kb : KeyBuilder) (keyWithoutNamespace : Text) : Except Thrown Text :=
  if keyWithoutNamespace = [] then invalidKey "empty_key"
  else .ok (kb.nameSpace ++ kb.separator ++ keyWithoutNamespace)

/-- The `{namespace}{separator}` prefix. -/
def getNamespacePrefix (kb : KeyBuilder) : Text := kb.nameSpace ++ kb.separator

/-- A key or channel that the builder can return. -/
inductive Composes (kb : KeyBuilder) : Text → Prop
  | build {keyPrefix id key : Text} (h : kb.build keyPrefix id = .ok key) : Composes kb key
  | applyNamespace {bare key : Text} (h : kb.applyNamespace bare = .ok key) : Composes kb key

/-- The keys a flush of this namespace is meant to remove. -/
def FlushRegion (kb : KeyBuilder) (key : Text) : Prop := kb.getNamespacePrefix <+: key

instance (kb : KeyBuilder) (key : Text) : Decidable (kb.FlushRegion key) := by
  unfold FlushRegion; infer_instance

/-- What is built, and from what. -/
theorem build_eq_ok {kb : KeyBuilder} {keyPrefix id key : Text} :
    kb.build keyPrefix id = .ok key ↔ keyPrefix ≠ [] ∧ id ≠ [] ∧
      key = kb.nameSpace ++ kb.separator ++ keyPrefix ++ kb.separator ++ id := by
  unfold build invalidKey throwCache
  by_cases hpre : keyPrefix = []
  · simp [hpre]
  · by_cases hid : id = []
    · simp [hpre, hid]
    · simp [hpre, hid, eq_comm]

/-- `applyNamespace` checks nothing but that the bare key is nonempty. -/
theorem applyNamespace_of_ne_nil (kb : KeyBuilder) {bare : Text} (h : bare ≠ []) :
    kb.applyNamespace bare = .ok (kb.getNamespacePrefix ++ bare) := by
  simp [applyNamespace, getNamespacePrefix, h]

/-- A composed key is the namespace prefix followed by a nonempty rest. The
rest of a built key has a separator in it, but that cannot be told from a bare
key with a namespace in front. -/
theorem composes_iff (kb : KeyBuilder) (key : Text) :
    kb.Composes key ↔ ∃ rest, rest ≠ [] ∧ key = kb.getNamespacePrefix ++ rest := by
  constructor
  · intro h
    cases h with
    | @build keyPrefix id key h =>
        unfold KeyBuilder.build at h
        split at h
        · cases h
        · rename_i hpre
          split at h
          · cases h
          · refine ⟨keyPrefix ++ kb.separator ++ id, by simp [hpre], ?_⟩
            simpa [getNamespacePrefix] using (Except.ok.inj h).symm
    | @applyNamespace bare key h =>
        unfold KeyBuilder.applyNamespace at h
        split at h
        · cases h
        · rename_i hbare
          exact ⟨bare, hbare, (Except.ok.inj h).symm⟩
  · rintro ⟨rest, hrest, rfl⟩
    exact .applyNamespace (kb.applyNamespace_of_ne_nil hrest)

/-- A composed key lies in the flush region of its own namespace. -/
theorem Composes.flushRegion {kb : KeyBuilder} {key : Text} (h : kb.Composes key) :
    kb.FlushRegion key := by
  obtain ⟨rest, -, rfl⟩ := (kb.composes_iff key).mp h
  exact List.prefix_append _ rest

/-- No key or channel of the first namespace equals one of the second, or lies
in the flush region of the second. -/
def Isolated (first second : KeyBuilder) : Prop :=
  ∀ key key', first.Composes key → second.Composes key' →
    key ≠ key' ∧ ¬ second.FlushRegion key

/-- Isolation only depends on the regions: a key of the second namespace lies
in its own region. -/
theorem isolated_iff_region (first second : KeyBuilder) :
    Isolated first second ↔ ∀ key, first.Composes key → ¬ second.FlushRegion key := by
  constructor
  · intro h key hkey
    have hother := @applyNamespace_of_ne_nil second ['x'] (by simp)
    exact (h key _ hkey (.applyNamespace hother)).2
  · intro h key key' hkey hkey'
    refine ⟨?_, h key hkey⟩
    rintro rfl
    exact h key hkey hkey'.flushRegion

open WordOverlap in
/-- **Exact isolation.**  Two different namespaces that do not contain their
common separator are isolated exactly when neither is the other followed by a
shift of the separator. -/
theorem isolated_iff {first second : KeyBuilder} (hsep : first.separator = second.separator)
    (hne : first.nameSpace ≠ second.nameSpace)
    (hsecond : ¬ second.separator <:+: second.nameSpace) :
    Isolated first second ↔
      ¬ ExtendsByShift second.separator first.nameSpace second.nameSpace ∧
      ¬ ExtendsByShift second.separator second.nameSpace first.nameSpace := by
  rw [isolated_iff_region]
  constructor
  · intro h
    refine ⟨fun hshift => ?_, fun hshift => ?_⟩
    · apply h _ ((first.composes_iff _).mpr ⟨['x'], by simp, rfl⟩)
      simpa [FlushRegion, getNamespacePrefix, hsep] using hshift.prefix_region ['x']
    · obtain ⟨rest, hrest, hmeet⟩ := hshift.exists_meeting
      apply h _ ((first.composes_iff _).mpr ⟨rest, hrest, rfl⟩)
      simpa [FlushRegion, getNamespacePrefix, hsep] using hmeet
  · rintro ⟨hfirst, hsecondShift⟩ key hkey hregion
    obtain ⟨rest, -, rfl⟩ := (first.composes_iff key).mp hkey
    rw [FlushRegion, getNamespacePrefix, getNamespacePrefix, hsep] at hregion
    rcases region_meets hne hsecond hregion with hshift | hshift
    · exact hfirst hshift
    · exact hsecondShift hshift

end KeyBuilder

open KeyBuilder WordOverlap

/-- Different accepted namespaces with one separator are isolated exactly when
neither is the other followed by a shift of the separator. -/
theorem accepted_namespaces_isolated_iff (rt : UrlRuntime)
    (options₁ options₂ : BymaxCacheModuleOptions) (resolved₁ resolved₂ : ResolvedOptions)
    (_h₁ : resolveOptions rt options₁ = .ok resolved₁)
    (h₂ : resolveOptions rt options₂ = .ok resolved₂)
    (hsep : resolved₁.keySeparator = resolved₂.keySeparator)
    (hne : resolved₁.nameSpace ≠ resolved₂.nameSpace) :
    Isolated (.ofOptions resolved₁) (.ofOptions resolved₂) ↔
      ¬ ExtendsByShift resolved₂.keySeparator resolved₁.nameSpace resolved₂.nameSpace ∧
      ¬ ExtendsByShift resolved₂.keySeparator resolved₂.nameSpace resolved₁.nameSpace :=
  isolated_iff hsep hne (acceptedNamespace_of_resolveOptions h₂).no_separator

/-- Options of a standalone deployment on one host. -/
def hostOptions (nameSpace keySeparator : String) : BymaxCacheModuleOptions :=
  { connection := some { host := some "localhost".toList }
    nameSpace := some nameSpace.toList
    keySeparator := some keySeparator.toList }

/-- The namespaces `a` and `b` with the separator `:` are isolated. -/
theorem accepted_namespaces_isolated_iff_example :
    Isolated (.ofOptions (applyDefaults (hostOptions "a" ":")))
        (.ofOptions (applyDefaults (hostOptions "b" ":"))) ↔
      ¬ ExtendsByShift [':'] ['a'] ['b'] ∧ ¬ ExtendsByShift [':'] ['b'] ['a'] :=
  accepted_namespaces_isolated_iff noUrls (hostOptions "a" ":") (hostOptions "b" ":")
    _ _ rfl rfl rfl (by decide)

/-- **Shifted separators collide.**  With the separator `::` the namespaces `a`
and `a:` are both accepted, and every key of `a:` lies in the region of `a`. -/
theorem accepted_namespaces_not_isolated :
    ¬ ∀ (rt : UrlRuntime) (options₁ options₂ : BymaxCacheModuleOptions)
        (resolved₁ resolved₂ : ResolvedOptions),
        resolveOptions rt options₁ = .ok resolved₁ →
        resolveOptions rt options₂ = .ok resolved₂ →
        resolved₁.keySeparator = resolved₂.keySeparator →
        resolved₁.nameSpace ≠ resolved₂.nameSpace →
        Isolated (.ofOptions resolved₁) (.ofOptions resolved₂) := by
  intro h
  have hiso := h noUrls (hostOptions "a:" "::") (hostOptions "a" "::") _ _ rfl rfl rfl
    (by decide)
  have hkey : (KeyBuilder.ofOptions (applyDefaults (hostOptions "a:" "::"))).Composes
      "a:::k".toList := @Composes.applyNamespace _ ['k'] _ rfl
  exact (isolated_iff_region _ _).mp hiso _ hkey (by decide)

/-- A one-character separator isolates all accepted namespaces. The character
is in neither namespace, so the first place where it stands ends the
namespace of a key. -/
theorem isolated_of_singleton_separator {rt : UrlRuntime}
    {options₁ options₂ : BymaxCacheModuleOptions} {resolved₁ resolved₂ : ResolvedOptions}
    (h₁ : resolveOptions rt options₁ = .ok resolved₁)
    (h₂ : resolveOptions rt options₂ = .ok resolved₂) {c : Char}
    (hsep₁ : resolved₁.keySeparator = [c]) (hsep₂ : resolved₂.keySeparator = [c])
    (hne : resolved₁.nameSpace ≠ resolved₂.nameSpace) :
    Isolated (.ofOptions resolved₁) (.ofOptions resolved₂) := by
  have hfree₁ := (acceptedNamespace_of_resolveOptions h₁).no_separator
  have hfree₂ := (acceptedNamespace_of_resolveOptions h₂).no_separator
  rw [hsep₁] at hfree₁
  apply (isolated_iff (hsep₁.trans hsep₂.symm) hne hfree₂).mpr
  rw [hsep₂] at hfree₂
  simp only [KeyBuilder.ofOptions, hsep₂]
  exact ⟨not_extendsByShift_singleton hfree₁, not_extendsByShift_singleton hfree₂⟩

end NestCache
