import NestCache.CacheClient
import NestCache.Dialogue
import NestCache.KeyBuilder

/-!
# Flushing a namespace

`flushNamespace` scans for `{namespace}{separator}*` and unlinks every batch.
The server is a keyspace with Redis's glob matcher: a scan yields, in batches,
the keys the pattern selects, and `UNLINK` counts the arguments that existed.

`flush_exec` says what the command does for any pattern: the selected keys are
gone, the others untouched and the count is right.  Whether the selected keys
are those of the namespace depends on the separator alone, because only the
namespace is checked for metacharacters (`surgicalFlush_iff`).
-/

namespace NestCache

/-- The commands a flush sends. -/
inductive FlushCommand
  | scanStream (pattern : Text) (count : Nat)
  | unlink (keys : List Text)
  deriving DecidableEq

/-- Their replies: the batches of a scan, the number of keys unlinked. -/
def FlushReply : FlushCommand → Type
  | .scanStream _ _ => Except Thrown (List (List Text))
  | .unlink _ => Except Thrown Nat

/-- A dialogue of the cache service with the server. -/
abbrev FlushDialogue := Dialogue FlushCommand FlushReply Thrown

/-- Production value of `NODE_ENV`. -/
def PRODUCTION_ENV : Text := "production".toList

/-- SCAN batch hint of the bulk delete path. -/
def FLUSH_SCAN_COUNT : Nat := 1000

/-- The loop over the batches of the scan. -/
def unlinkBatches (total : Nat) : List (List Text) → FlushDialogue Nat
  | [] => .done total
  | keys :: rest =>
      if keys.length > 0 then do
        let removed ← Dialogue.request (.unlink keys) id
        unlinkBatches (total + removed) rest
      else unlinkBatches total rest

/-- The production guard lets the flush through. -/
def flushAllowed (nodeEnv : Option Text) (options : ResolvedOptions) : Bool :=
  !(nodeEnv == some PRODUCTION_ENV && !options.allowFlushInProduction)

/-- Deletes every key under the configured namespace. -/
def flushNamespace (nodeEnv : Option Text) (options : ResolvedOptions)
    (getClient : Except Thrown ClientKind) : FlushDialogue Nat :=
  if !flushAllowed nodeEnv options then
    throw (.cache ⟨.FLUSH_DISABLED_IN_PRODUCTION, none⟩)
  else do
    let client ← Dialogue.ofExcept getClient
    if !isScannableClient client then
      throw (.cache ⟨.UNSUPPORTED_IN_CLUSTER, some [detail "operation" "flushNamespace"]⟩)
    else do
      let pattern := (KeyBuilder.ofOptions options).getNamespacePrefix ++ ['*']
      let batches ← Dialogue.request (.scanStream pattern FLUSH_SCAN_COUNT) id
      unlinkBatches 0 batches

/-! ## The server -/

variable {V : Type}

/-- `UNLINK`: remove the arguments one by one and count those that existed. -/
def unlinkAll : Keyspace V → List Text → Keyspace V × Nat
  | store, [] => (store, 0)
  | store, key :: keys =>
      if key ∈ store then
        ((unlinkAll (store.erase key) keys).1, (unlinkAll (store.erase key) keys).2 + 1)
      else unlinkAll store keys

/-- A server whose scans are cut into batches by `batches`. -/
def flushServer (batches : Keyspace V → Text → List (List Text)) :
    Keyspace V → (c : FlushCommand) → Keyspace V × FlushReply c
  | store, .scanStream pattern _ => (store, .ok (batches store pattern))
  | store, .unlink keys => ((unlinkAll store keys).1, .ok (unlinkAll store keys).2)

/-- The batches of a scan hold exactly the keys the pattern selects; a batch
may be empty and a key may come twice. -/
def ScanSelects (batches : Keyspace V → Text → List (List Text)) : Prop :=
  ∀ store pattern key, key ∈ (batches store pattern).flatten ↔
    key ∈ store ∧ Glob.stringmatchlen pattern key = true

/-- Unlinking removes the arguments and nothing else. The induction is on the
arguments; a key that is named twice is removed by the first of them. -/
theorem lookup_unlinkAll (store : Keyspace V) (keys : List Text) (key : Text) :
    (unlinkAll store keys).1.lookup key = if key ∈ keys then none else store.lookup key := by
  induction keys generalizing store with
  | nil => simp [unlinkAll]
  | cons k keys ih =>
      by_cases hk : k ∈ store
      · simp only [unlinkAll, hk, if_true, ih, List.mem_cons]
        by_cases heq : key = k
        · subst heq
          simp
        · simp [heq]
      · simp only [unlinkAll, hk, if_false, ih, List.mem_cons]
        by_cases heq : key = k
        · subst heq
          simp [AList.lookup_eq_none.mpr hk]
        · simp [heq]

/-- Every key counted is a key the store no longer has. -/
theorem length_unlinkAll (store : Keyspace V) (keys : List Text) :
    (unlinkAll store keys).1.keys.length + (unlinkAll store keys).2 = store.keys.length := by
  induction keys generalizing store with
  | nil => simp [unlinkAll]
  | cons k keys ih =>
      by_cases hk : k ∈ store
      · have herase := ih (store.erase k)
        have hpos : 0 < store.keys.length := List.length_pos_of_mem hk
        have hlen := @List.length_erase_of_mem _ instBEqOfDecidableEq _ k store.keys hk
        rw [AList.keys_erase, hlen] at herase
        simp only [unlinkAll, hk, if_true]
        omega
      · simp [unlinkAll, hk, ih]

/-- **The loop over the batches.**  The keys of all batches are removed and
each is counted once. -/
theorem unlinkBatches_exec (batches : Keyspace V → Text → List (List Text)) (total : Nat)
    (chunks : List (List Text)) (store : Keyspace V) :
    ∃ removed, ((unlinkBatches total chunks).exec (flushServer batches) store).result =
        .ok (total + removed) ∧
      ((unlinkBatches total chunks).exec (flushServer batches) store).state.keys.length +
        removed = store.keys.length ∧
      ∀ key, ((unlinkBatches total chunks).exec (flushServer batches) store).state.lookup key =
        if key ∈ chunks.flatten then none else store.lookup key := by
  induction chunks generalizing total store with
  | nil => exact ⟨0, by simp [unlinkBatches]⟩
  | cons keys rest ih =>
      by_cases hkeys : keys.length > 0
      · obtain ⟨removed, hres, hlen, hlook⟩ :=
          ih (total + (unlinkAll store keys).2) (unlinkAll store keys).1
        have hcount := length_unlinkAll store keys
        simp only [unlinkBatches, hkeys, if_true, Dialogue.request, Dialogue.bind_eq,
          Dialogue.bind, Dialogue.exec_send, flushServer, id, Dialogue.Ending.after_result,
          Dialogue.Ending.after_state]
        refine ⟨(unlinkAll store keys).2 + removed, ?_, by omega, ?_⟩
        · rw [hres, Nat.add_assoc]
        · intro key
          rw [hlook, lookup_unlinkAll]
          by_cases hk : key ∈ keys <;> simp [hk]
      · have hnil : keys = [] := List.length_eq_zero_iff.mp (by omega)
        subst hnil
        simpa [unlinkBatches] using ih total store

/-- A flush that the guard allows on a scannable client is the loop over the
batches of its scan. -/
theorem flush_exec {batches : Keyspace V → Text → List (List Text)}
    (hscan : ScanSelects batches) {nodeEnv : Option Text} {options : ResolvedOptions}
    (hallowed : flushAllowed nodeEnv options = true) (store : Keyspace V) :
    let pattern := (KeyBuilder.ofOptions options).getNamespacePrefix ++ ['*']
    let ending := (flushNamespace nodeEnv options (.ok .redis)).exec (flushServer batches) store
    (∀ key, ending.state.lookup key =
      if Glob.stringmatchlen pattern key then none else store.lookup key) ∧
    ending.result = .ok (store.keys.length - ending.state.keys.length) := by
  intro pattern ending
  obtain ⟨removed, hres, hlen, hlook⟩ :=
    unlinkBatches_exec batches 0 (batches store pattern) store
  have hending : ending = ((unlinkBatches 0 (batches store pattern)).exec
      (flushServer batches) store).after [.scanStream pattern FLUSH_SCAN_COUNT] := by
    simp [ending, flushNamespace, hallowed, Dialogue.ofExcept, isScannableClient,
      Dialogue.request, Dialogue.bind, flushServer, pattern]
  rw [hending]
  simp only [Dialogue.Ending.after_state, Dialogue.Ending.after_result]
  constructor
  · intro key
    rw [hlook]
    by_cases hkey : key ∈ store
    · simp [hscan store pattern key, hkey]
    · simp [hscan store pattern key, hkey, AList.lookup_eq_none.mpr hkey]
  · rw [hres, Nat.zero_add]
    congr 1
    omega

/-! ## When the flush is surgical -/

/-- The keys of `before` that `after` no longer has. -/
def removedKeys (before after : Keyspace V) : List Text :=
  before.keys.filter (· ∉ after)

/-- A store that only lost keys lost as many as its size says. -/
theorem length_removedKeys {before after : Keyspace V}
    (hsub : ∀ key, key ∈ after → key ∈ before) :
    (removedKeys before after).length = before.keys.length - after.keys.length := by
  have hsplit := List.length_eq_length_filter_add (l := before.keys) (· ∈ after)
  have hkept : (before.keys.filter (· ∈ after)).length = after.keys.length := by
    apply List.Perm.length_eq
    apply (List.perm_ext_iff_of_nodup (before.keys_nodup.filter _) after.keys_nodup).mpr
    intro key
    simp only [List.mem_filter, decide_eq_true_eq, ← AList.mem_keys]
    exact ⟨And.right, fun hkey => ⟨hsub key hkey, hkey⟩⟩
  simp only [removedKeys, decide_not]
  omega

/-- Every permitted run removes the keys of the namespace, leaves every other
key with its value and returns how many keys it removed. -/
def SurgicalFlush (nodeEnv : Option Text) (options : ResolvedOptions) : Prop :=
  ∀ (V : Type) (batches : Keyspace V → Text → List (List Text)) (store : Keyspace V),
    ScanSelects batches →
    let region := (KeyBuilder.ofOptions options).FlushRegion
    let ending := (flushNamespace nodeEnv options (.ok .redis)).exec (flushServer batches) store
    (∀ key, region key → key ∉ ending.state) ∧
    (∀ key, ¬ region key → ending.state.lookup key = store.lookup key) ∧
    ending.result = .ok (removedKeys store ending.state).length

/-- A scan that returns everything it selects in one batch. -/
def oneBatch (store : Keyspace V) (pattern : Text) : List (List Text) :=
  [store.keys.filter (Glob.stringmatchlen pattern)]

/-- One batch of everything that is selected is a complete scan. -/
theorem scanSelects_oneBatch : ScanSelects (oneBatch (V := V)) := by
  intro store pattern key
  simp [oneBatch, AList.mem_keys]

/-- The store with one key. -/
def oneKey (key : Text) : Keyspace Unit := AList.insert key () ∅

/-- The flush is surgical exactly when its pattern selects the region. A store
with one key tells whether the key is selected; conversely, what is unlinked is
what the pattern selects. -/
theorem surgicalFlush_iff_selects {nodeEnv : Option Text} {options : ResolvedOptions}
    (hallowed : flushAllowed nodeEnv options = true) :
    SurgicalFlush nodeEnv options ↔
      ∀ key, Glob.stringmatchlen ((KeyBuilder.ofOptions options).getNamespacePrefix ++ ['*'])
        key = true ↔ (KeyBuilder.ofOptions options).FlushRegion key := by
  constructor
  · -- a store with the one key tells whether the key is selected
    intro h key
    obtain ⟨hremoved, hkept, -⟩ := h Unit oneBatch (oneKey key) scanSelects_oneBatch
    obtain ⟨hlook, -⟩ := flush_exec scanSelects_oneBatch hallowed (oneKey key)
    have hstart : (oneKey key).lookup key = some () := AList.lookup_insert ∅
    constructor
    · intro hmatch
      by_contra hregion
      have := hkept key hregion
      rw [hlook key, hstart] at this
      simp [hmatch] at this
    · intro hregion
      by_contra hmatch
      apply hremoved key hregion
      rw [← AList.lookup_isSome, hlook key, hstart]
      simp [hmatch]
  · intro hselect V batches store hscan
    obtain ⟨hlook, hres⟩ := flush_exec hscan hallowed store
    refine ⟨fun key hregion => ?_, fun key hregion => ?_, ?_⟩
    · rw [← AList.lookup_eq_none, hlook key, (hselect key).mpr hregion]
      rfl
    · rw [hlook key, if_neg]
      intro hmatch
      exact hregion ((hselect key).mp hmatch)
    · rw [length_removedKeys, hres]
      intro key hkey
      rw [← AList.lookup_isSome, hlook key] at hkey
      split at hkey
      · cases hkey
      · exact AList.lookup_isSome.mp hkey

/-- **The separator decides.**  For accepted options and a permitted flush, the
flush is surgical exactly when the key separator has no glob metacharacter. -/
theorem surgicalFlush_iff (rt : UrlRuntime) (options : BymaxCacheModuleOptions)
    (resolved : ResolvedOptions) (h : resolveOptions rt options = .ok resolved)
    (nodeEnv : Option Text) (hallowed : flushAllowed nodeEnv resolved = true) :
    SurgicalFlush nodeEnv resolved ↔
      ∀ c ∈ resolved.keySeparator, c ∉ GLOB_METACHARACTERS := by
  have haccepted := acceptedNamespace_of_resolveOptions h
  have hliteral : ∀ c, c ∉ GLOB_METACHARACTERS → Glob.special c = false := by
    intro c hc
    simpa [special_eq_contains] using hc
  have hns : ∀ c ∈ resolved.nameSpace, Glob.special c = false :=
    fun c hc => hliteral c (haccepted.no_metacharacter c hc)
  rw [surgicalFlush_iff_selects hallowed]
  simp only [KeyBuilder.FlushRegion, KeyBuilder.getNamespacePrefix, KeyBuilder.ofOptions]
  constructor
  · intro hselect
    by_contra hmeta
    -- cut the separator at its first metacharacter
    have hfind : ∃ m, resolved.keySeparator.find? Glob.special = some m := by
      rw [← Option.isSome_iff_exists, List.find?_isSome]
      push Not at hmeta
      obtain ⟨c, hc, hcm⟩ := hmeta
      exact ⟨c, hc, by simpa [special_eq_contains] using hcm⟩
    obtain ⟨m, hm⟩ := hfind
    obtain ⟨hspecial, before, after, hsep, hbefore⟩ := List.find?_eq_some_iff_append.mp hm
    have hword : ∀ c ∈ resolved.nameSpace ++ before, Glob.special c = false := by
      intro c hc
      rcases List.mem_append.mp hc with hc | hc
      · exact hns c hc
      · simpa using hbefore c hc
    apply Glob.stringmatchlen_special_star hword (by simp [haccepted.nonempty]) hspecial after
    simpa [hsep] using hselect
  · intro hsep key
    apply Glob.stringmatchlen_literal_star
    · intro c hc
      rcases List.mem_append.mp hc with hc | hc
      · exact hns c hc
      · exact hliteral c (hsep c hc)
    · simp [haccepted.nonempty]

/-- The default separator flushes surgically. -/
theorem surgicalFlush_iff_default :
    SurgicalFlush none (applyDefaults (hostOptions "app" ":")) ↔
      ∀ c ∈ [':'], c ∉ GLOB_METACHARACTERS :=
  surgicalFlush_iff noUrls (hostOptions "app" ":") _ rfl none rfl

/-- **A metacharacter separator deletes foreign keys.** The separator
`?` is accepted, and flushing the namespace `app` then also removes the
key `apple`. -/
theorem surgicalFlush_fails :
    ¬ ∀ (rt : UrlRuntime) (options : BymaxCacheModuleOptions) (resolved : ResolvedOptions),
        resolveOptions rt options = .ok resolved →
        ∀ nodeEnv, flushAllowed nodeEnv resolved = true → SurgicalFlush nodeEnv resolved := by
  intro h
  have hflush := h noUrls (hostOptions "app" "?") _ rfl none rfl
  have hselect := (surgicalFlush_iff_selects rfl).mp hflush "apple".toList
  exact absurd (hselect.mp (by decide)) (by decide)

end NestCache
