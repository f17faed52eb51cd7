import Mathlib.Data.List.Nodup
import Mathlib.Data.List.TakeWhile
import NestCache.CacheErrors
import NestCache.Glob

/-!
# Administration scopes

A scope is a declared region of the keyspace, named by an id and bounded by a
pattern.  Patterns are literal words with an optional trailing `*`, so that a
key belongs to a scope by a prefix test; `isKeyInScope_iff_stringmatchlen` is
the agreement of that test with the server's matcher.  Both take texts by
characters, well-formed ones, which the server compares by bytes.
-/

namespace NestCache

/-- One keyspace an administration surface may read. -/
structure CacheScope where
  id : Text
  label : Text
  pattern : Text
  isReadable : Bool
  origin : Text
  deriving DecidableEq

/-- `/^[^*?[\\]+\*?$/`: a nonempty literal word, then at most one `*`. -/
def SCOPE_PATTERN_SHAPE (pattern : Text) : Bool :=
  !(pattern.takeWhile (!Glob.special ·)).isEmpty &&
    (pattern.dropWhile (!Glob.special ·) == [] || pattern.dropWhile (!Glob.special ·) == ['*'])

/-- The scope fields that must carry text. -/
inductive ScopeField
  | id
  | label
  | pattern
  | origin
  deriving DecidableEq

/-- The order in which the fields are checked. -/
def REQUIRED_FIELDS : List ScopeField := [.id, .label, .pattern, .origin]

/-- A field as the source spells it. -/
def ScopeField.name : ScopeField → String
  | id => "id"
  | label => "label"
  | pattern => "pattern"
  | origin => "origin"

/-- Reads a scope's required text field. -/
def readField (scope : CacheScope) : ScopeField → Text
  | .id => scope.id
  | .label => scope.label
  | .pattern => scope.pattern
  | .origin => scope.origin

/-- What `readScopePattern` returns. -/
structure ScopePattern where
  keyPrefix : Text
  isPrefixMatch : Bool
  deriving DecidableEq

/-- Splits a validated pattern into the literal prefix a key must carry and
whether that prefix may be extended. -/
def readScopePattern (pattern : Text) : ScopePattern :=
  let isPrefixMatch := pattern.getLast? == some '*'
  ⟨if isPrefixMatch then pattern.dropLast else pattern, isPrefixMatch⟩

/-- Reports whether a key falls inside a scope's declared region. -/
def isKeyInScope (pattern key : Text) : Bool :=
  let read := readScopePattern pattern
  if read.isPrefixMatch then read.keyPrefix.isPrefixOf key else key == pattern

/-- The checks on one declaration, given the ids declared before it. -/
def validateScope (seen : List Text) (scope : CacheScope) : Except Thrown Unit :=
  match REQUIRED_FIELDS.find? (fun field => readField scope field == []) with
  | some field =>
      throwCache .INVALID_SCOPE
        [detail "reason" "empty scope field", detail "field" field.name,
          ("scopeId", .text scope.id)]
  | none =>
    if seen.contains scope.id then
      throwCache .INVALID_SCOPE
        [detail "reason" "duplicate scope id", ("scopeId", .text scope.id)]
    else if !SCOPE_PATTERN_SHAPE scope.pattern then
      throwCache .INVALID_SCOPE
        [detail "reason" "pattern must be a literal prefix optionally followed by *",
          ("scopeId", .text scope.id), ("pattern", .text scope.pattern)]
    else .ok ()

/-- The loop over the declarations. -/
def validateScopesFrom (seen : List Text) : List CacheScope → Except Thrown (List CacheScope)
  | [] => .ok []
  | scope :: rest => do
      validateScope seen scope
      let validated ← validateScopesFrom (scope.id :: seen) rest
      return scope :: validated

/-- Validates an administration scope allowlist. -/
def validateScopes (scopes : List CacheScope) : Except Thrown (List CacheScope) :=
  if scopes = [] then throwCache .INVALID_SCOPE [detail "reason" "no scopes declared"]
  else validateScopesFrom [] scopes

/-- Finds a declared scope by the identifier a caller named. -/
def findScope (scopes : List CacheScope) (id : Text) : Except Thrown CacheScope :=
  match scopes.find? (·.id == id) with
  | none => throwCache .SCOPE_NOT_FOUND [("scopeId", .text id)]
  | some found => .ok found

/-! ## Accepted allowlists -/

/-- A list of scopes as `validateScopes` returns it. -/
structure Allowlist (scopes : List CacheScope) : Prop where
  nonempty : scopes ≠ []
  fields : ∀ scope ∈ scopes, ∀ field, readField scope field ≠ []
  ids : (scopes.map (·.id)).Nodup
  shape : ∀ scope ∈ scopes, SCOPE_PATTERN_SHAPE scope.pattern = true

/-- One declaration passes when its fields carry text, its id is new and its
pattern has the one allowed shape. -/
theorem validateScope_eq_ok {seen : List Text} {scope : CacheScope} :
    validateScope seen scope = .ok () ↔
      (∀ field, readField scope field ≠ []) ∧ scope.id ∉ seen ∧
        SCOPE_PATTERN_SHAPE scope.pattern = true := by
  have hall : (REQUIRED_FIELDS.find? fun field => readField scope field == []) = none ↔
      ∀ field, readField scope field ≠ [] := by
    simp only [List.find?_eq_none, beq_iff_eq]
    refine ⟨fun h field => h field ?_, fun h field _ => h field⟩
    cases field <;> decide
  unfold validateScope
  cases hfind : REQUIRED_FIELDS.find? fun field => readField scope field == [] with
  | some field =>
      have hempty := List.find?_some hfind
      constructor
      · intro h
        cases h
      · rintro ⟨hfields, -⟩
        exact absurd (by simpa using hempty) (hfields field)
  | none =>
      have hfields := hall.mp hfind
      by_cases hseen : scope.id ∈ seen
      · simp [hseen, throwCache]
      · by_cases hshape : SCOPE_PATTERN_SHAPE scope.pattern = true
        · simp [hseen, hshape, hfields]
        · simp [hseen, hshape, throwCache]

/-- The loop accepts a list as it stands when every declaration passes. The
induction is on the list, with the ids that were seen before as an argument. -/
theorem validateScopesFrom_eq_ok {seen : List Text} {scopes validated : List CacheScope} :
    validateScopesFrom seen scopes = .ok validated ↔
      validated = scopes ∧ (∀ scope ∈ scopes, ∀ field, readField scope field ≠ []) ∧
        (scopes.map (·.id)).Nodup ∧ (∀ scope ∈ scopes, scope.id ∉ seen) ∧
        ∀ scope ∈ scopes, SCOPE_PATTERN_SHAPE scope.pattern = true := by
  induction scopes generalizing seen validated with
  | nil =>
      constructor
      · intro h
        obtain rfl := Except.ok.inj h
        simp
      · rintro ⟨rfl, -⟩
        rfl
  | cons scope rest ih =>
      constructor
      · intro h
        obtain ⟨_, hscope, hloop⟩ := ok_of_bind_ok h
        obtain ⟨tail, htail, hresult⟩ := ok_of_bind_ok hloop
        obtain ⟨hfields, hseen, hshape⟩ := validateScope_eq_ok.mp hscope
        obtain ⟨rfl, hfields', hids, hfresh, hshape'⟩ := ih.mp htail
        obtain rfl := Except.ok.inj hresult
        refine ⟨rfl, ?_, ?_, ?_, ?_⟩
        · exact List.forall_mem_cons.mpr ⟨hfields, hfields'⟩
        · refine List.nodup_cons.mpr ⟨fun hmem => ?_, hids⟩
          obtain ⟨other, hother, hid⟩ := List.mem_map.mp hmem
          exact hfresh other hother (by simp [hid])
        · refine List.forall_mem_cons.mpr ⟨hseen, fun other hother hmem => ?_⟩
          exact hfresh other hother (List.mem_cons_of_mem _ hmem)
        · exact List.forall_mem_cons.mpr ⟨hshape, hshape'⟩
      · rintro ⟨rfl, hfields, hids, hfresh, hshape⟩
        obtain ⟨hnew, hids⟩ := List.nodup_cons.mp hids
        have hscope : validateScope seen scope = .ok () := validateScope_eq_ok.mpr
          ⟨hfields scope List.mem_cons_self, hfresh scope List.mem_cons_self,
            hshape scope List.mem_cons_self⟩
        have htail : validateScopesFrom (scope.id :: seen) rest = .ok rest := by
          refine ih.mpr ⟨rfl, fun other hother => hfields other (List.mem_cons_of_mem _ hother),
            hids, fun other hother hmem => ?_,
            fun other hother => hshape other (List.mem_cons_of_mem _ hother)⟩
          rcases List.mem_cons.mp hmem with heq | hmem
          · exact hnew (List.mem_map.mpr ⟨other, hother, heq⟩)
          · exact hfresh other (List.mem_cons_of_mem _ hother) hmem
        simp [validateScopesFrom, hscope, htail, bind, Except.bind, pure, Except.pure]

/-- `validateScopes` returns the allowlists it is given and refuses the
rest. -/
theorem validateScopes_eq_ok {scopes validated : List CacheScope} :
    validateScopes scopes = .ok validated ↔ validated = scopes ∧ Allowlist scopes := by
  unfold validateScopes
  by_cases hempty : scopes = []
  · rw [if_pos hempty]
    constructor
    · intro h
      cases h
    · rintro ⟨-, hlist⟩
      exact absurd hempty hlist.nonempty
  · rw [if_neg hempty, validateScopesFrom_eq_ok]
    constructor
    · rintro ⟨rfl, hfields, hids, -, hshape⟩
      exact ⟨rfl, hempty, hfields, hids, hshape⟩
    · rintro ⟨rfl, hlist⟩
      exact ⟨rfl, hlist.fields, hlist.ids, fun _ _ => List.not_mem_nil, hlist.shape⟩

/-- A found scope is a declared one with the id that was named. -/
theorem findScope_eq_ok {scopes : List CacheScope} {id : Text} {scope : CacheScope}
    (h : findScope scopes id = .ok scope) : scope ∈ scopes ∧ scope.id = id := by
  unfold findScope at h
  cases hfind : scopes.find? (·.id == id) with
  | none =>
      rw [hfind] at h
      cases h
  | some found =>
      rw [hfind] at h
      obtain rfl := Except.ok.inj h
      exact ⟨List.mem_of_find?_eq_some hfind, by simpa using List.find?_some hfind⟩

/-- Unique ids: every declared scope is found under its own id. -/
theorem Allowlist.findScope_self {scopes : List CacheScope} (hlist : Allowlist scopes)
    {scope : CacheScope} (hmem : scope ∈ scopes) : findScope scopes scope.id = .ok scope := by
  have hfound : scopes.find? (·.id == scope.id) = some scope := by
    cases hfind : scopes.find? (·.id == scope.id) with
    | none =>
        have := List.find?_eq_none.mp hfind scope hmem
        simp at this
    | some found =>
        have hid : found.id = scope.id := by simpa using List.find?_some hfind
        have := List.inj_on_of_nodup_map hlist.ids (List.mem_of_find?_eq_some hfind) hmem hid
        rw [this]
  simp [findScope, hfound]

/-! ## Membership and the server's matcher -/

/-- An accepted pattern is a literal word, alone or followed by one `*`. The
characters before the star are none that the matcher treats as special, so they
stand for themselves. -/
theorem exists_word_of_shape {pattern : Text} (h : SCOPE_PATTERN_SHAPE pattern = true) :
    ∃ word, word ≠ [] ∧ (∀ c ∈ word, Glob.special c = false) ∧
      (pattern = word ∨ pattern = word ++ ['*']) := by
  simp only [SCOPE_PATTERN_SHAPE, Bool.and_eq_true, Bool.not_eq_true', Bool.or_eq_true,
    beq_iff_eq] at h
  obtain ⟨hne, hrest⟩ := h
  refine ⟨pattern.takeWhile (!Glob.special ·), by simpa using hne, fun c hc => ?_, ?_⟩
  · simpa using List.mem_takeWhile_imp hc
  · have hsplit := List.takeWhile_append_dropWhile (p := (!Glob.special ·)) (l := pattern)
    rcases hrest with hrest | hrest
    · left
      rw [hrest, List.append_nil] at hsplit
      exact hsplit.symm
    · right
      rw [hrest] at hsplit
      exact hsplit.symm

/-- A scope of one literal key holds that key. -/
theorem isKeyInScope_literal {word : Text} (hword : ∀ c ∈ word, Glob.special c = false)
    (key : Text) : isKeyInScope word key = true ↔ key = word := by
  have hlast : (word.getLast? == some '*') = false := by
    rw [beq_eq_false_iff_ne]
    intro hstar
    have := hword '*' (List.mem_of_getLast? hstar)
    simp [Glob.special] at this
  simp [isKeyInScope, readScopePattern, hlast]

/-- A prefix scope holds the extensions of its word. -/
theorem isKeyInScope_star (word key : Text) :
    isKeyInScope (word ++ ['*']) key = true ↔ word <+: key := by
  simp [isKeyInScope, readScopePattern]

/-- **Membership is the server's matcher**, for every pattern of the allowed
shape. -/
theorem isKeyInScope_iff_stringmatchlen {pattern : Text}
    (h : SCOPE_PATTERN_SHAPE pattern = true) (key : Text) :
    isKeyInScope pattern key = true ↔ Glob.stringmatchlen pattern key = true := by
  obtain ⟨word, hne, hword, rfl | rfl⟩ := exists_word_of_shape h
  · rw [isKeyInScope_literal hword, Glob.stringmatchlen_literal hword hne]
  · rw [isKeyInScope_star, Glob.stringmatchlen_literal_star hword hne]

end NestCache
