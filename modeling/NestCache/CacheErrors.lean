import Mathlib.Data.List.Forall2
import NestCache.JsValues

/-!
# Cache error codes and exceptions

Every failure the library raises itself is a `CacheException`: a code and the
structured details attached at the throw site.  Anything else that reaches a
caller is a raw error of the runtime or of the Redis client.
-/

namespace NestCache

/-- The canonical error codes, `CACHE_ERROR_CODES`. -/
inductive CacheErrorCode
  | CONNECTION_FAILED
  | COMMAND_TIMEOUT
  | CONNECTION_LOST
  | SERIALIZATION_FAILED
  | DESERIALIZATION_FAILED
  | INVALID_NAMESPACE
  | INVALID_KEY
  | SCRIPT_NOT_REGISTERED
  | SCRIPT_EXECUTION_FAILED
  | SCRIPT_REGISTRY_MISSING
  | FLUSH_DISABLED_IN_PRODUCTION
  | CLUSTER_MISCONFIGURED
  | SENTINEL_MISCONFIGURED
  | SHUTDOWN_TIMEOUT
  | UNSUPPORTED_IN_CLUSTER
  | INVALID_SCOPE
  | SCOPE_NOT_FOUND
  | SCOPE_NOT_READABLE
  | KEY_NOT_IN_SCOPE
  | INVALID_TTL
  deriving DecidableEq, Repr

/-- A value inside the `details` record. -/
inductive DetailValue
  | text (t : Text)
  | number (n : JsNumber)
  deriving DecidableEq

/-- The `details` record: field names with their values, in source order. -/
abbrev Details := List (String × DetailValue)

/-- A detail whose value is a fixed text of the source. -/
def detail (field text : String) : String × DetailValue := (field, .text text.toList)

/-- The exception of the library; `details` is `none` for the source's
`null`. -/
structure CacheException where
  code : CacheErrorCode
  details : Option Details
  deriving DecidableEq

/-- Whatever a call may throw: the library's own exception or another value. -/
inductive Thrown
  | cache (e : CacheException)
  | raw (reason : Reason)
  deriving DecidableEq

/-- What a `catch` reads from a thrown value.  The message of a cache exception
is the one its base class makes of the class name. -/
def Thrown.reason : Thrown → Reason
  | .cache _ => .error "Cache Exception".toList
  | .raw reason => reason

/-- The `RangeError` of a call with more arguments than its stack holds. -/
def argumentRangeError : Thrown := .raw (.error "Maximum call stack size exceeded".toList)

/-- The arguments of a call that spreads a list, as in `push(...items)`. One
number stands for what the engine takes, which in fact depends on the stack
that is left. -/
def spreadArguments {α : Type} (argumentLimit : Nat) (items : List α) :
    Except Thrown (List α) :=
  if items.length ≤ argumentLimit then .ok items else .error argumentRangeError

/-- Up to the limit of the engine a spread passes the items on unchanged. -/
theorem spreadArguments_ok {α : Type} {argumentLimit : Nat} {items : List α}
    (h : items.length ≤ argumentLimit) : spreadArguments argumentLimit items = .ok items :=
  if_pos h

/-- Beyond it the call throws the engine's own `RangeError`, which is no
exception of the package. -/
theorem spreadArguments_error {α : Type} {argumentLimit : Nat} {items : List α}
    (h : argumentLimit < items.length) :
    spreadArguments argumentLimit items = .error argumentRangeError :=
  if_neg (Nat.not_le.mpr h)

/-- What is spread is the list itself. -/
theorem spreadArguments_eq_ok {α : Type} {argumentLimit : Nat} {items items' : List α} :
    spreadArguments argumentLimit items = .ok items' ↔
      items.length ≤ argumentLimit ∧ items' = items := by
  unfold spreadArguments
  split <;> rename_i hlimit
  · simp [hlimit, eq_comm]
  · simp [hlimit]

/-- Throw the library's exception. -/
def throwCache {α : Type} (code : CacheErrorCode) (details : Details) : Except Thrown α :=
  .error (.cache ⟨code, some details⟩)

/-! ## Responses -/

/-- `CACHE_ERROR_MESSAGES`. -/
def CACHE_ERROR_MESSAGES : List (CacheErrorCode × String) :=
  [(.CONNECTION_FAILED, "Could not connect to Redis after retries."),
    (.COMMAND_TIMEOUT, "Redis command timed out."),
    (.CONNECTION_LOST, "Redis connection was lost during the operation."),
    (.SERIALIZATION_FAILED, "Failed to serialize the value."),
    (.DESERIALIZATION_FAILED, "Failed to deserialize the cached value."),
    (.INVALID_NAMESPACE, "Namespace or key separator is invalid: the namespace is empty, " ++
      "contains the separator, or contains a Redis glob metacharacter."),
    (.INVALID_KEY, "Cache key prefix or id is empty."),
    (.SCRIPT_NOT_REGISTERED, "Tried to execute an unregistered Lua script."),
    (.SCRIPT_EXECUTION_FAILED, "Lua script returned a Redis error."),
    (.SCRIPT_REGISTRY_MISSING, "eval called without registering any scripts."),
    (.FLUSH_DISABLED_IN_PRODUCTION, "flushNamespace is disabled in production."),
    (.CLUSTER_MISCONFIGURED, "Cluster mode requires cluster.nodes."),
    (.SENTINEL_MISCONFIGURED, "Sentinel mode requires sentinel.sentinels and sentinel.name."),
    (.SHUTDOWN_TIMEOUT, "Graceful shutdown exceeded the timeout."),
    (.UNSUPPORTED_IN_CLUSTER, "This operation requires standalone or sentinel mode; it is not " ++
      "supported in cluster mode."),
    (.INVALID_SCOPE, "An administration scope is malformed: empty field, duplicate id, or a " ++
      "match pattern with no literal prefix."),
    (.SCOPE_NOT_FOUND, "No administration scope is declared under that id."),
    (.SCOPE_NOT_READABLE, "This administration scope withholds values; listing, types, TTLs and " ++
      "sizes remain available."),
    (.KEY_NOT_IN_SCOPE, "That key does not belong to the named administration scope."),
    (.INVALID_TTL, "A TTL in seconds must be a safe integer, and at least 1 for a write that " ++
      "sets one.")]

/-- The codes whose status is not 500, `CACHE_ERROR_STATUS`. -/
def CACHE_ERROR_STATUS : List (CacheErrorCode × Nat) :=
  [(.COMMAND_TIMEOUT, 504), (.CONNECTION_LOST, 503), (.INVALID_KEY, 400), (.INVALID_TTL, 400),
    (.FLUSH_DISABLED_IN_PRODUCTION, 403)]

/-- The response an exception is served as: its status and its `error` body. -/
structure ErrorResponse where
  statusCode : Nat
  code : CacheErrorCode
  message : Text
  details : Option Details
  deriving DecidableEq

/-- What the constructor passes on to the framework. -/
def CacheException.response (e : CacheException) : ErrorResponse where
  statusCode := (CACHE_ERROR_STATUS.lookup e.code).getD 500
  code := e.code
  message := ((CACHE_ERROR_MESSAGES.lookup e.code).getD "Cache error").toList
  details := e.details

/-- Every code has a message. -/
theorem exists_message (code : CacheErrorCode) :
    ∃ message, CACHE_ERROR_MESSAGES.lookup code = some message := by
  cases code <;> exact ⟨_, rfl⟩

/-! ## Sequences of checks -/

/-- A sequence of checks succeeds when each of them does. -/
theorem ok_of_bind_ok {ε α β : Type} {x : Except ε α} {f : α → Except ε β} {b : β}
    (h : (x >>= f) = .ok b) : ∃ a, x = .ok a ∧ f a = .ok b := by
  cases x with
  | error e => cases h
  | ok a => exact ⟨a, rfl, h⟩

/-- A sequence of checks that each refuse with an exception of the library
refuses with one. -/
theorem cache_of_bind_error {α β : Type} {x : Except Thrown α} {f : α → Except Thrown β}
    {thrown : Thrown} (hx : ∀ t, x = .error t → ∃ e, t = .cache e)
    (hf : ∀ a t, f a = .error t → ∃ e, t = .cache e) (h : (x >>= f) = .error thrown) :
    ∃ e, thrown = .cache e := by
  cases x with
  | error t =>
      obtain rfl : t = thrown := by simpa [bind, Except.bind] using h
      exact hx t rfl
  | ok a => exact hf a thrown h

/-- A check of every element succeeds when each does, with their results
in order. -/
theorem mapM_eq_ok_iff {ε α β : Type} {f : α → Except ε β} {l : List α} {bs : List β} :
    l.mapM f = .ok bs ↔ List.Forall₂ (fun a b => f a = .ok b) l bs := by
  induction l generalizing bs with
  | nil => simp [pure, Except.pure, eq_comm]
  | cons a l ih =>
      rw [List.mapM_cons]
      constructor
      · intro h
        obtain ⟨b, hb, h⟩ := ok_of_bind_ok h
        obtain ⟨rest, hrest, h⟩ := ok_of_bind_ok h
        obtain rfl : b :: rest = bs := Except.ok.inj h
        exact .cons hb (ih.mp hrest)
      · rintro (_ | ⟨hb, hrest⟩)
        rw [hb, ih.mpr hrest]
        rfl

/-- Elements with the same results, one by one, have the same results
together. -/
theorem mapM_congr_forall₂ {ε α α' β : Type} {f : α → Except ε β} {g : α' → Except ε β}
    {l : List α} {l' : List α'} (h : List.Forall₂ (fun a a' => f a = g a') l l') :
    l.mapM f = l'.mapM g := by
  induction h with
  | nil => rfl
  | cons hfirst _ ih => rw [List.mapM_cons, List.mapM_cons, hfirst, ih]

/-- The result of each element is among the results. -/
theorem mem_of_mapM_ok {ε α β : Type} {f : α → Except ε β} {l : List α} {bs : List β}
    (h : l.mapM f = .ok bs) {a : α} (ha : a ∈ l) : ∃ b ∈ bs, f a = .ok b := by
  have hall := mapM_eq_ok_iff.mp h
  clear h
  induction hall with
  | nil => cases ha
  | @cons first b l bs hfirst _ ih =>
      rcases List.mem_cons.mp ha with rfl | ha
      · exact ⟨b, List.mem_cons_self, hfirst⟩
      · obtain ⟨other, hother, hf⟩ := ih ha
        exact ⟨other, List.mem_cons_of_mem _ hother, hf⟩

/-- A list whose elements all succeed does. -/
theorem exists_mapM_ok {ε α β : Type} {f : α → Except ε β} {l : List α}
    (h : ∀ a ∈ l, ∃ b, f a = .ok b) : ∃ bs, l.mapM f = .ok bs := by
  induction l with
  | nil => exact ⟨[], rfl⟩
  | cons a l ih =>
      obtain ⟨b, hb⟩ := h a List.mem_cons_self
      obtain ⟨bs, hbs⟩ := ih fun other hother => h other (List.mem_cons_of_mem _ hother)
      exact ⟨b :: bs, mapM_eq_ok_iff.mpr (.cons hb (mapM_eq_ok_iff.mp hbs))⟩

/-- A refused list has an element that is refused so. The induction is on the
list: the first element that is refused ends the traversal. -/
theorem exists_of_mapM_error {ε α β : Type} {f : α → Except ε β} {l : List α} {e : ε}
    (h : l.mapM f = .error e) : ∃ a ∈ l, f a = .error e := by
  induction l with
  | nil => cases h
  | cons a l ih =>
      rw [List.mapM_cons] at h
      cases ha : f a with
      | error e' =>
          rw [ha] at h
          obtain rfl : e' = e := Except.error.inj h
          exact ⟨a, List.mem_cons_self, ha⟩
      | ok b =>
          rw [ha] at h
          cases hl : l.mapM f with
          | error e' =>
              rw [hl] at h
              obtain rfl : e' = e := Except.error.inj h
              obtain ⟨other, hother, hf⟩ := ih hl
              exact ⟨other, List.mem_cons_of_mem _ hother, hf⟩
          | ok bs =>
              rw [hl] at h
              cases h

/-- A check that refuses every element refuses a list that has one. -/
theorem mapM_eq_error {ε α β : Type} {f : α → Except ε β} {l : List α} {e : ε} (hne : l ≠ [])
    (h : ∀ a ∈ l, f a = .error e) : l.mapM f = .error e := by
  cases l with
  | nil => exact absurd rfl hne
  | cons a l =>
      rw [List.mapM_cons, h a List.mem_cons_self]
      rfl

end NestCache
