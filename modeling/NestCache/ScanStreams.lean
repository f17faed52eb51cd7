import NestCache.Iteration
import NestCache.Machine
import NestCache.PatternOperations

/-!
# Scan streams among other clients

A `ScanStream` reads the keys that a pattern selects page by page, ahead of the
loop that takes them, while other clients write and remove keys; it may fail
before it has read the last page.

* `ScanStream.step_cases` — what can happen next;
* `steady_or_absent` — in the run of a machine around a stream, a key that was
  selected at the beginning has been there all the time or was absent once.
-/

namespace NestCache

variable {V : Type}

/-- What another client does: values are written, or keys removed. -/
def applyChanges (store : Keyspace V) (changes : List (Text × Option V)) : Keyspace V :=
  changes.foldl (fun store change => match change.2 with
    | some value => store.insert change.1 value
    | none => store.erase change.1) store

/-- A server and a `ScanStream` on it. -/
structure ScanStream (V : Type) where
  store : Keyspace V
  iteration : Iteration Text
  failure : Option Reason := none

/-- What happens to the server and to the stream: `SCAN` replies a page, the
stream fails, other clients act. -/
inductive ScanAction (V : Type)
  | page (keys : List Text) (last : Bool)
  | fail (reason : Reason)
  | others (changes : List (Text × Option V))

namespace ScanStream

/-- A stream with `MATCH pattern`. -/
def start (store : Keyspace V) (pattern : Text) : ScanStream V where
  store
  iteration := .begin (store.keys.filter (Glob.stringmatchlen pattern))

/-- The server has another store. -/
def become (store : Keyspace V) (stream : ScanStream V) : ScanStream V :=
  { stream with store, iteration := stream.iteration.notice (· ∈ store) }

def step (pattern : Text) (stream : ScanStream V) : ScanAction V → Option (ScanStream V)
  | .page keys last =>
      if stream.failure.isSome then none
      else (stream.iteration.readPage
        (fun key => key ∈ stream.store && Glob.stringmatchlen pattern key) keys last).map
          fun iteration => { stream with iteration }
  | .fail reason =>
      if stream.failure.isSome || stream.iteration.drained then none
      else some { stream with failure := some reason }
  | .others changes => some (stream.become (applyChanges stream.store changes))

end ScanStream

/-- After changes by others a key is there that was there before or that they
have written. -/
theorem mem_applyChanges {store : Keyspace V} {changes : List (Text × Option V)} {key : Text}
    (h : key ∈ applyChanges store changes) :
    key ∈ store ∨ ∃ value, (key, some value) ∈ changes := by
  induction changes generalizing store with
  | nil => exact .inl h
  | cons change changes ih =>
      obtain ⟨name, value⟩ := change
      rcases ih h with hstore | ⟨written, hwritten⟩
      · cases value with
        | none => exact .inl (AList.mem_erase.mp hstore).2
        | some value =>
            rcases (AList.mem_insert store).mp hstore with rfl | hold
            · exact .inr ⟨value, by simp⟩
            · exact .inl hold
      · exact .inr ⟨written, List.mem_cons_of_mem _ hwritten⟩

variable {pattern : Text} {stream stream' : ScanStream V}

/-- **What can happen next.** A page is read, the stream fails, or others
change the keyspace. -/
theorem ScanStream.step_cases {a : ScanAction V} (h : stream.step pattern a = some stream') :
    (∃ keys last iteration, a = .page keys last ∧ stream' = { stream with iteration } ∧
      stream.iteration.readPage
        (fun key => key ∈ stream.store && Glob.stringmatchlen pattern key) keys last =
          some iteration) ∨
    (∃ reason, a = .fail reason ∧ stream' = { stream with failure := some reason }) ∨
    ∃ changes, a = .others changes ∧
      stream' = stream.become (applyChanges stream.store changes) := by
  cases a with
  | page keys last =>
      simp only [ScanStream.step] at h
      split at h
      · cases h
      · obtain ⟨iteration, hread, rfl⟩ := Option.map_eq_some_iff.mp h
        exact .inl ⟨keys, last, iteration, rfl, rfl, hread⟩
  | fail reason =>
      simp only [ScanStream.step] at h
      split at h
      · cases h
      · exact .inr (.inl ⟨reason, rfl, (Option.some.inj h).symm⟩)
  | others changes => exact .inr (.inr ⟨changes, rfl, (Option.some.inj h).symm⟩)

/-- What has been there all the time and is held has still been there. -/
theorem ScanStream.mem_steady_become {store : Keyspace V} {key : Text}
    (hsteady : key ∈ stream.iteration.steady) (hkey : key ∈ store) :
    key ∈ (stream.become store).iteration.steady :=
  List.mem_filter.mpr ⟨hsteady, by simpa using hkey⟩

/-- A key that has been there all the time and is there after a step has been
there all the time still. -/
theorem ScanStream.step_steady {a : ScanAction V} (h : stream.step pattern a = some stream')
    {key : Text} (hsteady : key ∈ stream.iteration.steady) (hkey : key ∈ stream'.store) :
    key ∈ stream'.iteration.steady := by
  rcases ScanStream.step_cases h with ⟨_, _, _, -, rfl, hread⟩ | ⟨_, -, rfl⟩ | ⟨_, -, rfl⟩
  · rw [(Iteration.readPage_eq_some hread).2.1]
    exact hsteady
  · exact hsteady
  · exact ScanStream.mem_steady_become hsteady hkey

/-- At the start the keys to be covered are the selected keys of the store. -/
theorem ScanStream.mem_start {store : Keyspace V} {key : Text} :
    key ∈ (ScanStream.start store pattern).iteration.steady ↔
      key ∈ store ∧ Glob.stringmatchlen pattern key = true := by
  simp [ScanStream.start, Iteration.begin, AList.mem_keys]

/-- **All the time or not.** In every run of a machine around a stream. At each
moment of the run, a selected key of the store has been there all the time or
was absent at some moment; the induction is on the run. -/
theorem steady_or_absent {σ α ω : Type} {m : Machine σ α ω} (view : σ → ScanStream V)
    (hstep : ∀ s a s' out key, m.step s a = some (s', out) →
      key ∈ (view s).iteration.steady → key ∈ (view s').store →
      key ∈ (view s').iteration.steady)
    {as : List α} {s : σ} {out : List ω} (hrun : m.run as = some (s, out)) {key : Text}
    (hkey : key ∈ (view m.init).iteration.steady) :
    key ∈ (view s).iteration.steady ∨ m.Sometime as out fun s => key ∉ (view s).store := by
  refine (m.run_induction (I := fun as out s => m.run as = some (s, out) ∧
    (key ∈ (view s).iteration.steady ∨ m.Sometime as out fun s => key ∉ (view s).store))
    ⟨rfl, .inl hkey⟩ ?_ hrun).2
  rintro hist seen s a s' more ⟨hran, h⟩ ha
  have hnow := m.runFrom_snoc hran ha
  refine ⟨hnow, ?_⟩
  rcases h with hsteady | habsent
  · by_cases hheld : key ∈ (view s').store
    · exact .inl (hstep s a s' more key ha hsteady hheld)
    · exact .inr (.now hnow hheld)
  · exact .inr (habsent.append a more)

end NestCache
