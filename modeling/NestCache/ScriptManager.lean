import NestCache.CacheClient
import NestCache.Dialogue
import NestCache.ModuleOptions

/-!
# The Lua script manager

A registry of named scripts, each entry an object shared by the calls that
looked it up, and the `SCRIPT LOAD` / `EVALSHA` protocol with its one reload.
The local accesses of a call (the registry lookup, reading an entry, storing
its SHA) are commands of the dialogue next to the server's, so that a call is
one program over a world made of both.

`eval_runs` says in cases what one call runs; `eval_atMostOnce_iff` is the
exact condition for at most once.
-/

namespace NestCache

/-- A registered script and its cached SHA1. -/
structure ScriptEntry where
  lua : Text
  sha : Option Text := none
  deriving DecidableEq, Inhabited

/-- The registry: names refer to entries, which are never removed. -/
structure Registry where
  names : Keyspace Nat
  entries : List ScriptEntry

namespace Registry

/-- The registry without scripts. -/
def empty : Registry := ⟨∅, []⟩

/-- `register`: a fresh entry replaces the one under the name. -/
def register (registry : Registry) (name lua : Text) : Registry where
  names := registry.names.insert name registry.entries.length
  entries := registry.entries ++ [{ lua }]

/-- The constructor's loop over `options.scripts`. -/
def ofOptions (options : ResolvedOptions) : Registry :=
  (options.scripts.getD []).foldl (fun registry definition =>
    registry.register definition.name definition.lua) empty

/-- `entry.sha = sha`. -/
def cacheSha (registry : Registry) (ref : Nat) (sha : Text) : Registry :=
  { registry with entries := registry.entries.modify ref ({ · with sha := some sha }) }

/-- The entry a name refers to. -/
def Holds (registry : Registry) (name : Text) (ref : Nat) (entry : ScriptEntry) : Prop :=
  registry.names.lookup name = some ref ∧ registry.entries[ref]? = some entry

end Registry

/-- An element of `ARGV`. -/
inductive ScriptArgument
  | text (t : Text)
  | number (n : JsNumber)
  deriving DecidableEq

/-- The commands of a script call: three on the registry, three to the
server. -/
inductive ScriptCommand
  | findEntry (name : Text)
  | readEntry (ref : Nat)
  | cacheSha (ref : Nat) (sha : Text)
  | scriptLoad (lua : Text)
  | evalsha (sha : Text) (keys : List Text) (args : List ScriptArgument)
  | eval (lua : Text) (keys : List Text) (args : List ScriptArgument)
  deriving DecidableEq

/-- Their replies; a script returns a value of type `V`. -/
abbrev ScriptReply (V : Type) : ScriptCommand → Type
  | .findEntry _ => Option Nat
  | .readEntry _ => ScriptEntry
  | .cacheSha _ _ => Unit
  | .scriptLoad _ => Except Reason Text
  | .evalsha _ _ _ => Except Reason V
  | .eval _ _ _ => Except Reason V

/-- The registry answers the local commands of a call at once. -/
def registryAnswers {V : Type} (registry : Registry) :
    (c : ScriptCommand) → Option (Registry × ScriptReply V c)
  | .findEntry name => some (registry, registry.names.lookup name)
  | .readEntry ref => some (registry, (registry.entries[ref]?).getD default)
  | .cacheSha ref sha => some (registry.cacheSha ref sha, ())
  | .scriptLoad _ | .evalsha _ _ _ | .eval _ _ _ => none

/-- A dialogue of the script manager. -/
abbrev ScriptDialogue (V : Type) := Dialogue ScriptCommand (ScriptReply V) Thrown

/-- Substring of the Redis error raised when a SHA is no longer cached. -/
def NOSCRIPT_MARKER : Text := "NOSCRIPT".toList

/-- The exception for a script that could not be executed. -/
def scriptFailed (name : Text) (err : Thrown) : Thrown :=
  .cache ⟨.SCRIPT_EXECUTION_FAILED,
    some [("name", .text name), ("originalError", .text (describeError err.reason))]⟩

namespace ScriptManagerService

variable {V : Type} (connection : ConnectionStatus)

/-- Loads a registered script into Redis and returns its SHA1. -/
def load (name : Text) : ScriptDialogue V Text :=
  .send (.findEntry name) fun found =>
    match found with
    | none => .fail (.cache ⟨.SCRIPT_NOT_REGISTERED, some [("name", .text name)]⟩)
    | some ref => .send (.readEntry ref) fun (entry : ScriptEntry) =>
        match entry.sha with
        -- an empty SHA counts as absent
        | some (c :: sha) => .done (c :: sha)
        | _ => (Dialogue.ofExcept connection.getClient).bind fun _ =>
            (Dialogue.request (.scriptLoad entry.lua) awaitReply).bind fun sha =>
              .send (.cacheSha ref sha) fun _ => .done sha

/-- `EVAL` with the full body, for cluster mode. -/
def evalBody (name : Text) (entry : ScriptEntry) (keys : List Text)
    (args : List ScriptArgument) : ScriptDialogue V V :=
  if keys = [] then
    .fail (.cache ⟨.SCRIPT_EXECUTION_FAILED, some [("name", .text name),
      detail "reason" "cluster EVAL requires at least one key for slot routing"]⟩)
  else (Dialogue.request (.eval entry.lua keys args) awaitReply).tryCatch fun err =>
    .fail (scriptFailed name err)

/-- The reload and the one retry. -/
def reloadAndRetry (name : Text) (ref : Nat) (entry : ScriptEntry) (keys : List Text)
    (args : List ScriptArgument) : ScriptDialogue V V :=
  ((Dialogue.request (.scriptLoad entry.lua) awaitReply).bind fun reloadedSha =>
    .send (.cacheSha ref reloadedSha) fun _ =>
      Dialogue.request (.evalsha reloadedSha keys args) awaitReply).tryCatch fun retryErr =>
        .fail (scriptFailed name retryErr)

/-- The cached SHA, loading the script when there is none. -/
def shaOrLoad (name : Text) (entry : ScriptEntry) : ScriptDialogue V Text :=
  match entry.sha with
  | some sha => .done sha
  | none => load connection name

/-- `EVALSHA` with the cached SHA. -/
def evalCached (name : Text) (entry : ScriptEntry) (keys : List Text)
    (args : List ScriptArgument) : ScriptDialogue V V :=
  (shaOrLoad connection name entry).bind fun sha =>
    Dialogue.request (.evalsha sha keys args) awaitReply

/-- Executes a registered Lua script. -/
def eval (mode : CacheMode) (name : Text) (keys : List Text) (args : List ScriptArgument) :
    ScriptDialogue V V :=
  .send (.findEntry name) fun found =>
    match found with
    | none => .fail (.cache ⟨.SCRIPT_NOT_REGISTERED, some [("name", .text name)]⟩)
    | some ref => .send (.readEntry ref) fun (entry : ScriptEntry) =>
        (Dialogue.ofExcept connection.getClient).bind fun _ =>
          if mode = .cluster then evalBody name entry keys args
          else (evalCached connection name entry keys args).tryCatch fun err =>
            if !(describeError err.reason).includes NOSCRIPT_MARKER then
              .fail (scriptFailed name err)
            else reloadAndRetry name ref entry keys args

end ScriptManagerService

/-! ## The world of a call -/

/-- The registry, the server's script cache and store, and the bodies the
server has run so far. -/
structure ScriptWorld (S : Type) where
  registry : Registry
  cache : Keyspace Text
  store : S
  runs : List Text

/-- The answer to an `EVALSHA` of a SHA the server does not know. -/
def noScriptError : Reason := .error "NOSCRIPT No matching script. Please use EVAL.".toList

section Server

variable {S V : Type} (sha1 : Text → Text)
  (body : Text → List Text → List ScriptArgument → S → S × Except Text V)

/-- Run a body on the store; it may write and still raise an error of
any text. -/
def ScriptWorld.runBody (world : ScriptWorld S) (lua : Text) (keys : List Text)
    (args : List ScriptArgument) : ScriptWorld S × Except Reason V :=
  ({ world with store := (body lua keys args world.store).1, runs := world.runs ++ [lua] },
    (body lua keys args world.store).2.mapError .error)

/-- The registry and the server answer one command. -/
def scriptServer (world : ScriptWorld S) :
    (c : ScriptCommand) → ScriptWorld S × ScriptReply V c
  | .findEntry name => (world, world.registry.names.lookup name)
  | .readEntry ref => (world, (world.registry.entries[ref]?).getD default)
  | .cacheSha ref sha => ({ world with registry := world.registry.cacheSha ref sha }, ())
  | .scriptLoad lua => ({ world with cache := world.cache.insert (sha1 lua) lua }, .ok (sha1 lua))
  | .evalsha sha keys args =>
      match world.cache.lookup sha with
      | none => (world, .error noScriptError)
      | some lua => world.runBody body lua keys args
  | .eval lua keys args =>
      { world with cache := world.cache.insert (sha1 lua) lua }.runBody body lua keys args

/-! ## How often a call runs a body -/

open ScriptManagerService

variable {sha1 body}

/-- The script the first `EVALSHA` of a call runs, if the server has it. -/
def ScriptWorld.firstScript (world : ScriptWorld S) (entry : ScriptEntry) : Option Text :=
  match entry.sha with
  | none => some entry.lua
  | some sha => world.cache.lookup sha

/-- The outcome of a body as a thrown or returned value. -/
def outcome (result : Except Text V) : Except Thrown V := result.mapError (.raw ∘ .error)

/-- The world after a `SCRIPT LOAD` whose SHA the entry keeps. -/
def ScriptWorld.loaded (sha1 : Text → Text) (world : ScriptWorld S) (ref : Nat) (lua : Text) :
    ScriptWorld S :=
  { world with
    cache := world.cache.insert (sha1 lua) lua
    registry := world.registry.cacheSha ref (sha1 lua) }

@[simp] theorem loaded_runs (world : ScriptWorld S) (ref : Nat) (lua : Text) :
    (world.loaded sha1 ref lua).runs = world.runs := rfl

@[simp] theorem loaded_store (world : ScriptWorld S) (ref : Nat) (lua : Text) :
    (world.loaded sha1 ref lua).store = world.store := rfl

/-- A loaded script is cached under its SHA. -/
@[simp] theorem loaded_lookup (world : ScriptWorld S) (ref : Nat) (lua : Text) :
    (world.loaded sha1 ref lua).cache.lookup (sha1 lua) = some lua := by
  simp [ScriptWorld.loaded]

/-- Loading a script that has no SHA yet. -/
theorem exec_load {world : ScriptWorld S} {name : Text} {ref : Nat} {entry : ScriptEntry}
    (hheld : world.registry.Holds name ref entry) (hsha : entry.sha = none)
    (client : ClientKind) :
    let ending := (load (.connected client) name : ScriptDialogue V Text).exec
      (scriptServer sha1 body) world
    ending.state = world.loaded sha1 ref entry.lua ∧ ending.result = .ok (sha1 entry.lua) := by
  obtain ⟨hname, hentry⟩ := hheld
  simp only [load, Dialogue.exec_send, scriptServer, hname, hentry, Option.getD_some, hsha,
    ConnectionStatus.getClient, Dialogue.ofExcept, Dialogue.bind, Dialogue.request, awaitReply,
    Dialogue.exec_done, Dialogue.Ending.after_state, Dialogue.Ending.after_result]
  exact ⟨rfl, trivial⟩

/-- An `EVALSHA` of a cached SHA runs its script. -/
theorem exec_evalsha_cached {world : ScriptWorld S} {sha lua : Text}
    (hcache : world.cache.lookup sha = some lua) (keys : List Text)
    (args : List ScriptArgument) :
    scriptServer sha1 body world (.evalsha sha keys args) = world.runBody body lua keys args := by
  simp only [scriptServer, hcache]

/-- The first attempt runs the script the server has, or nothing and fails with
`NOSCRIPT`. -/
theorem exec_evalCached {world : ScriptWorld S} {name : Text} {ref : Nat} {entry : ScriptEntry}
    (hheld : world.registry.Holds name ref entry) (client : ClientKind) (keys : List Text)
    (args : List ScriptArgument) :
    let ending := (evalCached (.connected client) name entry keys args).exec
      (scriptServer sha1 body) world
    match world.firstScript entry with
    | some lua => ending.state.runs = world.runs ++ [lua] ∧
        ending.result = outcome (body lua keys args world.store).2
    | none => ending.state.runs = world.runs ∧ ending.result = .error (.raw noScriptError) := by
  obtain ⟨hname, hentry⟩ := hheld
  unfold evalCached shaOrLoad ScriptWorld.firstScript
  cases hsha : entry.sha with
  | some sha =>
      simp only [Dialogue.bind, Dialogue.exec_request]
      cases hcache : world.cache.lookup sha with
      | none =>
          simp only [scriptServer, hcache]
          exact ⟨trivial, rfl⟩
      | some lua =>
          simp only [exec_evalsha_cached hcache, ScriptWorld.runBody]
          refine ⟨trivial, ?_⟩
          cases (body lua keys args world.store).2 <;> rfl
  | none =>
      have hload := @exec_load S V sha1 body world name ref entry ⟨hname, hentry⟩ hsha client
      simp only [Dialogue.exec_bind_ok _ hload.2, hload.1, Dialogue.exec_request,
        exec_evalsha_cached (loaded_lookup world ref entry.lua), ScriptWorld.runBody,
        Dialogue.Ending.after_state, Dialogue.Ending.after_result, loaded_runs, loaded_store]
      refine ⟨trivial, ?_⟩
      cases (body entry.lua keys args world.store).2 <;> rfl

/-- The reload runs the entry's own script, whatever the server had cached. The
SHA it runs is the one that the reload has returned. -/
theorem exec_reloadAndRetry (world : ScriptWorld S) (name : Text) (ref : Nat)
    (entry : ScriptEntry) (keys : List Text) (args : List ScriptArgument) :
    ((reloadAndRetry name ref entry keys args : ScriptDialogue V V).exec
      (scriptServer sha1 body) world).state.runs = world.runs ++ [entry.lua] := by
  have hretry : ((Dialogue.request (.evalsha (sha1 entry.lua) keys args) awaitReply :
      ScriptDialogue V V).exec (scriptServer sha1 body)
        (world.loaded sha1 ref entry.lua)).state.runs = world.runs ++ [entry.lua] := by
    simp only [Dialogue.exec_request, exec_evalsha_cached (loaded_lookup world ref entry.lua),
      ScriptWorld.runBody, loaded_runs]
  unfold reloadAndRetry
  rw [Dialogue.exec_tryCatch]
  split
  · exact hretry
  · exact hretry

/-- **What one call runs.**  Nothing without a client; else the script of the
first `EVALSHA`, and the entry's own once more when that attempt fails with an
error that mentions `NOSCRIPT`. -/
theorem eval_runs {world : ScriptWorld S} {name : Text} {ref : Nat} {entry : ScriptEntry}
    (hheld : world.registry.Holds name ref entry) {mode : CacheMode} (hmode : mode ≠ .cluster)
    (client : ClientKind) (keys : List Text) (args : List ScriptArgument) :
    ((eval (.connected client) mode name keys args : ScriptDialogue V V).exec
      (scriptServer sha1 body) world).state.runs =
      match world.firstScript entry with
      | none => world.runs ++ [entry.lua]
      | some lua =>
          match (body lua keys args world.store).2 with
          | .ok _ => world.runs ++ [lua]
          | .error text =>
              if text.includes NOSCRIPT_MARKER then world.runs ++ [lua, entry.lua]
              else world.runs ++ [lua] := by
  have hfirst := @exec_evalCached S V sha1 body world name ref entry hheld client keys args
  obtain ⟨hname, hentry⟩ := hheld
  simp only [eval, Dialogue.exec_send, scriptServer, hname, hentry, Option.getD_some,
    ConnectionStatus.getClient, Dialogue.ofExcept, Dialogue.bind, if_neg hmode,
    Dialogue.Ending.after_state]
  cases hscript : world.firstScript entry with
  | none =>
      simp only [hscript] at hfirst
      obtain ⟨hruns, hresult⟩ := hfirst
      have hmarker : (describeError (Thrown.raw noScriptError).reason).includes NOSCRIPT_MARKER =
          true := by decide
      rw [Dialogue.exec_tryCatch_error _ hresult]
      simp only [hmarker, Bool.not_true, Bool.false_eq_true, if_false,
        Dialogue.Ending.after_state, exec_reloadAndRetry, hruns]
  | some lua =>
      simp only [hscript] at hfirst
      obtain ⟨hruns, hresult⟩ := hfirst
      cases hbody : (body lua keys args world.store).2 with
      | ok value =>
          rw [hbody] at hresult
          rw [Dialogue.exec_tryCatch_ok _ hresult]
          simpa only [hbody] using hruns
      | error text =>
          rw [hbody] at hresult
          have hdescribe : describeError (Thrown.raw (.error text)).reason = text := rfl
          rw [Dialogue.exec_tryCatch_error _ hresult]
          by_cases hmarker : text.includes NOSCRIPT_MARKER = true
          · simp only [Function.comp_apply, hdescribe, hmarker, Bool.not_true,
              Bool.false_eq_true, if_false, if_true, Dialogue.Ending.after_state,
              exec_reloadAndRetry, hruns, hbody, List.append_assoc, List.cons_append,
              List.nil_append]
          · simp only [Function.comp_apply, hdescribe, hmarker, Bool.not_false, if_true,
              if_false, Dialogue.Ending.after_state, Dialogue.exec_fail, hruns, hbody,
              Bool.false_eq_true]

/-- One call makes the server run a body at most once. -/
def AtMostOnce (sha1 : Text → Text)
    (body : Text → List Text → List ScriptArgument → S → S × Except Text V)
    (connection : ConnectionStatus) (mode : CacheMode) (world : ScriptWorld S) (name : Text)
    (keys : List Text) (args : List ScriptArgument) : Prop :=
  ((eval connection mode name keys args : ScriptDialogue V V).exec
    (scriptServer sha1 body) world).state.runs.length ≤ world.runs.length + 1

/-- A call without a client runs nothing. -/
theorem eval_shutDown_runs {world : ScriptWorld S} {name : Text} {ref : Nat} {entry : ScriptEntry}
    (hheld : world.registry.Holds name ref entry) (mode : CacheMode) (keys : List Text)
    (args : List ScriptArgument) :
    ((eval .shutDown mode name keys args : ScriptDialogue V V).exec
      (scriptServer sha1 body) world).state.runs = world.runs := by
  obtain ⟨hname, hentry⟩ := hheld
  simp only [eval, Dialogue.exec_send, scriptServer, hname, ConnectionStatus.getClient,
    throwCache, Dialogue.ofExcept, Dialogue.bind, Dialogue.exec_fail,
    Dialogue.Ending.after_state]

/-- **At most once, exactly.**  A standalone or sentinel call of a registered
script runs a body at most once exactly when the manager is shut down or the
first script run does not raise, on the current store, an error whose text
mentions `NOSCRIPT`. -/
theorem eval_atMostOnce_iff {S V : Type} (sha1 : Text → Text)
    (body : Text → List Text → List ScriptArgument → S → S × Except Text V)
    (connection : ConnectionStatus) (mode : CacheMode) (hmode : mode ≠ .cluster)
    (world : ScriptWorld S) (name : Text) (ref : Nat) (entry : ScriptEntry)
    (hheld : world.registry.Holds name ref entry) (keys : List Text)
    (args : List ScriptArgument) :
    AtMostOnce sha1 body connection mode world name keys args ↔
      connection = .shutDown ∨ ∀ lua text, world.firstScript entry = some lua →
        (body lua keys args world.store).2 = .error text →
        text.includes NOSCRIPT_MARKER = false := by
  unfold AtMostOnce
  cases connection with
  | shutDown =>
      rw [eval_shutDown_runs hheld]
      simp
  | connected client =>
      rw [eval_runs hheld hmode]
      cases hscript : world.firstScript entry with
      | none => simp
      | some lua =>
          cases hbody : (body lua keys args world.store).2 with
          | ok value =>
              refine iff_of_true (by simp [hbody]) (Or.inr ?_)
              rintro _ text ⟨⟩ herr
              rw [hbody] at herr
              cases herr
          | error text =>
              by_cases hmarker : text.includes NOSCRIPT_MARKER = true
              · refine iff_of_false (by simp [hbody, hmarker]) (not_or.mpr ⟨nofun, fun h => ?_⟩)
                rw [h lua text rfl hbody] at hmarker
                cases hmarker
              · refine iff_of_true (by simp [hbody, hmarker]) (Or.inr ?_)
                rintro _ text' ⟨⟩ herr
                obtain rfl : text = text' := Except.error.inj (hbody.symm.trans herr)
                simpa using hmarker

end Server

/-- A script that counts its runs in the store and then raises an error. -/
def countThenRaise (text : String) : Text → List Text → List ScriptArgument → Nat →
    Nat × Except Text Unit :=
  fun _ _ _ n => (n + 1, .error text.toList)

/-- A world with one registered script, not loaded yet, on a fresh server. -/
def freshWorld : ScriptWorld Nat where
  registry := Registry.empty.register "count".toList "redis.call(...)".toList
  cache := ∅
  store := 0
  runs := []

/-- A script that raises an ordinary error runs at most once. -/
theorem eval_atMostOnce_iff_ordinary :
    AtMostOnce id (countThenRaise "ERR limit") (.connected .redis) .standalone freshWorld
        "count".toList [] [] ↔
      ConnectionStatus.connected .redis = .shutDown ∨ ∀ lua text,
        freshWorld.firstScript { lua := "redis.call(...)".toList } = some lua →
        (countThenRaise "ERR limit" lua [] [] freshWorld.store).2 = .error text →
        text.includes NOSCRIPT_MARKER = false :=
  eval_atMostOnce_iff id (countThenRaise "ERR limit") _ _ (by decide) freshWorld _ 0
    { lua := "redis.call(...)".toList } ⟨rfl, rfl⟩ [] []

/-- **A double run.**  A script whose error mentions `NOSCRIPT` has already
written when the call takes the error for a cache miss and runs it again. -/
theorem eval_not_atMostOnce :
    ¬ ∀ (S V : Type) (sha1 : Text → Text)
        (body : Text → List Text → List ScriptArgument → S → S × Except Text V)
        (connection : ConnectionStatus) (mode : CacheMode), mode ≠ .cluster →
        ∀ (world : ScriptWorld S) (name : Text) (ref : Nat) (entry : ScriptEntry),
        world.registry.Holds name ref entry → ∀ keys args,
        AtMostOnce sha1 body connection mode world name keys args := by
  intro h
  have honce := h Nat Unit id (countThenRaise "ERR NOSCRIPT in the message") (.connected .redis)
    .standalone (by decide) freshWorld "count".toList 0 { lua := "redis.call(...)".toList }
    ⟨rfl, rfl⟩ [] []
  unfold AtMostOnce at honce
  exact absurd honce (by decide)

end NestCache
