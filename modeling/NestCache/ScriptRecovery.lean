import NestCache.ScriptManager

/-!
# Recovery and errors of a script call

A call reaches the script in one of three ways: the cached SHA hits, the script
is loaded first, or the server misses and the call reloads and retries.
`eval_recovers` says that they cannot be told apart when the script returns,
and that nothing but `SCRIPT_EXECUTION_FAILED` ever leaves a call of a
registered script, whatever the commands reject with.
-/

namespace NestCache

open ScriptManagerService

section Recovery

variable {S V : Type} {sha1 : Text → Text}
  {body : Text → List Text → List ScriptArgument → S → S × Except Text V}

/-- The call returned the value of one run of the body on the store. -/
structure RanOnce (sha1 : Text → Text)
    (body : Text → List Text → List ScriptArgument → S → S × Except Text V)
    (world : ScriptWorld S) (lua : Text) (keys : List Text) (args : List ScriptArgument)
    (value : V) (call : ScriptDialogue V V) : Prop where
  result : (call.exec (scriptServer sha1 body) world).result = .ok value
  store : (call.exec (scriptServer sha1 body) world).state.store =
    (scriptServer sha1 body world (.eval lua keys args)).1.store
  runs : (call.exec (scriptServer sha1 body) world).state.runs = world.runs ++ [lua]

/-- A command that runs the body, from a world with the same store and
history. -/
theorem RanOnce.of_runBody {world reached : ScriptWorld S} {lua : Text} {keys : List Text}
    {args : List ScriptArgument} {value : V} {call : ScriptDialogue V V}
    (hbody : (body lua keys args world.store).2 = .ok value)
    (hstore : reached.store = world.store) (hruns : reached.runs = world.runs)
    (hstate : (call.exec (scriptServer sha1 body) world).state =
      (reached.runBody body lua keys args).1)
    (hresult : (call.exec (scriptServer sha1 body) world).result =
      awaitReply (reached.runBody body lua keys args).2) :
    RanOnce sha1 body world lua keys args value call := by
  refine ⟨?_, ?_, ?_⟩
  · rw [hresult, ScriptWorld.runBody, hstore, hbody]
    rfl
  · rw [hstate, ScriptWorld.runBody, hstore]
    rfl
  · rw [hstate, ScriptWorld.runBody, hruns]

variable {world : ScriptWorld S} {name : Text} {ref : Nat} {entry : ScriptEntry}
  {keys : List Text} {args : List ScriptArgument} {value : V}

/-- A hit. -/
theorem evalsha_ranOnce {sha : Text} (hcache : world.cache.lookup sha = some entry.lua)
    (hbody : (body entry.lua keys args world.store).2 = .ok value) :
    RanOnce sha1 body world entry.lua keys args value
      (Dialogue.request (.evalsha sha keys args) awaitReply) := by
  apply RanOnce.of_runBody hbody rfl rfl
  · rw [Dialogue.exec_request, exec_evalsha_cached hcache]
  · rw [Dialogue.exec_request, exec_evalsha_cached hcache]

/-- The reload and retry. Loading runs nothing, and the second `EVALSHA` finds
what was just loaded. -/
theorem reloadAndRetry_ranOnce (hbody : (body entry.lua keys args world.store).2 = .ok value) :
    RanOnce sha1 body world entry.lua keys args value (reloadAndRetry name ref entry keys args) := by
  have hretry : RanOnce sha1 body world entry.lua keys args value
      ((Dialogue.request (.scriptLoad entry.lua) awaitReply).bind fun reloadedSha =>
        .send (.cacheSha ref reloadedSha) fun _ =>
          Dialogue.request (.evalsha reloadedSha keys args) awaitReply) := by
    have hevalsha := @exec_evalsha_cached S V sha1 body (world.loaded sha1 ref entry.lua)
      (sha1 entry.lua) entry.lua (loaded_lookup world ref entry.lua) keys args
    apply RanOnce.of_runBody hbody (@loaded_store S sha1 world ref entry.lua)
      (@loaded_runs S sha1 world ref entry.lua)
    · rw [← hevalsha]
      exact congrArg Dialogue.Ending.state (Dialogue.exec_request (scriptServer sha1 body) _ _ _)
    · rw [← hevalsha]
      exact congrArg Dialogue.Ending.result (Dialogue.exec_request (scriptServer sha1 body) _ _ _)
  have hexec := Dialogue.exec_tryCatch_ok (scriptServer sha1 body) hretry.result
    fun retryErr => .fail (scriptFailed name retryErr)
  exact ⟨by rw [reloadAndRetry, hexec]; exact hretry.result,
    by rw [reloadAndRetry, hexec]; exact hretry.store,
    by rw [reloadAndRetry, hexec]; exact hretry.runs⟩

/-- The server has the script of a SHA, or none. -/
def ScriptWorld.Honest (sha1 : Text → Text) (world : ScriptWorld S) (lua : Text) : Prop :=
  ∀ cached, world.cache.lookup (sha1 lua) = some cached → cached = lua

/-- The first attempt: it runs the script once, or the server does not have it
and nothing happened. -/
theorem evalCached_cases (hheld : world.registry.Holds name ref entry)
    (hsha : entry.sha = none ∨ entry.sha = some (sha1 entry.lua))
    (hcache : world.Honest sha1 entry.lua) (client : ClientKind)
    (hbody : (body entry.lua keys args world.store).2 = .ok value) :
    RanOnce sha1 body world entry.lua keys args value
        (evalCached (.connected client) name entry keys args) ∨
      (((evalCached (.connected client) name entry keys args : ScriptDialogue V V).exec
          (scriptServer sha1 body) world).state = world ∧
        ((evalCached (.connected client) name entry keys args : ScriptDialogue V V).exec
          (scriptServer sha1 body) world).result = .error (.raw noScriptError)) := by
  rcases hsha with hsha | hsha
  · left
    have hload := @exec_load S V sha1 body world name ref entry hheld hsha client
    have hevalsha := @exec_evalsha_cached S V sha1 body (world.loaded sha1 ref entry.lua)
      (sha1 entry.lua) entry.lua (loaded_lookup world ref entry.lua) keys args
    have hexec : (evalCached (.connected client) name entry keys args : ScriptDialogue V V) =
        (load (.connected client) name).bind fun sha =>
          Dialogue.request (.evalsha sha keys args) awaitReply := by
      simp only [evalCached, shaOrLoad, hsha]
    apply RanOnce.of_runBody hbody (@loaded_store S sha1 world ref entry.lua)
      (@loaded_runs S sha1 world ref entry.lua)
    · rw [hexec, Dialogue.exec_bind_ok _ hload.2, hload.1, Dialogue.exec_request, hevalsha]
      rfl
    · rw [hexec, Dialogue.exec_bind_ok _ hload.2, hload.1, Dialogue.exec_request, hevalsha]
      rfl
  · have hexec : (evalCached (.connected client) name entry keys args : ScriptDialogue V V) =
        Dialogue.request (.evalsha (sha1 entry.lua) keys args) awaitReply := by
      simp only [evalCached, shaOrLoad, hsha, Dialogue.bind]
    rw [hexec]
    cases hlookup : world.cache.lookup (sha1 entry.lua) with
    | some cached =>
        obtain rfl := hcache cached hlookup
        exact Or.inl (evalsha_ranOnce hlookup hbody)
    | none =>
        right
        rw [Dialogue.exec_request]
        simp only [scriptServer, hlookup]
        exact ⟨trivial, rfl⟩

/-- The part of a call behind the lookup. The lookup finds the entry and sends
nothing to the server. -/
theorem eval_exec (hheld : world.registry.Holds name ref entry) (client : ClientKind)
    (mode : CacheMode) :
    ∃ sent, (eval (.connected client) mode name keys args : ScriptDialogue V V).exec
        (scriptServer sha1 body) world =
      ((if mode = .cluster then evalBody name entry keys args
        else (evalCached (.connected client) name entry keys args).tryCatch fun err =>
          if !(describeError err.reason).includes NOSCRIPT_MARKER then
            .fail (scriptFailed name err)
          else reloadAndRetry name ref entry keys args).exec
        (scriptServer sha1 body) world).after sent := by
  obtain ⟨hname, hentry⟩ := hheld
  refine ⟨[.findEntry name] ++ [.readEntry ref], ?_⟩
  simp only [eval, Dialogue.exec_send, scriptServer, hname, hentry, Option.getD_some,
    ConnectionStatus.getClient, Dialogue.ofExcept, Dialogue.bind]
  rfl

/-- What holds of the part behind the lookup holds of the call. -/
theorem RanOnce.of_exec {first second : ScriptDialogue V V} {sent : List ScriptCommand}
    (hexec : second.exec (scriptServer sha1 body) world =
      (first.exec (scriptServer sha1 body) world).after sent)
    (h : RanOnce sha1 body world entry.lua keys args value first) :
    RanOnce sha1 body world entry.lua keys args value second :=
  ⟨by rw [hexec]; exact h.result, by rw [hexec]; exact h.store, by rw [hexec]; exact h.runs⟩

/-- A standalone or sentinel call. With the SHA cached in the entry it is one
`EVALSHA`, which runs the body, or is answered with NOSCRIPT and recovered
from; without it the script is loaded first. -/
theorem eval_ranOnce (hheld : world.registry.Holds name ref entry)
    (hsha : entry.sha = none ∨ entry.sha = some (sha1 entry.lua))
    (hcache : world.Honest sha1 entry.lua) (client : ClientKind) {mode : CacheMode}
    (hmode : mode ≠ .cluster) (hbody : (body entry.lua keys args world.store).2 = .ok value) :
    RanOnce sha1 body world entry.lua keys args value
      (eval (.connected client) mode name keys args) := by
  obtain ⟨sent, hexec⟩ := @eval_exec S V sha1 body world name ref entry keys args hheld client mode
  rw [if_neg hmode] at hexec
  apply RanOnce.of_exec hexec
  rcases evalCached_cases hheld hsha hcache client hbody with honce | ⟨hstate, hmiss⟩
  · exact .of_exec ((Dialogue.exec_tryCatch_ok _ honce.result _).trans
      (Dialogue.Ending.after_nil _).symm) honce
  · have hmarker : (describeError (Thrown.raw noScriptError).reason).includes NOSCRIPT_MARKER =
        true := by decide
    have hretry := @reloadAndRetry_ranOnce S V sha1 body world name ref entry keys args value hbody
    have hagain := Dialogue.exec_tryCatch_error (scriptServer sha1 body) hmiss fun err =>
      if !(describeError err.reason).includes NOSCRIPT_MARKER then .fail (scriptFailed name err)
      else reloadAndRetry name ref entry keys args
    simp only [hstate, hmarker, Bool.not_true, Bool.false_eq_true, if_false] at hagain
    exact .of_exec hagain hretry

/-- A cluster call with a key: the body is sent whole. No cache of scripts is
involved, so there is nothing to recover from. -/
theorem eval_cluster_ranOnce (hheld : world.registry.Holds name ref entry) (client : ClientKind)
    (hkeys : keys ≠ []) (hbody : (body entry.lua keys args world.store).2 = .ok value) :
    RanOnce sha1 body world entry.lua keys args value
      (eval (.connected client) .cluster name keys args) := by
  obtain ⟨sent, hexec⟩ := @eval_exec S V sha1 body world name ref entry keys args hheld client
    .cluster
  rw [if_pos rfl, evalBody, if_neg hkeys] at hexec
  apply RanOnce.of_exec hexec
  have hrequest : RanOnce sha1 body world entry.lua keys args value
      (Dialogue.request (.eval entry.lua keys args) awaitReply) := by
    apply @RanOnce.of_runBody S V sha1 body world
      { world with cache := world.cache.insert (sha1 entry.lua) entry.lua } _ _ _ _ _ hbody rfl rfl
    · rw [Dialogue.exec_request]
      rfl
    · rw [Dialogue.exec_request]
      rfl
  exact .of_exec ((Dialogue.exec_tryCatch_ok _ hrequest.result _).trans
    (Dialogue.Ending.after_nil _).symm) hrequest

end Recovery

/-! ## Contained errors -/

/-- A call resolved, or rejected with `SCRIPT_EXECUTION_FAILED`. -/
def Contained {V : Type} (result : Except Thrown V) : Prop :=
  (∃ value, result = .ok value) ∨
    ∃ details, result = .error (.cache ⟨.SCRIPT_EXECUTION_FAILED, details⟩)

/-- The name is registered; every other reply is free. -/
def findsName {V : Type} (name : Text) : (c : ScriptCommand) → ScriptReply V c → Prop
  | .findEntry sought, found => sought = name → found ≠ none
  | _, _ => True

section ClosedErrors

variable {V : Type} {admits : (c : ScriptCommand) → ScriptReply V c → Prop}

/-- A call that resolves is contained. -/
theorem contained_ok (value : V) : Contained (.ok value : Except Thrown V) := Or.inl ⟨value, rfl⟩

/-- So is one that ends in the wrapping of an error. -/
theorem contained_scriptFailed (name : Text) (err : Thrown) :
    (.fail (scriptFailed name err) : ScriptDialogue V V).Meets admits Contained :=
  Or.inr ⟨_, rfl⟩

/-- **Contained errors.** Whatever the commands answer. Each rejection is
wrapped, also one that is no `Error`, and so is the refusal of a cluster call
without keys. -/
theorem eval_contained (client : ClientKind) (mode : CacheMode) (name : Text) (keys : List Text)
    (args : List ScriptArgument) :
    (eval (.connected client) mode name keys args : ScriptDialogue V V).Meets (findsName name)
      Contained := by
  intro found hfound
  cases found with
  | none => exact absurd rfl (hfound rfl)
  | some ref =>
      intro entry _
      change (if mode = .cluster then evalBody name entry keys args else _ :
        ScriptDialogue V V).Meets (findsName name) Contained
      by_cases hmode : mode = .cluster
      · rw [if_pos hmode, evalBody]
        by_cases hkeys : keys = []
        · rw [if_pos hkeys]
          exact Or.inr ⟨_, rfl⟩
        · rw [if_neg hkeys]
          exact Dialogue.Meets.of_handler contained_ok (contained_scriptFailed name) _
      · rw [if_neg hmode]
        refine Dialogue.Meets.of_handler contained_ok (fun err => ?_) _
        split
        · exact contained_scriptFailed name err
        · exact Dialogue.Meets.of_handler contained_ok (contained_scriptFailed name) _

end ClosedErrors

/-- A script that counts its runs in the store and returns the count. -/
def countRuns : Text → List Text → List ScriptArgument → Nat → Nat × Except Text Nat :=
  fun _ _ _ n => (n + 1, .ok (n + 1))

/-- A world whose server lost the script that the library has loaded. -/
def flushedWorld : ScriptWorld Nat where
  registry := (Registry.empty.register "count".toList "redis.call(...)".toList).cacheSha 0
    "redis.call(...)".toList
  cache := ∅
  store := 0
  runs := []

end NestCache
