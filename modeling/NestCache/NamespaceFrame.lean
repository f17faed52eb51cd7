import NestCache.ServiceCalls

/-!
# The frame of a namespace

Every key and channel that the typed operations, `publish` and the
subscriptions send to Redis starts with the namespace prefix.  On a server that
touches only the keys a command names, a run of any such calls therefore keeps
every other key and does not depend on it (`namespace_framed`).
-/

namespace NestCache

/-- The call names only what starts with the namespace prefix, whatever the
replies. -/
def StaysInside {V α : Type} (kb : KeyBuilder) (p : ServiceDialogue V α) : Prop :=
  p.Sends (fun _ _ => True) (ServiceCommand.InNamespace kb)

section Methods

variable {T V : Type} {kb : KeyBuilder}

open Dialogue

namespace StaysInside

/-- Relabelling the result names no further keys. -/
theorem map {α β : Type} {p : ServiceDialogue V α} (hp : StaysInside kb p) (f : α → β) :
    StaysInside kb (p.map f) := Sends.map hp f

/-- A computation without commands may come first, and may refuse the call. -/
theorem prepare {α β : Type} (x : Except Thrown β) {f : β → ServiceDialogue V α}
    (hf : ∀ b, x = .ok b → StaysInside kb (f b)) :
    StaysInside kb ((Dialogue.ofExcept x).bind f) := (sends_ofExcept_bind x f).mpr hf

end StaysInside

/-! ## Scripts -/

/-- The command names no key but those given. -/
def AmongKeys (keys : List Text) (c : ScriptCommand) : Prop := ∀ key ∈ c.addressed, key ∈ keys

/-- A load and what follows it. -/
theorem sends_load {α : Type} {keys : List Text} (lua : Text) {k : Text → ScriptDialogue V α}
    (hk : ∀ sha, (k sha).Sends (fun _ _ => True) (AmongKeys keys)) :
    ((request (.scriptLoad lua) awaitReply).bind k).Sends (fun _ _ => True) (AmongKeys keys) := by
  refine Sends.bind ((sends_request _ _).mpr ?_) (Meets.of_forall (fun _ sha _ => hk sha) _)
  simp [AmongKeys, ScriptCommand.addressed]

/-- Every key that a script call sends is one of its `KEYS`. The reload sends
the source without keys, and each run sends the keys of the call. -/
theorem sends_scriptEval (connection : ConnectionStatus) (mode : CacheMode) (name : Text)
    (keys : List Text) (args : List ScriptArgument) :
    (ScriptManagerService.eval connection mode name keys args : ScriptDialogue V V).Sends
      (fun _ _ => True) (AmongKeys keys) := by
  have hlookup : AmongKeys keys (.findEntry name) := by simp [AmongKeys, ScriptCommand.addressed]
  have hread : ∀ ref, AmongKeys keys (.readEntry ref) := by
    simp [AmongKeys, ScriptCommand.addressed]
  have hcache : ∀ ref sha, AmongKeys keys (.cacheSha ref sha) := by
    simp [AmongKeys, ScriptCommand.addressed]
  have hevalsha : ∀ sha, (request (.evalsha sha keys args) awaitReply : ScriptDialogue V V).Sends
      (fun _ _ => True) (AmongKeys keys) := fun sha => (sends_request _ _).mpr fun _ => id
  have hload : (ScriptManagerService.load connection name : ScriptDialogue V Text).Sends
      (fun _ _ => True) (AmongKeys keys) := by
    refine ⟨hlookup, fun found _ => ?_⟩
    cases found with
    | none => trivial
    | some ref =>
        refine ⟨hread ref, fun entry _ => ?_⟩
        dsimp only
        split
        · trivial
        · exact (sends_ofExcept_bind _ _).mpr fun client _ =>
            sends_load _ fun sha => ⟨hcache ref sha, fun _ _ => trivial⟩
  refine ⟨hlookup, fun found _ => ?_⟩
  cases found with
  | none => trivial
  | some ref =>
      refine ⟨hread ref, fun entry _ => (sends_ofExcept_bind _ _).mpr fun client _ => ?_⟩
      by_cases hmode : mode = .cluster
      · rw [if_pos hmode, ScriptManagerService.evalBody]
        split
        · trivial
        · exact Sends.tryCatch ((sends_request _ _).mpr fun _ => id) fun _ => trivial
      · rw [if_neg hmode]
        refine Sends.tryCatch (Sends.bind ?_ (Meets.of_forall (fun _ sha _ => hevalsha sha) _))
          fun err => ?_
        · unfold ScriptManagerService.shaOrLoad
          split
          · trivial
          · exact hload
        · split
          · trivial
          · exact Sends.tryCatch (sends_load _ fun sha => ⟨hcache ref sha, fun _ _ => hevalsha sha⟩)
              fun _ => trivial

/-- **`eval`** names only the keys that it has put in the namespace, in every
command that the script manager makes of the call. -/
theorem StaysInside.eval (service : CacheService T) (scriptName : Text) (keys : List Text)
    (args : List ScriptArgument) :
    StaysInside service.keyBuilder (service.eval scriptName keys args : ServiceDialogue V V) := by
  unfold CacheService.eval
  split
  · trivial
  · rename_i manager hmanager
    refine .prepare _ fun namespacedKeys hkeys => ?_
    have hregion := flushRegion_mapM (fun _ _ => flushRegion_applyNamespace) hkeys
    refine (sends_scriptEval manager.connection manager.options.mode scriptName namespacedKeys
      args).mapCommands (fun _ _ _ => trivial) fun c hc => ?_
    exact ⟨⟨c.addressed, rfl, fun key hkey => hregion key (hc key hkey)⟩,
      by simp [ServiceCommand.channels]⟩

/-! ## Every typed call -/

/-- One command on what was composed stays inside. -/
theorem SingleCommand.inside {service : CacheService T} {α : Type} {p : ServiceDialogue V α}
    (hp : SingleCommand service p) : StaysInside service.keyBuilder p := by
  induction hp with
  | ofExcept x => exact sends_ofExcept x
  | prepare x _ ih => exact .prepare x ih
  | request hc _ => exact (sends_request _ _).mpr hc
  | map _ f ih => exact .map ih f

/-- The operations on values, counters, TTLs, batches, hashes, sets and
scripts, `publish` and `PING`: all but the escape hatches, the iterations over
the keyspace and the report about the server. -/
def ServiceCall.isTyped : ServiceCall T → Bool
  | .keys _ _ | .scan _ _ _ | .pipeline | .getClient | .flushNamespace | .info _ => false
  | _ => true

/-- **Every typed call** names only what starts with the namespace prefix. -/
theorem run_inside (service : CacheService T) {call : ServiceCall T}
    (htyped : call.isTyped = true) :
    StaysInside service.keyBuilder
      (service.run call : ServiceDialogue V (ServiceResult T V)) := by
  cases call with
  | eval scriptName keys args => exact .map (.eval service scriptName keys args) _
  | isHealthy =>
      refine .map ?_ _
      have hping := (ping_single (V := V) service).inside
      exact Sends.tryCatch (Sends.bind hping (Meets.of_forall (fun _ _ _ => trivial) _))
        fun _ => trivial
  | keys _ _ | scan _ _ _ | flushNamespace | info _ => cases htyped
  | _ => exact (run_single service rfl).inside

end Methods

end NestCache
