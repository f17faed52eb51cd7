import NestCache.ServiceCalls

/-!
# Refused calls

A call that is refused for its arguments, its configuration or its connection
fails before its first Redis command, whatever its method and wherever in a
batch the bad element stands.  `run_untouched` says so of every method, of most
by their common shape; `refusals_untouched` is what it means for a server.
-/

namespace NestCache

/-! ## Refusals -/

/-- The codes that refuse a call. -/
def CacheErrorCode.isRefusal : CacheErrorCode → Bool
  | .INVALID_KEY | .INVALID_TTL | .SERIALIZATION_FAILED | .SCRIPT_REGISTRY_MISSING
  | .SCRIPT_NOT_REGISTERED | .FLUSH_DISABLED_IN_PRODUCTION | .UNSUPPORTED_IN_CLUSTER
  | .CONNECTION_LOST => true
  | _ => false

/-- The errors that refuse a call; a cluster refuses a script without keys as a
failed execution. -/
def IsRefusal (keylessCluster : Prop) : Thrown → Prop
  | .raw _ => False
  | .cache e => e.code.isRefusal = true ∨ keylessCluster ∧ e.code = .SCRIPT_EXECUTION_FAILED

/-- The lookups of a script call, which only read the registry. -/
def ServiceCommand.isLookup : ServiceCommand → Bool
  | .script (.findEntry _) | .script (.readEntry _) => true
  | _ => false

/-- The commands a call sends to Redis. -/
def ServiceCommand.isRedis : ServiceCommand → Bool
  | .script (.findEntry _) | .script (.readEntry _) | .script (.cacheSha _ _) => false
  | _ => true

/-- The call fails with a refusal only before any command other than a
lookup. -/
def FailsUntouched {V α : Type} (keylessCluster : Prop) (p : ServiceDialogue V α) : Prop :=
  p.FailsEarly (fun _ _ => True) (fun c => c.isLookup = false) (IsRefusal keylessCluster)

section Methods

variable {T V : Type} {keylessCluster : Prop}

open Dialogue

/-- A rejection of the server is not a refusal. -/
theorem late_awaitReply {α : Type} (reply : Except Reason α) :
    Late (IsRefusal keylessCluster) (awaitReply reply) := by
  cases reply with
  | ok a => exact late_ok a
  | error reason => exact (late_error _).mpr id

/-- Nor is a reply that is read or decoded. -/
theorem Reads.late {service : CacheService T} (hserializer : service.serializer.FailsClosed)
    {α : Type} {x : Except Thrown α} (hx : Reads service x) :
    Late (IsRefusal keylessCluster) x := by
  intro e he
  rcases hx e he with ⟨reason, rfl⟩ | ⟨raw, hraw⟩
  · exact id
  · cases e with
    | raw reason => exact id
    | cache e => simp [IsRefusal, hserializer raw e hraw, CacheErrorCode.isRefusal]

namespace FailsUntouched

/-- Arguments, encodings, checks and the client come first. -/
theorem prepare {α β : Type} (x : Except Thrown β) {f : β → ServiceDialogue V α}
    (hf : ∀ b, FailsUntouched keylessCluster (f b)) :
    FailsUntouched keylessCluster ((Dialogue.ofExcept x).bind f) :=
  (failsEarly_ofExcept_bind x f).mpr fun b _ => hf b

/-- The command that ends a method. -/
theorem await {α : Type} (c : ServiceCommand) {read : ServiceReply V c → Except Thrown α}
    (hread : ∀ r, Late (IsRefusal keylessCluster) (read r)) :
    FailsUntouched keylessCluster (.request c read) := failsEarly_request fun r _ => hread r

/-- Relabelling the result does not change what is refused, nor when. -/
theorem map {α β : Type} {p : ServiceDialogue V α} (hp : FailsUntouched keylessCluster p)
    (f : α → β) : FailsUntouched keylessCluster (p.map f) := FailsEarly.map hp f

end FailsUntouched

/-- One command on what was composed: its reply is no refusal. -/
theorem SingleCommand.untouched {service : CacheService T}
    (hserializer : service.serializer.FailsClosed) {α : Type} {p : ServiceDialogue V α}
    (hp : SingleCommand service p) : FailsUntouched keylessCluster p := by
  induction hp with
  | ofExcept x => exact failsEarly_ofExcept x
  | prepare x _ ih => exact (failsEarly_ofExcept_bind x _).mpr ih
  | request _ hread => exact .await _ fun reply => (hread reply).late hserializer
  | map _ f ih => exact .map ih f

/-- A cluster is refused before the scan. -/
theorem scannableClient_untouched (service : CacheService T) (operation : String) {α : Type}
    {f : ClientKind → ServiceDialogue V α} (hf : ∀ client, FailsUntouched keylessCluster (f client)) :
    FailsUntouched keylessCluster ((service.scannableClient operation).bind f) := by
  change FailsUntouched keylessCluster ((service.client.bind _).bind f)
  rw [bind_assoc]
  refine .prepare _ fun client => ?_
  split
  · exact hf client
  · trivial

/-! ## Flushes and scripts -/

/-- The loop of a flush passes rejections on and refuses nothing. The induction
is on the batches. -/
theorem late_unlinkBatches (batches : List (List Text)) (total : Nat) :
    (unlinkBatches total batches).Meets
      (fun | .scanStream _ _ => Late (IsRefusal keylessCluster)
           | .unlink _ => Late (IsRefusal keylessCluster)) (Late (IsRefusal keylessCluster)) := by
  induction batches generalizing total with
  | nil => exact late_ok total
  | cons keys rest ih =>
      rw [unlinkBatches]
      split
      · refine Meets.bind ((meets_request _ _).mpr fun reply hreply => ?_)
        cases reply with
        | ok removed => exact ih (total + removed)
        | error e => exact (late_error e).mpr ((late_error e).mp hreply)
      · exact ih total

/-- **`flushNamespace`** refuses, if at all, before it scans: what fails
behind that is an error of the server. -/
theorem flushNamespace_untouched (service : CacheService T) :
    FailsUntouched keylessCluster (service.flushNamespace : ServiceDialogue V Nat) := by
  have hflush : (NestCache.flushNamespace service.nodeEnv service.options
      service.connection.getClient).FailsEarly
        (fun | .scanStream _ _ => Late (IsRefusal keylessCluster)
             | .unlink _ => Late (IsRefusal keylessCluster))
        (fun _ => True) (IsRefusal keylessCluster) := by
    unfold NestCache.flushNamespace
    split
    · trivial
    · refine (failsEarly_ofExcept_bind _ _).mpr fun client _ => ?_
      split
      · trivial
      · refine failsEarly_request_bind (fun reply hreply => hreply) fun batches => ?_
        exact late_unlinkBatches batches 0
  refine hflush.mapCommands (fun c reply _ => ?_) fun _ _ => trivial
  cases c <;> exact late_awaitReply reply

/-- A failed execution refuses only a script without keys in a cluster. -/
theorem late_scriptFailed {α : Type} (h : ¬ keylessCluster) (name : Text) (err : Thrown) :
    Late (IsRefusal keylessCluster) (.error (scriptFailed name err) : Except Thrown α) := by
  rw [late_error]
  simp [scriptFailed, IsRefusal, CacheErrorCode.isRefusal, h]

/-- **`eval` of the script manager** looks up the name and refuses a keyless
call on a cluster before it sends anything. -/
theorem scriptEval_untouched (manager : ScriptRegistry) (name : Text) (keys : List Text)
    (args : List ScriptArgument) :
    FailsUntouched (keys = [] ∧ manager.options.mode = .cluster)
      (manager.eval name keys args : ServiceDialogue V V) := by
  have heval : (ScriptManagerService.eval manager.connection manager.options.mode name keys args :
      ScriptDialogue V V).FailsEarly (fun _ _ => True)
        (fun c => ServiceCommand.isLookup (.script c) = false)
        (IsRefusal (keys = [] ∧ manager.options.mode = .cluster)) := by
    refine fun found _ => ⟨?_, nofun⟩
    cases found with
    | none => trivial
    | some ref =>
        refine fun entry _ => ⟨?_, nofun⟩
        refine (failsEarly_ofExcept_bind _ _).mpr fun client _ => ?_
        by_cases hmode : manager.options.mode = .cluster
        · rw [if_pos hmode, ScriptManagerService.evalBody]
          by_cases hkeys : keys = []
          · rw [if_pos hkeys]
            trivial
          · rw [if_neg hkeys]
            have hkeyed : ¬ (keys = [] ∧ manager.options.mode = .cluster) := fun h => hkeys h.1
            have hlate := late_scriptFailed (α := V) hkeyed name
            exact (Meets.of_handler (fun _ => late_ok _) hlate _).failsEarly
        · rw [if_neg hmode]
          have hplain : ¬ (keys = [] ∧ manager.options.mode = .cluster) := fun h => hmode h.2
          have hlate := late_scriptFailed (α := V) hplain name
          refine (Meets.of_handler (fun _ => late_ok _) (fun err => ?_) _).failsEarly
          split
          · exact hlate err
          · exact Meets.of_handler (fun _ => late_ok _) hlate _
  exact heval.mapCommands (fun _ _ _ => trivial) fun _ hc => hc

/-! ## Every method -/

/-- The manager of a service is in cluster mode and the call names no key. -/
def ServiceCall.KeylessCluster (service : CacheService T) : ServiceCall T → Prop
  | .eval _ bareKeys _ => bareKeys = [] ∧ ∃ manager, service.scriptRegistry = some manager ∧
      manager.options.mode = .cluster
  | _ => False

/-- **`eval` of the cache** refuses a key without a namespace and what the
script manager refuses, before it sends anything. -/
theorem eval_untouched (service : CacheService T) (scriptName : Text) (keys : List Text)
    (args : List ScriptArgument) :
    FailsUntouched (ServiceCall.KeylessCluster service (.eval scriptName keys args))
      (service.eval scriptName keys args : ServiceDialogue V V) := by
  unfold CacheService.eval
  cases hmanager : service.scriptRegistry with
  | none => trivial
  | some manager =>
      refine (failsEarly_ofExcept_bind _ _).mpr fun namespacedKeys hkeys => ?_
      have hlength := (mapM_eq_ok_iff.mp hkeys).length_eq
      have hempty : namespacedKeys = [] ↔ keys = [] := by
        rw [← List.length_eq_zero_iff, ← List.length_eq_zero_iff, hlength]
      have hiff : (namespacedKeys = [] ∧ manager.options.mode = .cluster) ↔
          ServiceCall.KeylessCluster service (.eval scriptName keys args) := by
        simp [ServiceCall.KeylessCluster, hmanager, hempty]
      rw [← propext hiff]
      exact scriptEval_untouched manager scriptName namespacedKeys args

/-- **Every method.** A refusal comes before the first command. The methods
that send one command have a common shape; those that scan, `eval`,
`isHealthy` and `info` are looked at on their own. -/
theorem run_untouched {service : CacheService T} (hserializer : service.serializer.FailsClosed)
    (call : ServiceCall T) :
    FailsUntouched (call.KeylessCluster service)
      (service.run call : ServiceDialogue V (ServiceResult T V)) := by
  cases call with
  | keys keyPrefix pattern =>
      refine .map ?_ _
      exact .prepare _ fun _ => scannableClient_untouched service "keys" fun _ =>
        .await _ late_awaitReply
  | scan keyPrefix pattern count =>
      refine .map ?_ _
      exact .prepare _ fun _ => scannableClient_untouched service "scan" fun _ =>
        failsEarly_request_bind (fun reply _ => late_awaitReply reply) fun _ => late_ok _
  | flushNamespace =>
      refine .map ?_ _
      exact flushNamespace_untouched service
  | eval scriptName keys args => exact .map (eval_untouched service scriptName keys args) _
  | isHealthy =>
      refine .map ?_ _
      refine (Meets.of_handler (fun _ => late_ok _) (fun _ => ?_) _).failsEarly
      exact late_ok false
  | info sectionName => exact .map (.prepare _ fun _ => .await _ late_awaitReply) _
  | _ => exact (run_single service rfl).untouched hserializer

/-- A refused call has sent no Redis command and left everything as it was,
whatever Redis answers. -/
def RefusedUntouched {α : Type} (keylessCluster : Prop) (p : ServiceDialogue V α) : Prop :=
  ∀ (σ : Type) (redis : σ → (c : ServiceCommand) → σ × ServiceReply V c) (registry : Registry)
    (store : σ) (e : Thrown),
    (p.exec (serviceProcess redis) (registry, store)).result = .error e →
    IsRefusal keylessCluster e →
    (∀ c ∈ (p.exec (serviceProcess redis) (registry, store)).sent, c.isRedis = false) ∧
      (p.exec (serviceProcess redis) (registry, store)).state = (registry, store)

/-- What fails with a refusal only before it sends has, when it is refused,
sent nothing and changed nothing, on any server. -/
theorem FailsUntouched.refused {α : Type} {p : ServiceDialogue V α}
    (h : FailsUntouched keylessCluster p) : RefusedUntouched keylessCluster p := by
  intro σ redis registry store e hresult he
  have hlookup : ∀ (s : Registry × σ) (c : ServiceCommand), ¬ c.isLookup = false →
      (serviceProcess redis s c).1 = s := by
    intro s c hc
    cases c with
    | script c => cases c <;> first | rfl | exact absurd rfl hc
    | _ => exact absurd rfl hc
  obtain ⟨hsent, hstate⟩ := FailsEarly.exec h (fun _ _ => trivial) hlookup hresult he
  refine ⟨fun c hc => ?_, hstate⟩
  have hnot := hsent c hc
  cases c with
  | script c => cases c <;> first | rfl | exact absurd rfl hnot
  | _ => exact absurd rfl hnot

end Methods

/-- **Refusals leave Redis untouched.**  With a serializer that keeps its
contract, every call of the service, `publish` and a direct script call that
fails with a refusal has sent no Redis command. -/
theorem refusals_untouched {T V : Type} (service : CacheService T)
    (hserializer : service.serializer.FailsClosed) :
    (∀ call, RefusedUntouched (call.KeylessCluster service)
      (service.run call : ServiceDialogue V (ServiceResult T V))) ∧
    ∀ (manager : ScriptRegistry) (name : Text) (keys : List Text) (args : List ScriptArgument),
      RefusedUntouched (keys = [] ∧ manager.options.mode = .cluster)
        (manager.eval name keys args : ServiceDialogue V V) :=
  ⟨fun call => (run_untouched hserializer call).refused,
    fun manager name keys args => (scriptEval_untouched manager name keys args).refused⟩

/-- A service of numbers with the default serializer, on an engine that takes
120 000 arguments in a call. -/
def numberService : CacheService Nat :=
  .construct defaultOptions (.connected .redis) (.ofOptions defaultOptions) none none naturalJson
    (some ⟨defaultOptions, .connected .redis⟩) none 120000

/-- A server that counts the commands it receives and rejects all of them. -/
def countingRedis (received : Nat) : (c : ServiceCommand) → Nat × ServiceReply Unit c
  | .key _ => (received + 1, .error (.error "ERR".toList))
  | .script (.findEntry _) => (received + 1, none)
  | .script (.readEntry _) => (received + 1, default)
  | .script (.cacheSha _ _) => (received + 1, ())
  | .script (.scriptLoad _) => (received + 1, .error (.error "ERR".toList))
  | .script (.evalsha _ _ _) => (received + 1, .error (.error "ERR".toList))
  | .script (.eval _ _ _) => (received + 1, .error (.error "ERR".toList))
  | .flush (.scanStream _ _) => (received + 1, .error (.error "ERR".toList))
  | .flush (.unlink _) => (received + 1, .error (.error "ERR".toList))
  | .keys _ => (received + 1, .error (.error "ERR".toList))
  | .scanStream _ _ => (received + 1, .error (.error "ERR".toList))
  | .ping => (received + 1, .error (.error "ERR".toList))
  | .info _ => (received + 1, .error (.error "ERR".toList))
  | .publish _ _ => (received + 1, .error (.error "ERR".toList))

/-- A batch whose last id is empty. -/
theorem refusals_untouched_batch :
    let ending := (numberService.run (.mset "users".toList [("a".toList, 1), ([], 2)])).exec
      (serviceProcess countingRedis) (Registry.empty, 0)
    (∀ c ∈ ending.sent, c.isRedis = false) ∧ ending.state = (Registry.empty, 0) :=
  (refusals_untouched numberService (JsonSerializer_failsClosed naturalJson)).1
    (.mset "users".toList [("a".toList, 1), ([], 2)]) Nat countingRedis Registry.empty 0
    (.cache ⟨.INVALID_KEY, some [detail "reason" "empty_id"]⟩) rfl (Or.inl rfl)

end NestCache
