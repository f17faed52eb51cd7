import NestCache.RedisStore
import NestCache.SubscriptionSafety

/-!
# Runs inside a namespace

Calls of the cache service, one after the other, on a server that touches only
the keys a command names, interleaved with everything the Pub/Sub service can
do.  Between two steps the surroundings of the server may change at will: time
passes, scripts are lost, commands start or stop to fail, the connection goes.

`namespace_framed` is the frame of a run: what it sends, what it leaves alone
and what it cannot depend on.
-/

namespace NestCache

/-! ## Channels -/

/-- Every command of the subscriber connection names a channel of the
namespace. -/
def ChannelsInside (kb : KeyBuilder) (s : PubSub) : Prop :=
  ∀ r < s.connection.sent, kb.FlushRegion (s.connection.commands r).target.name

section Channels

variable {M : Type} {deps : PubSubDeps M} {s s' : PubSub}

/-- Only the commands that were sent matter for this. -/
theorem ChannelsInside.congr {kb : KeyBuilder} (h : ChannelsInside kb s)
    (hsent : s'.connection.sent = s.connection.sent)
    (hcommands : s'.connection.commands = s.connection.commands) : ChannelsInside kb s' := by
  intro r hr
  rw [hcommands]
  exact h r (hsent ▸ hr)

/-- One more command. -/
theorem ChannelsInside.send {kb : KeyBuilder} (h : ChannelsInside kb s)
    (command : SubscriberCommand) (hname : kb.FlushRegion command.target.name)
    (hsent : s'.connection.sent = s.connection.sent + 1)
    (hcommands : s'.connection.commands =
      Function.update s.connection.commands s.connection.sent command) : ChannelsInside kb s' := by
  intro r hr
  rw [hcommands]
  by_cases hnew : r = s.connection.sent
  · subst hnew
    simpa using hname
  · rw [Function.update_of_ne hnew]
    exact h r (by omega)

@[simp] theorem PubSub.await_sent (s : PubSub) (command : Nat) (job : Job) :
    (s.await command job).connection.sent = s.connection.sent := by
  unfold PubSub.await
  split <;> rfl

@[simp] theorem PubSub.await_commands (s : PubSub) (command : Nat) (job : Job) :
    (s.await command job).connection.commands = s.connection.commands := by
  unfold PubSub.await
  split <;> rfl

/-- A promise job leaves the connection as it is. Continuations settle calls
and start handlers; commands are sent by calls alone. -/
theorem PubSub.runJob_connection (deps : PubSubDeps M) (onEvent : Except Thrown Unit) (s : PubSub)
    (job : Job) : (s.runJob deps onEvent job).1.connection = s.connection := by
  cases job with
  | dropEntry r =>
      simp only [runJob]
      split <;> rfl
  | resumeSubscribe c r =>
      simp only [runJob, PubSub.resumeSubscribe]
      split <;> rfl
  | deliver c event =>
      simp only [runJob, deliver]
      split <;> rfl
  | report channel error =>
      simp only [runJob, report_eq]
  | resumeRetain _ _ | resumeRelease _ _ | resumeUnsubscribe _ _ | resumeAwait _ => rfl

/-- A subscription sends the namespaced name. A refused name throws, and
nothing is sent for it. -/
theorem ChannelsInside.subscribeTo (h : ChannelsInside deps.keyBuilder s) (kind : TargetKind)
    (name : Text) : ChannelsInside deps.keyBuilder (s.subscribeTo deps kind name).1 ∧
      ∀ command, .sent command ∈ (s.subscribeTo deps kind name).2 →
        deps.keyBuilder.FlushRegion command.target.name := by
  unfold PubSub.subscribeTo
  cases hname : deps.keyBuilder.applyNamespace name with
  | error e => exact ⟨h, by simp⟩
  | ok fullName =>
      have hregion := flushRegion_applyNamespace hname
      cases href : s.service.refs ⟨kind, fullName⟩ with
      | some ref =>
          simp only [PubSub.ensureRef, href]
          exact ⟨h.congr (by simp [PubSub.joinRef]) (by simp [PubSub.joinRef]), by simp⟩
      | none =>
          simp only [PubSub.ensureRef, href]
          refine ⟨h.send ⟨.subscribe, ⟨kind, fullName⟩⟩ hregion
            (by simp [PubSub.joinRef, SubscriberConnection.send])
            (by simp [PubSub.joinRef, SubscriberConnection.send]), ?_⟩
          simpa using hregion

/-- An `Unsubscribe` function sends the target of its caller. The target was
namespaced when the caller subscribed, as the invariant of subscriptions
knows. -/
theorem ChannelsInside.unsubscribe (h : ChannelsInside deps.keyBuilder s)
    (hinv : SubscriptionInv s) {c : Nat} (hlistening : (s.service.callers c).phase = .listening) :
    ChannelsInside deps.keyBuilder (s.unsubscribe (M := M) c).1 ∧
      ∀ command, .sent command ∈ (s.unsubscribe (M := M) c).2 →
        deps.keyBuilder.FlushRegion command.target.name := by
  have hregion : deps.keyBuilder.FlushRegion (s.service.callers c).target.name := by
    obtain ⟨hlt, hcommand⟩ := hinv.refs.joined c (hinv.refs.known c (by simp [hlistening]))
    have hname := h _ hlt
    rwa [hcommand] at hname
  have htarget : ((s.detach c).service.callers c).target = (s.service.callers c).target := by
    simp [PubSub.detach, Service.release]
  by_cases hrel : (s.service.callers c).released = true
  · simp only [PubSub.unsubscribe, hrel, if_true]
    exact ⟨h.congr rfl rfl, by simp⟩
  · simp only [PubSub.unsubscribe, if_neg hrel, PubSub.releaseSubscription, htarget]
    split
    · refine ⟨h.send ⟨.unsubscribe, (s.service.callers c).target⟩ hregion rfl rfl, ?_⟩
      simpa using hregion
    · exact ⟨h.congr rfl rfl, by simp⟩

/-- **One piece of work** names channels of the namespace only. The cases are
the moves of the service; only calls send, and a reply, an event or a
continuation does not. -/
theorem channelsInside_step {a : PubSubAction} {out : List (PubSubOutput M)}
    (h : ChannelsInside deps.keyBuilder s) (hinv : SubscriptionInv s)
    (hstep : pubSubStep deps s a = some (s', out)) :
    ChannelsInside deps.keyBuilder s' ∧
      ∀ command, .sent command ∈ out → deps.keyBuilder.FlushRegion command.target.name := by
  cases pubSubStep_moves hstep with
  | join kind name => exact h.subscribeTo kind name
  | unsubscribe c hlistening => exact h.unsubscribe hinv hlistening
  | process | settle | emit => exact ⟨h.congr rfl rfl, by simp⟩
  | microtask onEvent job rest hqueue =>
      have hconnection := PubSub.runJob_connection deps onEvent { s with queue := rest } job
      obtain ⟨hsent, -⟩ := PubSub.runJob_holders deps onEvent { s with queue := rest } job
      exact ⟨h.congr (by rw [hconnection]) (by rw [hconnection]),
        fun command hmem => absurd hmem (hsent command)⟩
  | finish c event outcome =>
      cases outcome <;> exact ⟨h.congr rfl rfl, by simp [PubSub.finish]⟩
  | promiseSettles index c event rejection =>
      cases rejection <;> exact ⟨h.congr rfl rfl, by simp [PubSub.promiseSettles]⟩

end Channels

/-! ## The machine -/

/-- The service as a call finds it, with its connection manager. -/
def CacheService.under {T : Type} (service : CacheService T) (connection : ConnectionStatus) :
    CacheService T :=
  { service with
    connection
    scriptRegistry := service.scriptRegistry.map ({ · with connection }) }

/-- The server's surroundings and store, and the Pub/Sub service. -/
structure NamespaceState (W E : Type) where
  world : E × (Text → W)
  pubsub : PubSub

/-- One step: a call from beginning to end, a piece of work of the Pub/Sub
service, or a change of the surroundings. -/
inductive NamespaceAction (T E : Type)
  | call (connection : ConnectionStatus) (c : ServiceCall T)
  | subscription (a : PubSubAction)
  | surroundings (e : E)

/-- What can be observed: commands, how a call settles, and the outputs of the
Pub/Sub service. -/
inductive NamespaceOutput (T V : Type)
  | sent (command : ServiceCommand)
  | settled (result : Except Thrown (ServiceResult T V))
  | subscription (o : PubSubOutput T)

/-- What is sent names keys and channels of the namespace. -/
def NamespaceOutput.InNamespace {T V : Type} (kb : KeyBuilder) : NamespaceOutput T V → Prop
  | .sent command => command.InNamespace kb
  | .subscription (.sent command) => kb.FlushRegion command.target.name
  | _ => True

section Runs

variable {T V W E : Type} (service : CacheService T)
  (server : LocalServer ServiceCommand (ServiceReply V) Text W E ServiceCommand.footprint)
  (hasOnEvent : Bool)

/-- The Pub/Sub service next to the cache service. -/
def CacheService.pubSubDeps : PubSubDeps T where
  keyBuilder := service.keyBuilder
  deserialize := service.serializer.deserialize
  hasOnEvent := hasOnEvent

/-- Typed calls and subscriptions, from a given world on. -/
def namespaceMachine (world : E × (Text → W)) :
    Machine (NamespaceState W E) (NamespaceAction T E) (NamespaceOutput T V) where
  init := { world, pubsub := {} }
  step s
    | .call connection c =>
        if c.isTyped then
          let ending := ((service.under connection).run c).exec server.answer s.world
          some ({ s with world := ending.state },
            ending.sent.map .sent ++ [.settled ending.result])
        else none
    | .subscription a =>
        (pubSubStep (service.pubSubDeps hasOnEvent) s.pubsub a).map fun (pubsub, out) =>
          ({ s with pubsub }, out.map .subscription)
    | .surroundings e => some ({ s with world := (e, s.world.2) }, [])

variable {service server hasOnEvent}

/-- A call does what the dialogue of its method does. -/
theorem namespaceMachine_call {world : E × (Text → W)} {s s' : NamespaceState W E}
    {connection : ConnectionStatus} {c : ServiceCall T} {out : List (NamespaceOutput T V)} :
    (namespaceMachine service server hasOnEvent world).step s (.call connection c) =
        some (s', out) ↔
      c.isTyped = true ∧
      { s with world := (((service.under connection).run c).exec server.answer s.world).state } =
        s' ∧
      (((service.under connection).run c).exec server.answer s.world).sent.map .sent ++
        [.settled (((service.under connection).run c).exec server.answer s.world).result] = out := by
  simp only [namespaceMachine, Option.ite_none_right_eq_some, Option.some.injEq, Prod.mk.injEq]

/-- A call stays inside, whatever the connection. -/
theorem call_inside (service : CacheService T) (connection : ConnectionStatus) {c : ServiceCall T}
    (htyped : c.isTyped = true) : StaysInside service.keyBuilder
      ((service.under connection).run c : ServiceDialogue V (ServiceResult T V)) :=
  run_inside (service.under connection) htyped

/-- What holds after any run. -/
structure FrameInv (kb : KeyBuilder) (world : E × (Text → W)) (out : List (NamespaceOutput T V))
    (s : NamespaceState W E) : Prop where
  outputs : ∀ o ∈ out, o.InNamespace kb
  frame : ∀ key, ¬ kb.FlushRegion key → s.world.2 key = world.2 key
  subscriptions : SubscriptionInv s.pubsub
  channels : ChannelsInside kb s.pubsub

/-- **One step.** A call of the cache stays inside the namespace, a piece of
pub/sub work names its channels only, and the surroundings change no key. -/
theorem FrameInv.step {world start : E × (Text → W)} {out more : List (NamespaceOutput T V)}
    {s s' : NamespaceState W E} (h : FrameInv service.keyBuilder world out s)
    {a : NamespaceAction T E}
    (hstep : (namespaceMachine service server hasOnEvent start).step s a = some (s', more)) :
    FrameInv service.keyBuilder world (out ++ more) s' := by
  cases a with
  | call connection c =>
      obtain ⟨htyped, rfl, rfl⟩ := namespaceMachine_call.mp hstep
      have hinside := call_inside (V := V) service connection htyped
      have hsent := hinside.exec server.answer (fun _ _ => trivial) s.world
      refine ⟨fun o ho => ?_, fun key hkey => ?_, h.subscriptions, h.channels⟩
      · rcases List.mem_append.mp ho with ho | ho
        · exact h.outputs o ho
        · rcases List.mem_append.mp ho with ho | ho
          · obtain ⟨command, hcommand, rfl⟩ := List.mem_map.mp ho
            exact hsent command hcommand
          · obtain rfl := List.mem_singleton.mp ho
            trivial
      · exact (server.exec_frame (hinside.mono fun _ hc => hc.1) s.world hkey).trans
          (h.frame key hkey)
  | subscription a =>
      obtain ⟨⟨pubsub, sent⟩, hmove, heq⟩ := Option.map_eq_some_iff.mp hstep
      simp only [Prod.mk.injEq] at heq
      obtain ⟨rfl, rfl⟩ := heq
      obtain ⟨hchannels, hnamed⟩ := @channelsInside_step T (service.pubSubDeps hasOnEvent) _ _ _ _
        h.channels h.subscriptions hmove
      refine ⟨fun o ho => ?_, h.frame, subscriptionInv_step h.subscriptions hmove, hchannels⟩
      rcases List.mem_append.mp ho with ho | ho
      · exact h.outputs o ho
      · obtain ⟨output, houtput, rfl⟩ := List.mem_map.mp ho
        cases output with
        | sent command => exact hnamed command houtput
        | _ => trivial
  | surroundings e =>
      simp only [namespaceMachine, Option.some.injEq, Prod.mk.injEq] at hstep
      obtain ⟨rfl, rfl⟩ := hstep
      rw [List.append_nil]
      exact ⟨h.outputs, h.frame, h.subscriptions, h.channels⟩

/-- **Lockstep.** A step does the same in worlds that agree in the
namespace. -/
theorem namespaceMachine_lockstep {world world' : E × (Text → W)} {s t s' : NamespaceState W E}
    {a : NamespaceAction T E} {out : List (NamespaceOutput T V)}
    (hrel : s.pubsub = t.pubsub ∧ AgreeOn service.keyBuilder.FlushRegion s.world t.world)
    (hstep : (namespaceMachine service server hasOnEvent world).step s a = some (s', out)) :
    ∃ t', (namespaceMachine service server hasOnEvent world').step t a = some (t', out) ∧
      s'.pubsub = t'.pubsub ∧ AgreeOn service.keyBuilder.FlushRegion s'.world t'.world := by
  obtain ⟨hpubsub, hagree⟩ := hrel
  cases a with
  | call connection c =>
      obtain ⟨htyped, rfl, rfl⟩ := namespaceMachine_call.mp hstep
      have hinside := call_inside (V := V) service connection htyped
      obtain ⟨hresult, hsent, hstate⟩ := server.exec_agree (hinside.mono fun _ hc => hc.1) hagree
      exact ⟨_, namespaceMachine_call.mpr ⟨htyped, rfl, by rw [hresult, hsent]⟩, hpubsub, hstate⟩
  | subscription a =>
      obtain ⟨⟨pubsub, sent⟩, hmove, heq⟩ := Option.map_eq_some_iff.mp hstep
      simp only [Prod.mk.injEq] at heq
      obtain ⟨rfl, rfl⟩ := heq
      refine ⟨{ t with pubsub }, ?_, rfl, hagree⟩
      simp only [namespaceMachine, ← hpubsub, hmove, Option.map_some]
  | surroundings e =>
      simp only [namespaceMachine, Option.some.injEq, Prod.mk.injEq] at hstep
      obtain ⟨rfl, rfl⟩ := hstep
      exact ⟨_, rfl, hpubsub, rfl, hagree.maps⟩

end Runs

/-- **The frame of a namespace.**  In every run of typed calls, publishes and
subscriptions, on any server that touches only the keys a command names:
everything sent names keys and channels that start with the namespace prefix;
every other key keeps its value and expiry; and from any world that differs in
other keys only, the same run sends and returns the same. -/
theorem namespace_framed {T V W E : Type} (service : CacheService T)
    (server : LocalServer ServiceCommand (ServiceReply V) Text W E ServiceCommand.footprint)
    (hasOnEvent : Bool) (world : E × (Text → W)) {actions : List (NamespaceAction T E)}
    {s : NamespaceState W E} {out : List (NamespaceOutput T V)}
    (hrun : (namespaceMachine service server hasOnEvent world).run actions = some (s, out)) :
    (∀ o ∈ out, o.InNamespace service.keyBuilder) ∧
    (∀ key, ¬ service.keyBuilder.FlushRegion key → s.world.2 key = world.2 key) ∧
    ∀ world', AgreeOn service.keyBuilder.FlushRegion world world' →
      ∃ s', (namespaceMachine service server hasOnEvent world').run actions = some (s', out) ∧
        AgreeOn service.keyBuilder.FlushRegion s.world s'.world := by
  have hinv : FrameInv service.keyBuilder world out s := by
    refine (namespaceMachine service server hasOnEvent world).run_induction
      (I := fun _ out s => FrameInv service.keyBuilder world out s) ?_
      (fun _ _ _ _ _ _ h hstep => h.step hstep) hrun
    refine ⟨by simp, fun _ _ => rfl, ?_, ?_⟩
    · exact @subscriptionInv_run T (service.pubSubDeps hasOnEvent) [] _ [] rfl
    · intro r hr
      cases hr
  refine ⟨hinv.outputs, hinv.frame, fun world' hagree => ?_⟩
  have hlockstep := @Machine.run_lockstep _ _ _ _ (namespaceMachine service server hasOnEvent world)
    (namespaceMachine service server hasOnEvent world') (fun s t => s.pubsub = t.pubsub ∧
      AgreeOn service.keyBuilder.FlushRegion s.world t.world) ⟨rfl, hagree⟩
  obtain ⟨s', hrun', -, hstate⟩ := hlockstep
    (fun _ _ _ _ _ hrel hstep => namespaceMachine_lockstep hrel hstep) hrun
  exact ⟨s', hrun', hstate⟩

/-- Two writes, a read, a subscription and a message, while time passes. -/
def namespaceActions : List (NamespaceAction Nat Nat) :=
  [.call (.connected .redis) (.mset "users".toList [("a".toList, 1), ("b".toList, 2)]),
    .surroundings 1000,
    .call (.connected .redis) (.mget "users".toList ["b".toList, "c".toList]),
    .subscription (.subscribe "news".toList),
    .call (.connected .redis) (.publish "news".toList 3)]

/-- A key of another application, about to expire. -/
def foreignStore : RedisStore :=
  Function.update (fun _ => none) "other:x".toList (some ⟨.string "1".toList, some 1500⟩)

/-- The key of the other application is what it was. -/
theorem namespace_framed_foreign :
    ∃ s out, (namespaceMachine numberService redisServer true (0, foreignStore)).run
        namespaceActions = some (s, out) ∧
      (∀ o ∈ out, o.InNamespace numberService.keyBuilder) ∧
      s.world.2 "other:x".toList = some ⟨.string "1".toList, some 1500⟩ := by
  have hsome : ((namespaceMachine numberService redisServer true (0, foreignStore)).run
      namespaceActions).isSome = true := rfl
  obtain ⟨⟨s, out⟩, hrun⟩ := Option.isSome_iff_exists.mp hsome
  obtain ⟨hnamed, hkept, -⟩ :=
    namespace_framed numberService redisServer true (0, foreignStore) hrun
  have hforeign : foreignStore "other:x".toList = some ⟨.string "1".toList, some 1500⟩ :=
    Function.update_self _ _ _
  exact ⟨s, out, hrun, hnamed, (hkept "other:x".toList (by decide)).trans hforeign⟩

end NestCache
