import NestCache.ConnectionReadiness
import NestCache.LifecycleInvariant

/-!
# What the consumer is told

The manager announces a forced teardown and then disconnects its client, while
the Pub/Sub service disconnects without a word.  What there is to tell is counted
here by the disconnects themselves and by the roles of the clients, so that it
does not depend on the announcements.

* `lifecycleStep_teardown` — the pieces of the services that disconnect, and the
  clients that they disconnect;
* `events_forwarded` — `onEvent` is called once for every event of every client
  and for every disconnect of the main client, in their order.
-/

namespace NestCache

/-- A forced teardown, where the main client is disconnected. -/
def disconnectedMain (options : ResolvedOptions) (roles : Nat → Option ClientRole) :
    LifecycleEvent → Option (CacheEventName × Details)
  | .disconnected client =>
      if roles client = some .main then
        some (.error, forcedDisconnectData options.shutdownTimeoutMs)
      else none
  | _ => none

/-- The piece of a service that is shown. -/
def ConnectionEvent.lifecycle? : ConnectionEvent → Option LifecycleEvent
  | lifecycle e => some e
  | _ => none

/-! ## Pieces that disconnect -/

/-- Part of a forced teardown. -/
def LifecycleEvent.isTeardown : LifecycleEvent → Bool
  | forcedDisconnect _ | disconnected _ => true
  | _ => false

/-- Settling a `quit()` is no part of a forced teardown. -/
theorem isTeardown_quitEvents {client : Nat} {ok : Bool} {e : LifecycleEvent}
    (he : e ∈ quitEvents client ok) : e.isTeardown = false := by
  cases ok with
  | true =>
      obtain rfl := List.mem_singleton.mp he
      rfl
  | false => cases he

/-- **Who disconnects.** A piece of a service tears nothing down, or it is the
end of a hook that lost its race: the manager announces that it disconnects
its client, the Pub/Sub service only disconnects its own. -/
theorem lifecycleStep_teardown {options : ResolvedOptions} {s life : Lifecycle}
    {a : LifecycleAction} {happened : List LifecycleEvent}
    (h : lifecycleStep options s a = some (life, happened)) :
    (∀ e ∈ happened, e.isTeardown = false) ∨
    (∃ call ∈ s.managerCalls, ∃ client, call.client = some client ∧
      happened = [.forcedDisconnect options.shutdownTimeoutMs, .disconnected client]) ∨
    ∃ call ∈ s.pubsubCalls, ∃ client, call.client = some client ∧
      happened = [.disconnected client] := by
  have hsub : ∀ name, ∀ e ∈ (s.subscribe (.ofOptions options) name).2, e.isTeardown = false := by
    intro name
    unfold Lifecycle.subscribe
    cases (KeyBuilder.ofOptions options).applyNamespace name with
    | error e => simp [LifecycleEvent.isTeardown]
    | ok full =>
        rcases s.ensureSubscriber_cases with ⟨c, -, heq⟩ | ⟨-, -, heq⟩ | ⟨-, -, -, heq⟩ <;>
          simp [heq, Lifecycle.finish, LifecycleEvent.isTeardown]
  have hmain : ∀ last : Nat → List LifecycleEvent, (∀ c, ∀ e ∈ last c, e.isTeardown = false) →
      ∀ e ∈ (s.finish last s.ensureClient).2, e.isTeardown = false := by
    intro last hlast
    rcases s.ensureClient_cases with ⟨c, -, heq⟩ | ⟨-, -, heq⟩ | ⟨-, -, heq⟩
    · simpa [heq, Lifecycle.finish] using hlast c
    · simp [heq, Lifecycle.finish, LifecycleEvent.isTeardown]
    · simpa [heq, Lifecycle.finish, LifecycleEvent.isTeardown] using hlast s.nextClient
  cases a with
  | onModuleInit =>
      have hpiece := hmain (fun _ => []) (by simp)
      rw [Option.some.inj h] at hpiece
      exact .inl hpiece
  | getClient =>
      have hpiece := hmain (fun c => [.returned c]) (by simp [LifecycleEvent.isTeardown])
      rw [Option.some.inj h] at hpiece
      exact .inl hpiece
  | subscribe name =>
      have hpiece := hsub name
      rw [Option.some.inj h] at hpiece
      exact .inl hpiece
  | psubscribe name =>
      have hpiece := hsub name
      rw [Option.some.inj h] at hpiece
      exact .inl hpiece
  | managerShutdown | pubsubShutdown =>
      cases h
      exact .inl (by simp)
  | managerQuit i ok | pubsubQuit i ok =>
      simp only [lifecycleStep] at h
      split at h <;> cases h
      exact .inl fun e he => isTeardown_quitEvents he
  | managerTimeout i =>
      simp only [lifecycleStep] at h
      split at h <;> cases h
      exact .inl (by simp)
  | managerResume i =>
      simp only [lifecycleStep] at h
      split at h
      · rename_i client settled ok hi
        cases h
        cases ok with
        | true => exact .inl (by simp)
        | false => exact .inr (.inl ⟨_, List.mem_of_getElem? hi, client, rfl, rfl⟩)
      · cases h
  | pubsubResume i =>
      simp only [lifecycleStep] at h
      split at h
      · rename_i client settled ok hi
        cases h
        cases ok with
        | true => exact .inl (by simp)
        | false => exact .inr (.inr ⟨_, List.mem_of_getElem? hi, client, rfl, rfl⟩)
      · cases h

/-! ## Announcements and disconnects -/

section Outputs

variable (options : ResolvedOptions) (events : Option OnEvent)

/-- Telling the consumer is no piece of a service. -/
theorem lifecycle?_emitEvent (event : CacheEventName) (data : Details) :
    (emitEvent events event data).filterMap (·.lifecycle?) = [] := by
  unfold emitEvent
  split
  · rfl
  · split <;> rfl

/-- The pieces of the services are shown as they are. -/
theorem lifecycle?_announce (happened : List LifecycleEvent) :
    (happened.flatMap (Connections.announce events)).filterMap (·.lifecycle?) = happened := by
  induction happened with
  | nil => rfl
  | cons e happened ih =>
      have hfirst : (Connections.announce events e).filterMap (·.lifecycle?) = [e] := by
        cases e with
        | forcedDisconnect ms =>
            exact congrArg (LifecycleEvent.forcedDisconnect ms :: ·)
              (lifecycle?_emitEvent events _ _)
        | _ => rfl
      rw [List.flatMap_cons, List.filterMap_append, hfirst, ih, List.singleton_append]

variable {options events}

/-- Outputs that show no piece of a service are told alike, and open
nothing. -/
theorem happenings_quiet (roles : Nat → Option ClientRole) {more : List ConnectionEvent}
    (hmore : more.filterMap (·.lifecycle?) = []) :
    happenings (disconnectedMain options) roles more = happenings announced roles more ∧
      rolesAfter roles more = roles := by
  induction more with
  | nil => exact ⟨rfl, rfl⟩
  | cons e more ih =>
      cases e with
      | lifecycle e => cases hmore
      | fired client event =>
          obtain ⟨htold, hroles⟩ := ih hmore
          exact ⟨congrArg _ htold, hroles⟩
      | told | waiting | settled => exact ih hmore

/-- Pieces that tear nothing down are told alike: not at all. -/
theorem happenings_gentle (roles : Nat → Option ClientRole) {happened : List LifecycleEvent}
    (h : ∀ e ∈ happened, e.isTeardown = false) :
    happenings (disconnectedMain options) roles (happened.flatMap (Connections.announce events)) =
      happenings announced roles (happened.flatMap (Connections.announce events)) := by
  induction happened generalizing roles with
  | nil => rfl
  | cons e happened ih =>
      obtain ⟨hfirst, hrest⟩ := List.forall_mem_cons.mp h
      cases e with
      | opened role client => exact ih _ hrest
      | forcedDisconnect ms => cases hfirst
      | disconnected client => cases hfirst
      | returned | threw | quitResolved => exact ih _ hrest

/-- An announced disconnect of the main client is told once. -/
theorem happenings_forced {roles : Nat → Option ClientRole} {client : Nat}
    (hrole : roles client = some .main) :
    happenings (disconnectedMain options) roles
        ([LifecycleEvent.forcedDisconnect options.shutdownTimeoutMs, .disconnected client].flatMap
          (Connections.announce events)) =
      happenings announced roles
        ([LifecycleEvent.forcedDisconnect options.shutdownTimeoutMs, .disconnected client].flatMap
          (Connections.announce events)) := by
  cases events with
  | none => simp [Connections.announce, emitEvent, happenings, disconnectedMain, announced, hrole]
  | some onEvent =>
      simp only [List.flatMap_cons, Connections.announce, emitEvent]
      split <;> simp [happenings, disconnectedMain, announced, hrole]

/-- A disconnect of a subscriber is not told. -/
theorem happenings_subscriber {roles : Nat → Option ClientRole} {client : Nat}
    (hrole : roles client = some .subscriber) :
    happenings (disconnectedMain options) roles
        ([LifecycleEvent.disconnected client].flatMap (Connections.announce events)) =
      happenings announced roles
        ([LifecycleEvent.disconnected client].flatMap (Connections.announce events)) := by
  simp [Connections.announce, happenings, disconnectedMain, announced, hrole]

end Outputs

/-! ## The invariant -/

/-- The services keep their invariant, the clients their roles, and what is
announced is what is disconnected. -/
structure TeardownInv (options : ResolvedOptions) (out : List ConnectionEvent)
    (s : Connections) : Prop where
  life : LifecycleInv (out.filterMap (·.lifecycle?)) s.life
  roles : ∀ role client, .opened role client ∈ out.filterMap (·.lifecycle?) →
    rolesAfter (fun _ => none) out client = some role
  told : happenings (disconnectedMain options) (fun _ => none) out =
    happenings announced (fun _ => none) out

namespace TeardownInv

variable {options : ResolvedOptions} {events : Option OnEvent} {out more : List ConnectionEvent}
  {s s' : Connections}

/-- Outputs of the clients and of the calls that wait. -/
theorem quiet (h : TeardownInv options out s) (hmore : more.filterMap (·.lifecycle?) = [])
    (hlife : s'.life = s.life) : TeardownInv options (out ++ more) s' := by
  obtain ⟨htold, hroles⟩ := happenings_quiet (rolesAfter (fun _ => none) out) hmore
  refine ⟨?_, fun role client hmem => ?_, ?_⟩
  · rw [List.filterMap_append, hmore, List.append_nil, hlife]
    exact h.life
  · rw [List.filterMap_append, hmore, List.append_nil] at hmem
    rw [rolesAfter_append, hroles]
    exact h.roles role client hmem
  · rw [happenings_append, happenings_append, h.told, htold]

/-- A piece of a service. The client that a forced teardown disconnects was
opened for the role of its service, so the roles tell which teardowns are
announced. -/
theorem adopt (h : TeardownInv options out s) {a : LifecycleAction} {life : Lifecycle}
    {happened : List LifecycleEvent}
    (hstep : lifecycleStep options s.life a = some (life, happened)) :
    TeardownInv options (out ++ (s.adopt events life happened).2)
      (s.adopt events life happened).1 := by
  simp only [Connections.adopt]
  have hshown : (out ++ happened.flatMap (Connections.announce events)).filterMap
      (·.lifecycle?) = out.filterMap (·.lifecycle?) ++ happened := by
    rw [List.filterMap_append, lifecycle?_announce]
  refine ⟨?_, fun role client hmem => ?_, ?_⟩
  · rw [hshown]
    exact lifecycleInv_step h.life hstep
  · rw [hshown, List.mem_append] at hmem
    rw [rolesAfter_append]
    rcases opens_lifecycleStep hstep with ⟨-, hquiet⟩ | ⟨role', rest, rfl, -, hquiet⟩
    · rw [rolesAfter_quiet _ hquiet]
      exact h.roles role client (hmem.resolve_right (hquiet role client))
    · have hroles : rolesAfter (rolesAfter (fun _ => none) out)
          ((LifecycleEvent.opened role' s.life.nextClient :: rest).flatMap
            (Connections.announce events)) = Function.update (rolesAfter (fun _ => none) out)
              s.life.nextClient (some role') := rolesAfter_quiet _ hquiet
      rw [hroles]
      rcases hmem with hmem | hmem
      · have hlt := h.life.fresh role client hmem
        rw [Function.update_of_ne (Nat.ne_of_lt hlt)]
        exact h.roles role client hmem
      · obtain ⟨rfl, rfl⟩ : role = role' ∧ client = s.life.nextClient := by
          simpa [hquiet] using hmem
        exact Function.update_self ..
  · rw [happenings_append, happenings_append, h.told]
    refine congrArg _ ?_
    rcases lifecycleStep_teardown hstep with
      hgentle | ⟨call, hcall, client, hclient, rfl⟩ | ⟨call, hcall, client, hclient, rfl⟩
    · exact happenings_gentle _ hgentle
    · exact happenings_forced
        (h.roles _ _ ((h.life.manager_calls call hcall).client client hclient))
    · exact happenings_subscriber
        (h.roles _ _ ((h.life.pubsub_calls call hcall).client client hclient))

/-- **`onModuleInit`** is the piece of the service, and shows how it is
waited. -/
theorem onModuleInit (h : TeardownInv options out s) :
    TeardownInv options (out ++ (s.onModuleInit options events).2)
      (s.onModuleInit options events).1 := by
  unfold Connections.onModuleInit
  cases heq : s.life.ensureClient with
  | error e =>
      have hstep : lifecycleStep options s.life .onModuleInit = some (s.life, [.threw e]) := by
        simp [lifecycleStep, heq, Lifecycle.finish]
      have hadopt := @adopt _ events _ _ h _ _ _ hstep
      have hquiet := @quiet _ _ [.settled s.inits.length (.error e)] _
        { s with inits := s.inits ++ [some (.error e)] } hadopt rfl rfl
      simpa [Connections.adopt, Connections.announce] using hquiet
  | ok p =>
      obtain ⟨life, client, happened⟩ := p
      have hstep : lifecycleStep options s.life .onModuleInit = some (life, happened) := by
        simp [lifecycleStep, heq, Lifecycle.finish]
      have hadopt := @adopt _ events _ _ h _ _ _ hstep
      simp only
      split
      · rw [← List.append_assoc]
        exact hadopt.quiet rfl rfl
      · rw [← List.append_assoc]
        unfold Connections.waitUntilReady
        split
        · exact hadopt.quiet rfl rfl
        · exact hadopt.quiet rfl rfl

end TeardownInv

/-- Settling a call shows no piece of a service. -/
theorem quiet_settle (call : Nat) (result : Except Thrown Unit) (s : Connections) :
    (s.settle call result).2.filterMap (·.lifecycle?) = [] ∧
      (s.settle call result).1.life = s.life := by
  unfold Connections.settle
  split <;> exact ⟨rfl, rfl⟩

/-- Calling a listener shows none. It settles calls, removes listeners and
tells the consumer, none of which concerns a service. -/
theorem quiet_callListener (events : Option OnEvent) (client : Nat) (event : SocketEvent)
    (r : ClientListener) (s : Connections) :
    (s.callListener events client event r).2.filterMap (·.lifecycle?) = [] ∧
      (s.callListener events client event r).1.life = s.life := by
  have hlife : (if r.once then s.drop r client else s).life = s.life := by
    split <;> rfl
  unfold Connections.callListener
  cases r.handler with
  | forward role => exact ⟨lifecycle?_emitEvent events _ _, hlife⟩
  | onReady call =>
      obtain ⟨hshown, hkept⟩ := quiet_settle call (.ok ())
        ((if r.once then s.drop r client else s).cleanup call client)
      exact ⟨hshown, hkept.trans hlife⟩
  | onError call =>
      obtain ⟨hshown, hkept⟩ := quiet_settle call (.error (connectionFailed event.message))
        ((if r.once then s.drop r client else s).cleanup call client)
      exact ⟨hshown, hkept.trans hlife⟩

/-- **Step lemma.** Every action keeps the invariant. Only a piece of a service
shows such events; an emission and its listeners leave the services alone. -/
theorem teardownInv_step {options : ResolvedOptions} {events : Option OnEvent}
    {out more : List ConnectionEvent} {s s' : Connections} {a : ConnectionAction}
    (h : TeardownInv options out s)
    (hstep : connectionStep options events s a = some (s', more)) :
    TeardownInv options (out ++ more) s' := by
  have hnext : ∀ {s s' : Connections} {more : List ConnectionEvent},
      s.next events = some (s', more) →
      more.filterMap (·.lifecycle?) = [] ∧ s'.life = s.life := by
    intro s s' more hnext
    unfold Connections.next at hnext
    split at hnext
    · next client event r rest hemitting =>
        have hquiet := quiet_callListener events client event r
          { s with emitting := if rest.isEmpty then none else some ⟨client, event, rest⟩ }
        rwa [Option.some.inj hnext] at hquiet
    · cases hnext
  cases a with
  | service a =>
      by_cases ha : a = .onModuleInit
      · subst ha
        cases hstep
      · rw [connectionStep_service options ha, Option.map_eq_some_iff] at hstep
        obtain ⟨⟨life, happened⟩, hpiece, heq⟩ := hstep
        obtain ⟨rfl, rfl⟩ := Prod.mk.inj heq
        exact h.adopt hpiece
  | onModuleInit =>
      obtain ⟨rfl, rfl⟩ := Prod.mk.inj (Option.some.inj hstep)
      exact h.onModuleInit
  | status client ready =>
      obtain ⟨rfl, rfl⟩ := Prod.mk.inj (Option.some.inj hstep)
      exact h.quiet rfl rfl
  | fire client event =>
      simp only [connectionStep] at hstep
      split at hstep
      · rw [Option.map_eq_some_iff] at hstep
        obtain ⟨⟨t, seen⟩, hfirst, heq⟩ := hstep
        obtain ⟨rfl, rfl⟩ := Prod.mk.inj heq
        obtain ⟨hquiet, hlife⟩ := hnext hfirst
        exact h.quiet hquiet hlife
      · cases hstep
  | next =>
      obtain ⟨hquiet, hlife⟩ := hnext hstep
      exact h.quiet hquiet hlife

/-- The invariant of every run. -/
theorem teardownInv_run {options : ResolvedOptions} {events : Option OnEvent}
    {as : List ConnectionAction} {s : Connections} {out : List ConnectionEvent}
    (h : (connectionMachine options events).run as = some (s, out)) :
    TeardownInv options out s := by
  refine (connectionMachine options events).run_induction
    (I := fun _ out s => TeardownInv options out s) ⟨?_, by simp, rfl⟩
    (fun _ _ _ _ _ _ hinv hstep => teardownInv_step hinv hstep) h
  constructor <;> simp [connectionMachine]

/-- **What the consumer is told.**  In every run `onEvent` is called once for
every event of every client and for every disconnect of the main client by the
manager, in their order and with the role the client was opened for; nothing it
throws changes that. -/
theorem events_forwarded (options : ResolvedOptions) (events : Option OnEvent)
    {as : List ConnectionAction} {s : Connections} {out : List ConnectionEvent}
    (hrun : (connectionMachine options events).run as = some (s, out)) :
    out.filterMap ConnectionEvent.told? =
      if events.isSome then happenings (disconnectedMain options) (fun _ => none) out
      else [] := by
  obtain ⟨pending, due, hinv⟩ := connectionInv_run hrun
  rw [hinv.told, (teardownInv_run hrun).told]

/-- Both errors and the teardown of a client that is refused and does
not quit. -/
theorem events_forwarded_twice :
    ∃ s out, (connectionMachine defaultOptions (some throwing)).run
        (refusedTwice ++ [.service .managerShutdown, .service (.managerTimeout 0),
          .service (.managerResume 0)]) = some (s, out) ∧
      out.filterMap ConnectionEvent.told? =
        [(.error, [detail "role" "main", detail "error" "connect ECONNREFUSED"]),
          (.ready, [detail "role" "main"]),
          (.error, forcedDisconnectData defaultOptions.shutdownTimeoutMs)] := by
  have hrun : (connectionMachine defaultOptions (some throwing)).run
      (refusedTwice ++ [.service .managerShutdown, .service (.managerTimeout 0),
        .service (.managerResume 0)]) = some (_, _) := rfl
  exact ⟨_, _, hrun, (events_forwarded defaultOptions (some throwing) hrun).trans rfl⟩

end NestCache
