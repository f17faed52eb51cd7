import NestCache.CacheClient
import NestCache.KeyBuilder
import NestCache.Machine
import NestCache.OptionValidation

/-!
# Opening and closing connections

The connection manager owns the main client, the Pub/Sub service the subscriber
client.  Both open lazily, both have their own shutdown flag and hook, and a
hook suspends while `quit()` is pending.  The machine takes one action per
synchronous piece of code: a call up to its first suspension, the settling of a
`quit()` or the firing of the timer, and the resumption of a suspended hook.
-/

namespace NestCache

/-- The roles a managed client can play. -/
inductive ClientRole
  | main
  | subscriber
  deriving DecidableEq

/-- One call of a shutdown hook: the client it is closing, how the `quit()` it
awaits (or the race it is part of) came out, and whether its promise has
resolved. -/
structure ShutdownCall where
  client : Option Nat
  quitSettled : Bool := false
  outcome : Option Bool := none
  resolved : Bool := false
  deriving DecidableEq

/-- The fields of both services, and the calls of their shutdown hooks.
Clients are numbered as they are opened. -/
structure Lifecycle where
  client : Option Nat := none
  managerDown : Bool := false
  subscriber : Option Nat := none
  pubsubDown : Bool := false
  nextClient : Nat := 0
  managerCalls : List ShutdownCall := []
  pubsubCalls : List ShutdownCall := []
  deriving DecidableEq

/-- What can be observed. -/
inductive LifecycleEvent
  | opened (role : ClientRole) (client : Nat)
  | returned (client : Nat)
  | threw (e : Thrown)
  | quitResolved (client : Nat)
  | forcedDisconnect (shutdownTimeoutMs : JsNumber)
  | disconnected (client : Nat)
  deriving DecidableEq

/-- The pieces of code that run without suspension. -/
inductive LifecycleAction
  | onModuleInit
  | getClient
  | subscribe (channel : Text)
  | psubscribe (pattern : Text)
  | managerShutdown
  | pubsubShutdown
  | managerQuit (call : Nat) (ok : Bool)
  | managerTimeout (call : Nat)
  | managerResume (call : Nat)
  | pubsubQuit (call : Nat) (ok : Bool)
  | pubsubResume (call : Nat)
  deriving DecidableEq

/-- The refusal to open a client once shutdown has begun. -/
def connectionLost : Thrown :=
  .cache ⟨.CONNECTION_LOST, some [detail "reason" "shutdown"]⟩

namespace Lifecycle

/-- A new client of the given role. -/
def create (role : ClientRole) (s : Lifecycle) : Lifecycle × Nat × List LifecycleEvent :=
  ({ s with nextClient := s.nextClient + 1 }, s.nextClient, [.opened role s.nextClient])

/-- Returns the main client, opening it on the first call. -/
def ensureClient (s : Lifecycle) : Except Thrown (Lifecycle × Nat × List LifecycleEvent) :=
  match s.client with
  | some client => .ok (s, client, [])
  | none =>
      if s.managerDown then .error connectionLost
      else
        let (created, client, events) := s.create .main
        .ok ({ created with client := some client }, client, events)

/-- Creates a dedicated connection for subscriber mode. -/
def createSubscriberClient (s : Lifecycle) :
    Except Thrown (Lifecycle × Nat × List LifecycleEvent) :=
  if s.managerDown then .error connectionLost else .ok (s.create .subscriber)

/-- Returns the subscriber connection, creating it on first use. -/
def ensureSubscriber (s : Lifecycle) : Except Thrown (Lifecycle × Nat × List LifecycleEvent) :=
  match s.subscriber with
  | some client => .ok (s, client, [])
  | none =>
      if s.pubsubDown then .error connectionLost
      else do
        let (created, client, events) ← s.createSubscriberClient
        return ({ created with subscriber := some client }, client, events)

/-- A call that either continues in a new state or throws in the old one. -/
def finish (s : Lifecycle) (last : Nat → List LifecycleEvent) :
    Except Thrown (Lifecycle × Nat × List LifecycleEvent) → Lifecycle × List LifecycleEvent
  | .ok (s', client, events) => (s', events ++ last client)
  | .error e => (s, [.threw e])

/-- The part of `subscribe` and `psubscribe` that concerns the connection: the
name is composed first, then the subscriber connection is obtained. -/
def subscribe (kb : KeyBuilder) (name : Text) (s : Lifecycle) :
    Lifecycle × List LifecycleEvent :=
  match kb.applyNamespace name with
  | .error e => (s, [.threw e])
  | .ok _ => s.finish (fun _ => []) s.ensureSubscriber

/-- The manager's hook up to its suspension: the client is kept in its
field. -/
def managerShutdown (s : Lifecycle) : Lifecycle :=
  { s with
    managerDown := true
    managerCalls := s.managerCalls ++ [{ client := s.client, resolved := s.client.isNone }] }

/-- The Pub/Sub hook up to its suspension: the client leaves its field. -/
def pubsubShutdown (s : Lifecycle) : Lifecycle :=
  { s with
    pubsubDown := true
    subscriber := none
    pubsubCalls := s.pubsubCalls ++
      [{ client := s.subscriber, resolved := s.subscriber.isNone }] }

end Lifecycle

/-- A `quit()` settles; the first of `quit()` and timer decides. -/
def ShutdownCall.quit (ok : Bool) (call : ShutdownCall) : ShutdownCall :=
  { call with quitSettled := true, outcome := call.outcome.or (some ok) }

/-- The timer fires first. -/
def ShutdownCall.timeout (call : ShutdownCall) : ShutdownCall :=
  { call with outcome := some false }

/-- The hook returns. -/
def ShutdownCall.return (call : ShutdownCall) : ShutdownCall :=
  { call with resolved := true }

/-- What settling a `quit()` shows. -/
def quitEvents (client : Nat) (ok : Bool) : List LifecycleEvent :=
  if ok then [.quitResolved client] else []

open Lifecycle in
/-- One synchronous piece of code. -/
def lifecycleStep (options : ResolvedOptions) (s : Lifecycle) :
    LifecycleAction → Option (Lifecycle × List LifecycleEvent)
  | .onModuleInit => some (s.finish (fun _ => []) s.ensureClient)
  | .getClient => some (s.finish (fun client => [.returned client]) s.ensureClient)
  | .subscribe channel => some (s.subscribe (.ofOptions options) channel)
  | .psubscribe pattern => some (s.subscribe (.ofOptions options) pattern)
  | .managerShutdown => some (s.managerShutdown, [])
  | .pubsubShutdown => some (s.pubsubShutdown, [])
  | .managerQuit i ok =>
      match s.managerCalls[i]? with
      | some ⟨some client, false, outcome, resolved⟩ =>
          some ({ s with managerCalls :=
              s.managerCalls.set i (.quit ok ⟨some client, false, outcome, resolved⟩) },
            quitEvents client ok)
      | _ => none
  | .managerTimeout i =>
      match s.managerCalls[i]? with
      | some ⟨some client, settled, none, false⟩ =>
          some ({ s with managerCalls :=
              s.managerCalls.set i (.timeout ⟨some client, settled, none, false⟩) }, [])
      | _ => none
  | .managerResume i =>
      match s.managerCalls[i]? with
      | some ⟨some client, settled, some ok, false⟩ =>
          some ({ s with
              client := none
              managerCalls :=
                s.managerCalls.set i (.return ⟨some client, settled, some ok, false⟩) },
            if ok then []
            else [.forcedDisconnect options.shutdownTimeoutMs, .disconnected client])
      | _ => none
  | .pubsubQuit i ok =>
      match s.pubsubCalls[i]? with
      | some ⟨some client, false, outcome, resolved⟩ =>
          some ({ s with pubsubCalls :=
              s.pubsubCalls.set i (.quit ok ⟨some client, false, outcome, resolved⟩) },
            quitEvents client ok)
      | _ => none
  | .pubsubResume i =>
      match s.pubsubCalls[i]? with
      | some ⟨some client, settled, some ok, false⟩ =>
          some ({ s with pubsubCalls :=
              s.pubsubCalls.set i (.return ⟨some client, settled, some ok, false⟩) },
            if ok then [] else [.disconnected client])
      | _ => none

/-- The two services from construction on. -/
def lifecycleMachine (options : ResolvedOptions) :
    Machine Lifecycle LifecycleAction LifecycleEvent where
  init := {}
  step := lifecycleStep options

/-! ## What one call does -/

namespace Lifecycle

/-- `ensureClient` returns the held client, refuses, or opens the first one.
The flag of the shutdown is looked at only where no client is held. -/
theorem ensureClient_cases (s : Lifecycle) :
    (∃ client, s.client = some client ∧ s.ensureClient = .ok (s, client, [])) ∨
    (s.client = none ∧ s.managerDown = true ∧ s.ensureClient = .error connectionLost) ∨
    (s.client = none ∧ s.managerDown = false ∧ s.ensureClient =
      .ok ({ s with nextClient := s.nextClient + 1, client := some s.nextClient }, s.nextClient,
        [.opened .main s.nextClient])) := by
  cases hc : s.client with
  | some client =>
      refine Or.inl ⟨client, rfl, ?_⟩
      simp [ensureClient, hc]
  | none =>
      cases hd : s.managerDown with
      | true =>
          refine Or.inr (Or.inl ⟨rfl, rfl, ?_⟩)
          simp [ensureClient, hc, hd]
      | false =>
          refine Or.inr (Or.inr ⟨rfl, rfl, ?_⟩)
          simp [ensureClient, hc, hd, create]

/-- `ensureSubscriber` returns the held client, refuses, or opens the
first one. -/
theorem ensureSubscriber_cases (s : Lifecycle) :
    (∃ client, s.subscriber = some client ∧ s.ensureSubscriber = .ok (s, client, [])) ∨
    (s.subscriber = none ∧ (s.managerDown = true ∨ s.pubsubDown = true) ∧
      s.ensureSubscriber = .error connectionLost) ∨
    (s.subscriber = none ∧ s.managerDown = false ∧ s.pubsubDown = false ∧ s.ensureSubscriber =
      .ok ({ s with nextClient := s.nextClient + 1, subscriber := some s.nextClient },
        s.nextClient, [.opened .subscriber s.nextClient])) := by
  cases hc : s.subscriber with
  | some client =>
      refine Or.inl ⟨client, rfl, ?_⟩
      simp [ensureSubscriber, hc]
  | none =>
      cases hp : s.pubsubDown with
      | true =>
          refine Or.inr (Or.inl ⟨rfl, Or.inr rfl, ?_⟩)
          simp [ensureSubscriber, hc, hp]
      | false =>
          cases hd : s.managerDown with
          | true =>
              refine Or.inr (Or.inl ⟨rfl, Or.inl rfl, ?_⟩)
              simp [ensureSubscriber, hc, hp, createSubscriberClient, hd, bind, Except.bind]
          | false =>
              refine Or.inr (Or.inr ⟨rfl, rfl, rfl, ?_⟩)
              simp [ensureSubscriber, hc, hp, createSubscriberClient, hd, create, bind,
                Except.bind, pure, Except.pure]

/-- Asking for the main client touches nothing but that client. -/
theorem finish_ensureClient_frame (s : Lifecycle) (last : Nat → List LifecycleEvent) :
    ∃ client nextClient, (s.finish last s.ensureClient).1 =
      { s with client := client, nextClient := nextClient } := by
  rcases s.ensureClient_cases with ⟨_, -, heq⟩ | ⟨-, -, heq⟩ | ⟨-, -, heq⟩
  · exact ⟨s.client, s.nextClient, by rw [heq]; rfl⟩
  · exact ⟨s.client, s.nextClient, by rw [heq]; rfl⟩
  · exact ⟨some s.nextClient, s.nextClient + 1, by rw [heq]; rfl⟩

/-- Subscribing touches nothing but the subscriber client. -/
theorem subscribe_frame (s : Lifecycle) (keyBuilder : KeyBuilder) (name : Text) :
    ∃ subscriber nextClient, (s.subscribe keyBuilder name).1 =
      { s with subscriber := subscriber, nextClient := nextClient } := by
  unfold subscribe
  cases keyBuilder.applyNamespace name with
  | error e => exact ⟨s.subscriber, s.nextClient, rfl⟩
  | ok full =>
      rcases s.ensureSubscriber_cases with ⟨_, -, heq⟩ | ⟨-, -, heq⟩ | ⟨-, -, -, heq⟩
      · exact ⟨s.subscriber, s.nextClient, by rw [heq]; rfl⟩
      · exact ⟨s.subscriber, s.nextClient, by rw [heq]; rfl⟩
      · exact ⟨some s.nextClient, s.nextClient + 1, by rw [heq]; rfl⟩

end Lifecycle

end NestCache
