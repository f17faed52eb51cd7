import NestCache.ConnectionLifecycle
import NestCache.Emitter

/-!
# Connection events

The connection manager listens to every client it opens and hands each event on
to the consumer's `onEvent`; `onModuleInit` waits for the main client with two
listeners of its own.  The machine extends the one of the lifecycle: an action
is a synchronous piece of a service, a change of a client's status, the begin of
an emission, or the call of its next listener.  `onEvent` runs inside the first
listener, so the services may be called before the next one.  The driver emits
from the event loop, never from inside another emission.
-/

namespace NestCache

open Emitter

/-- `CacheEventName`. -/
inductive CacheEventName
  | connect
  | ready
  | error
  | close
  | reconnecting
  | end_
  deriving DecidableEq

/-- An event of a client, with its argument. -/
inductive SocketEvent
  | connect
  | ready
  | error (message : Text)
  | close
  | reconnecting (delay : JsNumber)
  | end_
  deriving DecidableEq

namespace SocketEvent

/-- The name of an event. -/
def name : SocketEvent → CacheEventName
  | connect => .connect
  | ready => .ready
  | error _ => .error
  | close => .close
  | reconnecting _ => .reconnecting
  | end_ => .end_

/-- `err.message`. -/
def message : SocketEvent → Text
  | error message => message
  | _ => []

end SocketEvent

/-- The role as a text. -/
def ClientRole.text : ClientRole → String
  | main => "main"
  | subscriber => "subscriber"

/-- The data that is handed on with an event. -/
def SocketEvent.data (role : ClientRole) : SocketEvent → Details
  | error message => [detail "role" role.text, ("error", .text message)]
  | reconnecting delay => [detail "role" role.text, ("delay", .number delay)]
  | _ => [detail "role" role.text]

/-- The data of a forced teardown. -/
def forcedDisconnectData (shutdownTimeoutMs : JsNumber) : Details :=
  [detail "role" ClientRole.main.text, detail "reason" "forced_disconnect",
    ("shutdownTimeoutMs", .number shutdownTimeoutMs)]

/-- The functions the manager registers: one that hands on, and the two of a
call of `onModuleInit`. -/
inductive Handler
  | forward (role : ClientRole)
  | onReady (call : Nat)
  | onError (call : Nat)
  deriving DecidableEq

/-- A registered function of the manager. -/
abbrev ClientListener := Listener CacheEventName Handler

/-- An emission under way: the listeners it has still to call. -/
structure Emission where
  client : Nat
  event : SocketEvent
  rest : List ClientListener

/-- What can be observed. -/
inductive ConnectionEvent
  | lifecycle (e : LifecycleEvent)
  | fired (client : Nat) (event : SocketEvent)
  | told (event : CacheEventName) (data : Details)
  | waiting (call client : Nat)
  | settled (call : Nat) (result : Except Thrown Unit)

/-- What happens next. -/
inductive ConnectionAction
  | service (a : LifecycleAction)
  | onModuleInit
  | status (client : Nat) (ready : Bool)
  | fire (client : Nat) (event : SocketEvent)
  | next

/-- The consumer's `onEvent`, which may throw. -/
abbrev OnEvent := CacheEventName → Details → Except Reason Unit

/-- The services, the listeners of each client, whether its status is `ready`,
and the promises of the calls of `onModuleInit`: `none` while pending. -/
structure Connections where
  life : Lifecycle := {}
  listeners : Nat → List ClientListener := fun _ => []
  ready : Nat → Bool := fun _ => false
  emitting : Option Emission := none
  inits : List (Option (Except Thrown Unit)) := []

/-- Hands an event on; what the consumer throws is swallowed. -/
def emitEvent (events : Option OnEvent) (event : CacheEventName) (data : Details) :
    List ConnectionEvent :=
  match events with
  | none => []
  | some onEvent =>
      match onEvent event data with
      | .ok () => [.told event data]
      | .error _ => [.told event data]

/-- The listeners of a client of this role. -/
def registerListeners (role : ClientRole) : List ClientListener :=
  [{ event := .connect, handler := .forward role }, { event := .ready, handler := .forward role },
    { event := .error, handler := .forward role }, { event := .close, handler := .forward role },
    { event := .reconnecting, handler := .forward role },
    { event := .end_, handler := .forward role }]

/-- The two listeners of a call that waits. -/
def waitListeners (call : Nat) : List ClientListener :=
  [{ event := .ready, handler := .onReady call, once := true },
    { event := .error, handler := .onError call, once := true }]

/-- The refusal of a connection that reports an error first. -/
def connectionFailed (message : Text) : Thrown :=
  .cache ⟨.CONNECTION_FAILED, some [("error", .text message)]⟩

namespace Connections

/-- `cleanup`. -/
def cleanup (call client : Nat) (s : Connections) : Connections :=
  { s with
    listeners := Function.update s.listeners client
      (off .error (.onError call) (off .ready (.onReady call) (s.listeners client))) }

/-- Settles the promise of a call, unless it is settled. -/
def settle (call : Nat) (result : Except Thrown Unit) (s : Connections) :
    Connections × List ConnectionEvent :=
  match s.inits[call]? with
  | some none => ({ s with inits := s.inits.set call (some result) }, [.settled call result])
  | _ => (s, [])

/-- Drops a listener from its client. -/
def drop (r : ClientListener) (client : Nat) (s : Connections) : Connections :=
  { s with
    listeners := Function.update s.listeners client
      (off r.event r.handler (s.listeners client)) }

/-- Calls a listener; one added with `once` is dropped first. -/
def callListener (events : Option OnEvent) (client : Nat) (event : SocketEvent)
    (r : ClientListener) (s : Connections) : Connections × List ConnectionEvent :=
  let s := if r.once then s.drop r client else s
  match r.handler with
  | .forward role => (s, emitEvent events event.name (event.data role))
  | .onReady call => (s.cleanup call client).settle call (.ok ())
  | .onError call =>
      (s.cleanup call client).settle call (.error (connectionFailed event.message))

/-- Calls the next listener of the emission. -/
def next (events : Option OnEvent) (s : Connections) :
    Option (Connections × List ConnectionEvent) :=
  match s.emitting with
  | some ⟨client, event, r :: rest⟩ =>
      some (callListener events client event r
        { s with emitting := if rest.isEmpty then none else some ⟨client, event, rest⟩ })
  | _ => none

/-- The listeners of the clients that were opened. -/
def register (listeners : Nat → List ClientListener) : LifecycleEvent → Nat → List ClientListener
  | .opened role client =>
      Function.update listeners client (listeners client ++ registerListeners role)
  | _ => listeners

/-- What a piece of a service shows. -/
def announce (events : Option OnEvent) (e : LifecycleEvent) : List ConnectionEvent :=
  .lifecycle e :: match e with
    | .forcedDisconnect shutdownTimeoutMs =>
        emitEvent events .error (forcedDisconnectData shutdownTimeoutMs)
    | _ => []

/-- The services after a piece that showed these events. -/
def adopt (events : Option OnEvent) (life : Lifecycle) (happened : List LifecycleEvent)
    (s : Connections) : Connections × List ConnectionEvent :=
  ({ s with life, listeners := happened.foldl register s.listeners },
    happened.flatMap (announce events))

/-- Waits for a client that is not ready yet. -/
def waitUntilReady (client : Nat) (s : Connections) : Connections × List ConnectionEvent :=
  let call := s.inits.length
  if s.ready client then
    ({ s with inits := s.inits ++ [some (.ok ())] }, [.settled call (.ok ())])
  else
    ({ s with
      listeners := Function.update s.listeners client (s.listeners client ++ waitListeners call)
      inits := s.inits ++ [none] }, [.waiting call client])

/-- `onModuleInit` up to its suspension. -/
def onModuleInit (options : ResolvedOptions) (events : Option OnEvent) (s : Connections) :
    Connections × List ConnectionEvent :=
  match s.life.ensureClient with
  | .error e => ({ s with inits := s.inits ++ [some (.error e)] },
      [.lifecycle (.threw e), .settled s.inits.length (.error e)])
  | .ok (life, client, happened) =>
      let (s, seen) := s.adopt events life happened
      if (options.connection.bind (·.lazyConnect)).getD false then
        ({ s with inits := s.inits ++ [some (.ok ())] },
          seen ++ [.settled s.inits.length (.ok ())])
      else
        let (s, more) := s.waitUntilReady client
        (s, seen ++ more)

end Connections

open Connections in
/-- One piece of code that runs without suspension, or a call of a listener. -/
def connectionStep (options : ResolvedOptions) (events : Option OnEvent) (s : Connections) :
    ConnectionAction → Option (Connections × List ConnectionEvent)
  | .service .onModuleInit => none
  | .service a => (lifecycleStep options s.life a).map fun (life, happened) =>
      s.adopt events life happened
  | .onModuleInit => some (s.onModuleInit options events)
  | .status client ready => some ({ s with ready := Function.update s.ready client ready }, [])
  | .fire client event =>
      if s.emitting.isNone && client < s.life.nextClient then
        let firing : Emission := ⟨client, event, called event.name (s.listeners client)⟩
        ({ s with emitting := some firing }.next events).map fun (s, seen) =>
          (s, .fired client event :: seen)
      else none
  | .next => s.next events

/-- The services and their clients from construction on. -/
def connectionMachine (options : ResolvedOptions) (events : Option OnEvent) :
    Machine Connections ConnectionAction ConnectionEvent where
  init := {}
  step := connectionStep options events

end NestCache
