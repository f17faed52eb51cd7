import NestCache.Broker
import NestCache.NamespaceRuns
import NestCache.PubSubDelivery

/-!
# Instances that share a server

Any number of instances of the library publish and subscribe through one
server.  An instance has its Pub/Sub service, whose subscriber connection the
server writes to, and a main client on which its PUBLISH commands wait to be
processed.  The actions are those of the services and of the broker: a command
of a subscriber connection may be carried out although its promise rejects, a
PUBLISH is processed once or lost, and a subscriber connection that breaks
loses what was written to it and comes back with any subscriptions.
-/

namespace NestCache

open Broker (Matching)

/-- A PUBLISH as the server receives it: the channel and the payload. -/
abbrev Publish := Text × Text

/-- Whether a subscription to this target receives a PUBLISH. -/
def Target.admits (t : Target) (m : Publish) : Bool :=
  match t.kind with
  | .channel => t.name = m.1
  | .pattern => Glob.stringmatchlen t.name m.1

/-- What the connection emits when it receives a PUBLISH. -/
def Target.event (t : Target) (m : Publish) : ServerEvent :=
  match t.kind with
  | .channel => .message t.name m.2
  | .pattern => .pmessage t.name m.1 m.2

/-- A server: it matches targets, and writes a PUBLISH that several targets of
one connection admit in an order of its own. -/
structure PubSubServer extends Matching Target Publish where
  admits_eq : admits = Target.admits

/-- The instances: their services, and whether they have an `onEvent`. -/
structure Instances (ι T : Type) where
  service : ι → CacheService T
  hasOnEvent : ι → Bool

/-- What the Pub/Sub service of an instance is constructed with. -/
def Instances.deps {ι T : Type} (instances : Instances ι T) (i : ι) : PubSubDeps T where
  keyBuilder := (instances.service i).keyBuilder
  deserialize := (instances.service i).serializer.deserialize
  hasOnEvent := instances.hasOnEvent i

/-- The PUBLISH that a dialogue begins with, or what it throws before. -/
def firstPublish {V α : Type} : ServiceDialogue V α → Except Thrown (Option Publish)
  | .send (.publish channel raw) _ => .ok (some (channel, raw.getD []))
  | .fail e => .error e
  | _ => .ok none

/-- A call of `publish` that sent its command. -/
structure Publication (ι T : Type) where
  publisher : ι
  channel : Text
  message : T
  sent : Publish

/-- The services and the server. -/
structure Network (ι : Type) where
  services : ι → PubSub := fun _ => {}
  broker : Broker.State ι ι Target Publish := {}

/-- What happens next. -/
inductive NetworkAction (ι T : Type)
  | publish (i : ι) (connection : ConnectionStatus) (channel : Text) (message : T)
  | lose (i : ι)
  | serve (i : ι)
  | service (i : ι) (a : PubSubAction)
  | answer (i : ι) (ok executed : Bool)
  | arrive (i : ι)
  | reconnect (i : ι) (subscriptions : List Target)

/-- What can be observed. -/
inductive NetworkEvent (ι T : Type)
  | published (p : Publication ι T)
  | refused (i : ι) (e : Thrown)
  | broker (e : Broker.Event ι ι Target Publish)
  | service (i : ι) (o : PubSubOutput T)

/-- The pieces of work that need neither the server nor the connection. -/
def PubSubAction.isLocal : PubSubAction → Bool
  | process _ | emit _ => false
  | _ => true

variable {ι T : Type} [DecidableEq ι]

namespace Network

/-- A piece of work of one service. -/
def serviceStep (instances : Instances ι T) (i : ι) (a : PubSubAction) (s : Network ι) :
    Option (Network ι × List (NetworkEvent ι T)) :=
  (pubSubStep (instances.deps i) (s.services i) a).map fun (service, out) =>
    ({ s with services := Function.update s.services i service }, out.map (.service i))

/-- A step of the broker. -/
def brokerStep (server : PubSubServer) (a : Broker.Action ι ι Target Publish) (s : Network ι) :
    Option (Network ι × List (NetworkEvent ι T)) :=
  (Broker.step server.toMatching s.broker a).map fun (broker, out) =>
    ({ s with broker }, out.map .broker)

/-- What a command of a subscriber connection does at the server. -/
def carryOut (i : ι) (command : SubscriberCommand) : Broker.Action ι ι Target Publish :=
  match command.kind with
  | .subscribe => .subscribe i command.target
  | .unsubscribe => .unsubscribe i command.target

/-- A call of `publish`, up to the command it sends. -/
def publish (instances : Instances ι T) (server : PubSubServer) (i : ι)
    (connection : ConnectionStatus) (channel : Text) (message : T) (s : Network ι) :
    Option (Network ι × List (NetworkEvent ι T)) :=
  match firstPublish (V := Unit)
      (((instances.service i).under connection).publish channel message) with
  | .ok (some m) =>
      (s.brokerStep server (.send i m)).map fun (s, out) =>
        (s, .published ⟨i, channel, message, m⟩ :: out)
  | .ok none => none
  | .error e => some (s, [.refused i e])

/-- The server processes the next command of a subscriber connection. -/
def answer (instances : Instances ι T) (server : PubSubServer) (i : ι) (ok executed : Bool)
    (s : Network ι) : Option (Network ι × List (NetworkEvent ι T)) := do
  let connection := (s.services i).connection
  let (s, out) ← s.serviceStep instances i (.process ok)
  if ok || executed then
    let (s, more) ← s.brokerStep server (carryOut i (connection.commands connection.processed))
    return (s, out ++ more)
  else return (s, out)

/-- The connection emits what it was written first. -/
def arrive (instances : Instances ι T) (server : PubSubServer) (i : ι) (s : Network ι) :
    Option (Network ι × List (NetworkEvent ι T)) :=
  match s.broker.inbox i with
  | [] => none
  | (t, m) :: _ => do
      let (s, out) ← s.brokerStep server (.receive i)
      let (s, more) ← s.serviceStep instances i (.emit (t.event m))
      return (s, out ++ more)

end Network

open Network in
/-- One step. -/
def networkStep (instances : Instances ι T) (server : PubSubServer) (s : Network ι) :
    NetworkAction ι T → Option (Network ι × List (NetworkEvent ι T))
  | .publish i connection channel message =>
      s.publish instances server i connection channel message
  | .lose i => s.brokerStep server (.lose i)
  | .serve i => s.brokerStep server (.serve i)
  | .service i a => if a.isLocal then s.serviceStep instances i a else none
  | .answer i ok executed => s.answer instances server i ok executed
  | .arrive i => s.arrive instances server i
  | .reconnect i subscriptions => s.brokerStep server (.reset i subscriptions)

/-- The instances and their server, from construction on. -/
def networkMachine (instances : Instances ι T) (server : PubSubServer) :
    Machine (Network ι) (NetworkAction ι T) (NetworkEvent ι T) where
  init := {}
  step := networkStep instances server

/-! ## What a run shows -/

/-- The call of `publish` that an event tells of. -/
def NetworkEvent.published? : NetworkEvent ι T → Option (Publication ι T)
  | published p => some p
  | _ => none

/-- The event of the broker. -/
def NetworkEvent.broker? : NetworkEvent ι T → Option (Broker.Event ι ι Target Publish)
  | broker e => some e
  | _ => none

/-- The output of the service of an instance. -/
def NetworkEvent.serviceOf? (i : ι) : NetworkEvent ι T → Option (PubSubOutput T)
  | service i' o => if i' = i then some o else none
  | _ => none

/-- The calls of `publish` that sent a command. -/
def publications (out : List (NetworkEvent ι T)) : List (Publication ι T) :=
  out.filterMap (·.published?)

/-- The broker's part of what a run shows. -/
def brokerEvents (out : List (NetworkEvent ι T)) : List (Broker.Event ι ι Target Publish) :=
  out.filterMap (·.broker?)

/-- A service's part of what a run shows. -/
def serviceOutputs (i : ι) (out : List (NetworkEvent ι T)) : List (PubSubOutput T) :=
  out.filterMap (·.serviceOf? i)

end NestCache
