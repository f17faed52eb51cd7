import NestCache.KeyBuilder
import NestCache.Machine
import Mathlib.Logic.Function.Basic

/-!
# The Pub/Sub service

The service, its subscriber connection and the event loop they run on, from
construction to shutdown.  Promise jobs are queued and run first in, first out.
One action is one synchronous piece of work:

* consumer code calls `subscribe`, `psubscribe` or an `Unsubscribe` function;
* the server processes the next command, or a reply settles its promise;
* the connection emits a `message` or `pmessage` event;
* the oldest promise job runs; a handler it started is `running` until it ends.

A `SubscriptionRef` is named by the number of the command whose promise is its
`ready`, a caller by the number of its `subscribe` or `psubscribe` call.
-/

namespace NestCache

/-! ## The connection -/

/-- Channels and patterns are counted apart. -/
inductive TargetKind
  | channel
  | pattern
  deriving DecidableEq

/-- A full namespaced channel or pattern. -/
structure Target where
  kind : TargetKind
  name : Text
  deriving DecidableEq

/-- (P)SUBSCRIBE or (P)UNSUBSCRIBE. -/
inductive CommandKind
  | subscribe
  | unsubscribe
  deriving DecidableEq

/-- A command of the subscriber connection. -/
structure SubscriberCommand where
  kind : CommandKind
  target : Target
  deriving DecidableEq

/-- What the connection emits: `'message'` or `'pmessage'`. -/
inductive ServerEvent
  | message (channel raw : Text)
  | pmessage (pattern channel raw : Text)
  deriving DecidableEq

namespace ServerEvent

/-- What a listener compares with its full channel or pattern. -/
def target : ServerEvent → Target
  | message channel _ => ⟨.channel, channel⟩
  | pmessage pattern _ _ => ⟨.pattern, pattern⟩

/-- The channel the message arrived on. -/
def channel : ServerEvent → Text
  | message channel _ => channel
  | pmessage _ channel _ => channel

/-- The payload as received. -/
def raw : ServerEvent → Text
  | message _ raw => raw
  | pmessage _ _ raw => raw

end ServerEvent

/-- The promise jobs of the service. -/
inductive Job
  /-- The reaction of `created.ready.catch`. -/
  | dropEntry (ref : Nat)
  /-- `retainSubscription` goes on after `await ref.ready`. -/
  | resumeRetain (caller ref : Nat)
  /-- `subscribe` goes on after `await this.retainSubscription(…)`. -/
  | resumeSubscribe (caller ref : Nat)
  /-- `releaseSubscription` goes on after `await unsubscribe()`. -/
  | resumeRelease (caller command : Nat)
  /-- The `Unsubscribe` function goes on after `await release()`. -/
  | resumeUnsubscribe (caller : Nat) (ok : Bool)
  /-- Code that awaits a call of the `Unsubscribe` function goes on. -/
  | resumeAwait (caller : Nat)
  /-- The first reaction of a listener: decode and call the handler. -/
  | deliver (caller : Nat) (event : ServerEvent)
  /-- The second reaction of a listener: its `catch`. -/
  | report (channel : Text) (error : Thrown)
  deriving DecidableEq

/-- The subscriber connection: the commands sent so far, how many of them the
server has processed and what it answered, and the reactions registered on
their promises. -/
structure SubscriberConnection where
  commands : Nat → SubscriberCommand := fun _ => ⟨.subscribe, ⟨.channel, []⟩⟩
  sent : Nat := 0
  processed : Nat := 0
  accepted : Nat → Bool := fun _ => false
  settled : Nat → Bool := fun _ => false
  reactions : Nat → List Job := fun _ => []

namespace SubscriberConnection

/-- Send a command whose promise has the given reactions. -/
def send (n : SubscriberConnection) (command : SubscriberCommand) (jobs : List Job) :
    SubscriberConnection :=
  { n with
    commands := Function.update n.commands n.sent command
    sent := n.sent + 1
    reactions := Function.update n.reactions n.sent jobs }

/-- Register one more reaction on the promise of a command. -/
def react (n : SubscriberConnection) (command : Nat) (job : Job) : SubscriberConnection :=
  { n with reactions := Function.update n.reactions command (n.reactions command ++ [job]) }

/-- The server processes the next command. -/
def process (n : SubscriberConnection) (ok : Bool) : SubscriberConnection :=
  { n with accepted := Function.update n.accepted n.processed ok, processed := n.processed + 1 }

/-- The promise of a command settles. -/
def settle (n : SubscriberConnection) (command : Nat) : SubscriberConnection :=
  { n with settled := Function.update n.settled command true }

end SubscriberConnection

/-! ## The service -/

/-- How far a `subscribe` or `psubscribe` call has come. -/
inductive CallerPhase
  | waiting
  | listening
  | rejected
  deriving DecidableEq

/-- A call that joined a subscription, with the `released` variable of the
`Unsubscribe` function it returns. -/
structure Caller where
  target : Target
  ref : Nat
  phase : CallerPhase := .waiting
  released : Bool := false
  deriving DecidableEq

/-- The fields of the service.  `refs` is `channelRefs` and `patternRefs`, and
`count` the counter of each `SubscriptionRef`. -/
structure Service where
  refs : Target → Option Nat := fun _ => none
  count : Nat → Int := fun _ => 0
  callers : Nat → Caller := fun _ => ⟨⟨.channel, []⟩, 0, .waiting, false⟩
  callerCount : Nat := 0

namespace Service

/-- `refs.set(target, created)` with `created.count` zero. -/
def setRef (v : Service) (target : Target) (ref : Nat) : Service :=
  { v with
    refs := Function.update v.refs target (some ref)
    count := Function.update v.count ref 0 }

/-- `refs.delete(target)`. -/
def deleteRef (v : Service) (target : Target) : Service :=
  { v with refs := Function.update v.refs target none }

/-- `ref.count += 1` for a new caller. -/
def addCaller (v : Service) (target : Target) (ref : Nat) : Service :=
  { v with
    count := Function.update v.count ref (v.count ref + 1)
    callers := Function.update v.callers v.callerCount { target, ref }
    callerCount := v.callerCount + 1 }

/-- The caller's call goes on. -/
def setPhase (v : Service) (caller : Nat) (phase : CallerPhase) : Service :=
  { v with callers := Function.update v.callers caller { v.callers caller with phase } }

/-- `released = true` and `ref.count -= 1`. -/
def release (v : Service) (caller : Nat) : Service :=
  { v with
    count := Function.update v.count (v.callers caller).ref (v.count (v.callers caller).ref - 1)
    callers := Function.update v.callers caller { v.callers caller with released := true } }

end Service

/-- The service with its connection and the event loop.  `listeners` are the
callers whose listener is attached, in the order of the `on` calls; `deferred`
are the deliveries whose handler returned a promise that is still pending. -/
structure PubSub where
  service : Service := {}
  connection : SubscriberConnection := {}
  listeners : List Nat := []
  queue : List Job := []
  running : Option (Nat × ServerEvent) := none
  deferred : List (Nat × ServerEvent) := []

/-- What a handler does: it returns a plain value or a promise, or throws. -/
inductive HandlerOutcome
  | returns
  | returnsPromise
  | throws (error : Thrown)
  deriving DecidableEq

/-- The synchronous pieces of work.  A `microtask` says how the consumer's
`onEvent` ends, should it be called. -/
inductive PubSubAction
  | subscribe (channel : Text)
  | psubscribe (pattern : Text)
  | unsubscribe (caller : Nat)
  | process (ok : Bool)
  | settle (command : Nat)
  | emit (event : ServerEvent)
  | microtask (onEvent : Except Thrown Unit)
  | finish (outcome : HandlerOutcome)
  | promiseSettles (index : Nat) (rejection : Option Thrown)

/-- What can be observed. -/
inductive PubSubOutput (M : Type)
  | threw (e : Thrown)
  | sent (command : SubscriberCommand)
  | subscribed (caller : Nat) (target : Target)
  | rejected (caller : Nat)
  | detached (caller : Nat)
  | unsubscribeSettled (caller : Nat) (first ok : Bool)
  | unsubscribeObserved (caller : Nat)
  | emitted (event : ServerEvent)
  | started (caller : Nat) (event : ServerEvent) (message : M)
  | undecodable (caller : Nat) (event : ServerEvent) (error : Thrown)
  | handlerThrew (caller : Nat) (event : ServerEvent) (error : Thrown)
  | handlerRejected (caller : Nat) (event : ServerEvent) (error : Thrown)
  | onEvent (name : Text) (data : Details)
  | escaped (e : Thrown)
  deriving DecidableEq

/-- What the service is constructed with. -/
structure PubSubDeps (M : Type) where
  keyBuilder : KeyBuilder
  deserialize : Text → Except Thrown M
  hasOnEvent : Bool

/-- The data of the event that reports a handler or decoding failure. -/
def handlerErrorData (channel : Text) (error : Thrown) : Details :=
  [detail "role" "subscriber", detail "reason" "handler_error", ("channel", .text channel),
    ("error", .text (describeError error.reason))]

/-- Forwards a failure to the observability callback, swallowing its throw. -/
def emitHandlerError {M : Type} (deps : PubSubDeps M) (onEvent : Except Thrown Unit)
    (channel : Text) (error : Thrown) : List (PubSubOutput M) × Except Thrown Unit :=
  if deps.hasOnEvent then
    ([.onEvent "error".toList (handlerErrorData channel error)],
      tryCatch onEvent fun _ => .ok ())
  else ([], .ok ())

/-- The report returns, however `onEvent` ends. -/
theorem emitHandlerError_eq {M : Type} (deps : PubSubDeps M) (onEvent : Except Thrown Unit)
    (channel : Text) (error : Thrown) :
    emitHandlerError deps onEvent channel error =
      (if deps.hasOnEvent then [.onEvent "error".toList (handlerErrorData channel error)] else [],
        .ok ()) := by
  unfold emitHandlerError
  cases deps.hasOnEvent <;> cases onEvent <;> rfl

namespace PubSub

variable {M : Type}

/-- Queue a promise job. -/
def enqueue (s : PubSub) (job : Job) : PubSub :=
  { s with queue := s.queue ++ [job] }

/-- Await the promise of a command. -/
def await (s : PubSub) (command : Nat) (job : Job) : PubSub :=
  if s.connection.settled command then s.enqueue job
  else { s with connection := s.connection.react command job }

/-- The first half of `retainSubscription`: the entry of a target, made by
sending SUBSCRIBE when there is none. -/
def ensureRef (s : PubSub) (target : Target) : PubSub × Nat × List (PubSubOutput M) :=
  match s.service.refs target with
  | some ref => (s, ref, [])
  | none =>
      let created := s.connection.sent
      ({ s with
          service := s.service.setRef target created
          connection := s.connection.send ⟨.subscribe, target⟩ [.dropEntry created] },
        created, [.sent ⟨.subscribe, target⟩])

/-- The second half: the caller counts from now on, and awaits `ready`. -/
def joinRef (s : PubSub) (target : Target) (ref : Nat) : PubSub :=
  ({ s with service := s.service.addCaller target ref } : PubSub).await ref
    (.resumeRetain s.service.callerCount ref)

/-- `subscribe` and `psubscribe` up to their suspension. -/
def subscribeTo (deps : PubSubDeps M) (kind : TargetKind) (name : Text) (s : PubSub) :
    PubSub × List (PubSubOutput M) :=
  match deps.keyBuilder.applyNamespace name with
  | .error e => (s, [.threw e])
  | .ok fullName =>
      let (ready, ref, out) := s.ensureRef ⟨kind, fullName⟩
      (ready.joinRef ⟨kind, fullName⟩ ref, out)

def subscribe (deps : PubSubDeps M) (channel : Text) := subscribeTo deps .channel channel

def psubscribe (deps : PubSubDeps M) (pattern : Text) := subscribeTo deps .pattern pattern

/-- The rest of `subscribe`: the listener is attached, or the call rejects. -/
def resumeSubscribe (s : PubSub) (caller ref : Nat) : PubSub × List (PubSubOutput M) :=
  if s.connection.accepted ref then
    ({ s with
        service := s.service.setPhase caller .listening
        listeners := s.listeners ++ [caller] },
      [.subscribed caller (s.service.callers caller).target])
  else ({ s with service := s.service.setPhase caller .rejected }, [.rejected caller])

/-- The first half of the first `Unsubscribe` call: the listener is detached
and the caller stops counting. -/
def detach (s : PubSub) (caller : Nat) : PubSub :=
  { s with service := s.service.release caller, listeners := s.listeners.erase caller }

/-- The second half: the entry goes with its last caller. -/
def releaseSubscription (s : PubSub) (caller : Nat) : PubSub × List (PubSubOutput M) :=
  let { target, ref, .. } := s.service.callers caller
  if s.service.count ref = 0 then
    let command := s.connection.sent
    ({ s with
        service := s.service.deleteRef target
        connection :=
          s.connection.send ⟨.unsubscribe, target⟩ [.resumeRelease caller command] },
      [.sent ⟨.unsubscribe, target⟩])
  else (s.enqueue (.resumeUnsubscribe caller true), [])

/-- One call of the `Unsubscribe` function, up to its suspension. -/
def unsubscribe (s : PubSub) (caller : Nat) : PubSub × List (PubSubOutput M) :=
  if (s.service.callers caller).released then
    (s.enqueue (.resumeAwait caller), [.unsubscribeSettled caller false true])
  else
    let (released, out) := (s.detach caller).releaseSubscription caller
    (released, .detached caller :: out)

/-- The listeners of an event each queue their reaction. -/
def emit (s : PubSub) (event : ServerEvent) : PubSub :=
  { s with queue := s.queue ++ (s.listeners.filter fun caller =>
      (s.service.callers caller).target = event.target).map (Job.deliver · event) }

/-- The first reaction of a listener. -/
def deliver (deps : PubSubDeps M) (s : PubSub) (caller : Nat) (event : ServerEvent) :
    PubSub × List (PubSubOutput M) :=
  match deps.deserialize event.raw with
  | .error error =>
      (s.enqueue (.report event.channel error), [.undecodable caller event error])
  | .ok message => ({ s with running := some (caller, event) }, [.started caller event message])

/-- The second reaction of a listener. -/
def report (deps : PubSubDeps M) (onEvent : Except Thrown Unit) (s : PubSub) (channel : Text)
    (error : Thrown) : PubSub × List (PubSubOutput M) :=
  match emitHandlerError deps onEvent channel error with
  | (out, .ok ()) => (s, out)
  | (out, .error e) => (s, out ++ [.escaped e])

/-- A report reaches the consumer if there is one, and leaves the service as
it is, whether the consumer throws or not. -/
theorem report_eq (deps : PubSubDeps M) (onEvent : Except Thrown Unit) (s : PubSub)
    (channel : Text) (error : Thrown) :
    s.report deps onEvent channel error = (s, if deps.hasOnEvent then
      [.onEvent "error".toList (handlerErrorData channel error)] else []) := by
  rw [report, emitHandlerError_eq]

/-- A promise job. -/
def runJob (deps : PubSubDeps M) (onEvent : Except Thrown Unit) (s : PubSub) :
    Job → PubSub × List (PubSubOutput M)
  | .dropEntry ref =>
      -- a `catch` passes a resolution through
      if s.connection.accepted ref then (s, [])
      else
        ({ s with service := s.service.deleteRef (s.connection.commands ref).target }, [])
  | .resumeRetain caller ref => (s.enqueue (.resumeSubscribe caller ref), [])
  | .resumeSubscribe caller ref => s.resumeSubscribe caller ref
  | .resumeRelease caller command =>
      (s.enqueue (.resumeUnsubscribe caller (s.connection.accepted command)), [])
  | .resumeUnsubscribe caller ok =>
      (s.enqueue (.resumeAwait caller), [.unsubscribeSettled caller true ok])
  | .resumeAwait caller => (s, [.unsubscribeObserved caller])
  | .deliver caller event => s.deliver deps caller event
  | .report channel error => s.report deps onEvent channel error

/-- The running handler ends. -/
def finish (s : PubSub) (caller : Nat) (event : ServerEvent) :
    HandlerOutcome → PubSub × List (PubSubOutput M)
  | .returns => ({ s with running := none }, [])
  | .returnsPromise =>
      ({ s with running := none, deferred := s.deferred ++ [(caller, event)] }, [])
  | .throws error =>
      (({ s with running := none } : PubSub).enqueue (.report event.channel error),
        [.handlerThrew caller event error])

/-- The promise a handler returned settles. -/
def promiseSettles (s : PubSub) (index caller : Nat) (event : ServerEvent) :
    Option Thrown → PubSub × List (PubSubOutput M)
  | none => ({ s with deferred := s.deferred.eraseIdx index }, [])
  | some error =>
      (({ s with deferred := s.deferred.eraseIdx index } : PubSub).enqueue
          (.report event.channel error),
        [.handlerRejected caller event error])

end PubSub

open PubSub in
/-- One synchronous piece of work.  Replies, events and promise jobs wait until
a running handler has ended; an `Unsubscribe` function exists once its
`subscribe` call has resolved. -/
def pubSubStep {M : Type} (deps : PubSubDeps M) (s : PubSub) :
    PubSubAction → Option (PubSub × List (PubSubOutput M))
  | .subscribe channel => some (s.subscribe deps channel)
  | .psubscribe pattern => some (s.psubscribe deps pattern)
  | .unsubscribe caller =>
      if (s.service.callers caller).phase = .listening then some (s.unsubscribe caller) else none
  | .process ok =>
      if s.connection.processed < s.connection.sent then
        some ({ s with connection := s.connection.process ok }, [])
      else none
  | .settle command =>
      if s.running.isNone ∧ command < s.connection.processed ∧
          s.connection.settled command = false then
        some ({ s with
          connection := s.connection.settle command
          queue := s.queue ++ s.connection.reactions command }, [])
      else none
  | .emit event => if s.running.isNone then some (s.emit event, [.emitted event]) else none
  | .microtask onEvent =>
      match s.running, s.queue with
      | none, job :: rest => some (({ s with queue := rest } : PubSub).runJob deps onEvent job)
      | _, _ => none
  | .finish outcome =>
      match s.running with
      | some (caller, event) => some (s.finish caller event outcome)
      | none => none
  | .promiseSettles index rejection =>
      match s.deferred[index]? with
      | some (caller, event) => some (s.promiseSettles index caller event rejection)
      | none => none

/-- The service from construction on. -/
def pubSubMachine {M : Type} (deps : PubSubDeps M) :
    Machine PubSub PubSubAction (PubSubOutput M) where
  init := {}
  step := pubSubStep deps

/-! ## What a step can be -/

/-- The call that joins a target of the given kind. -/
def TargetKind.join : TargetKind → Text → PubSubAction
  | channel => .subscribe
  | pattern => .psubscribe

/-- The pieces of work with what they need. -/
inductive PubSubMoves {M : Type} (deps : PubSubDeps M) (s : PubSub) :
    PubSubAction → PubSub → List (PubSubOutput M) → Prop
  | join (kind : TargetKind) (name : Text) :
      PubSubMoves deps s (kind.join name) (s.subscribeTo deps kind name).1
        (s.subscribeTo deps kind name).2
  | unsubscribe (c : Nat) (hlistening : (s.service.callers c).phase = .listening) :
      PubSubMoves deps s (.unsubscribe c) (s.unsubscribe (M := M) c).1 (s.unsubscribe c).2
  | process (ok : Bool) (hlt : s.connection.processed < s.connection.sent) :
      PubSubMoves deps s (.process ok) { s with connection := s.connection.process ok } []
  | settle (r : Nat) (hlt : r < s.connection.processed)
      (hunsettled : s.connection.settled r = false) :
      PubSubMoves deps s (.settle r) { s with
        connection := s.connection.settle r
        queue := s.queue ++ s.connection.reactions r } []
  | emit (event : ServerEvent) : PubSubMoves deps s (.emit event) (s.emit event) [.emitted event]
  | microtask (onEvent : Except Thrown Unit) (job : Job) (rest : List Job)
      (hqueue : s.queue = job :: rest) :
      PubSubMoves deps s (.microtask onEvent)
        (({ s with queue := rest } : PubSub).runJob deps onEvent job).1
        (({ s with queue := rest } : PubSub).runJob deps onEvent job).2
  | finish (c : Nat) (event : ServerEvent) (outcome : HandlerOutcome) :
      PubSubMoves deps s (.finish outcome) (s.finish (M := M) c event outcome).1
        (s.finish c event outcome).2
  | promiseSettles (index c : Nat) (event : ServerEvent) (rejection : Option Thrown) :
      PubSubMoves deps s (.promiseSettles index rejection)
        (s.promiseSettles (M := M) index c event rejection).1
        (s.promiseSettles index c event rejection).2

/-- A move is stated of the result of a function as of its two parts. -/
theorem PubSubMoves.of_eq {M : Type} {deps : PubSubDeps M} {s s' : PubSub} {a : PubSubAction}
    {out : List (PubSubOutput M)} {result : PubSub × List (PubSubOutput M)}
    (h : PubSubMoves deps s a result.1 result.2) (heq : result = (s', out)) :
    PubSubMoves deps s a s' out := by
  subst heq
  exact h

/-- Every step is one of them. Each guard of the code is a hypothesis of
its move, so that later proofs go by cases on the move and never unfold
the step. -/
theorem pubSubStep_moves {M : Type} {deps : PubSubDeps M} {s s' : PubSub} {a : PubSubAction}
    {out : List (PubSubOutput M)} (hstep : pubSubStep deps s a = some (s', out)) :
    PubSubMoves deps s a s' out := by
  cases a with
  | subscribe channel => exact (PubSubMoves.join .channel channel).of_eq (Option.some.inj hstep)
  | psubscribe pattern => exact (PubSubMoves.join .pattern pattern).of_eq (Option.some.inj hstep)
  | unsubscribe c =>
      simp only [pubSubStep, Option.ite_none_right_eq_some, Option.some.injEq] at hstep
      exact (PubSubMoves.unsubscribe c hstep.1).of_eq hstep.2
  | process ok =>
      simp only [pubSubStep, Option.ite_none_right_eq_some, Option.some.injEq] at hstep
      obtain ⟨hlt, heq⟩ := hstep
      cases heq
      exact .process ok hlt
  | settle r =>
      simp only [pubSubStep, Option.ite_none_right_eq_some, Option.some.injEq] at hstep
      obtain ⟨⟨-, hlt, hunsettled⟩, heq⟩ := hstep
      cases heq
      exact .settle r hlt hunsettled
  | emit event =>
      simp only [pubSubStep, Option.ite_none_right_eq_some, Option.some.injEq] at hstep
      obtain ⟨-, heq⟩ := hstep
      cases heq
      exact .emit event
  | microtask onEvent =>
      simp only [pubSubStep] at hstep
      split at hstep
      · rename_i job rest hrunning hqueue
        exact (PubSubMoves.microtask onEvent job rest hqueue).of_eq (Option.some.inj hstep)
      · cases hstep
  | finish outcome =>
      simp only [pubSubStep] at hstep
      split at hstep
      · exact (PubSubMoves.finish _ _ outcome).of_eq (Option.some.inj hstep)
      · cases hstep
  | promiseSettles index rejection =>
      simp only [pubSubStep] at hstep
      split at hstep
      · exact (PubSubMoves.promiseSettles index _ _ rejection).of_eq (Option.some.inj hstep)
      · cases hstep

end NestCache
