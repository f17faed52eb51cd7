import NestCache.MessageNetwork
import NestCache.Refusals

/-!
# Delivery across instances

* `networkEffect` — one step moves one service, the broker, or both, and what they
  show fits together;
* `handlers_hear_publishes` — there is one order of the calls of `publish` of all
  instances such that every handler of every instance is started with a part of
  them, in that order, each at most once.
-/

namespace NestCache

open scoped List
open Broker (admitted stream_sublist sent_sublist)

/-! ## One piece of work of a service -/

section Pieces

variable {M : Type} {deps : PubSubDeps M}

/-- The connection may have sent more. -/
structure SubscriberConnection.SendsOn (n n' : SubscriberConnection) : Prop where
  processed : n'.processed = n.processed
  accepted : n'.accepted = n.accepted
  sent : n.sent ≤ n'.sent
  commands : ∀ r < n.sent, n'.commands r = n.commands r

/-- A connection that does nothing has sent no more. -/
theorem SubscriberConnection.SendsOn.refl (n : SubscriberConnection) : n.SendsOn n :=
  ⟨rfl, rfl, Nat.le_refl _, fun _ _ => rfl⟩

/-- Sending on twice is sending on: commands that were on their way are
still the same. -/
theorem SubscriberConnection.SendsOn.trans {n n' n'' : SubscriberConnection} (h : n.SendsOn n')
    (h' : n'.SendsOn n'') : n.SendsOn n'' :=
  ⟨h'.processed.trans h.processed, h'.accepted.trans h.accepted, h.sent.trans h'.sent,
    fun r hr => (h'.commands r (Nat.lt_of_lt_of_le hr h.sent)).trans (h.commands r hr)⟩

/-- Sending a command takes the next number and leaves the earlier commands. -/
theorem SubscriberConnection.sendsOn_send (n : SubscriberConnection) (command : SubscriberCommand)
    (jobs : List Job) : n.SendsOn (n.send command jobs) :=
  ⟨rfl, rfl, Nat.le_succ _, fun _ hr => Function.update_of_ne (Nat.ne_of_lt hr) ..⟩

/-- Joining a reference only waits for a command that was sent before. -/
theorem PubSub.sendsOn_joinRef (s : PubSub) (t : Target) (ref : Nat) :
    s.connection.SendsOn (s.joinRef t ref).connection := by
  unfold PubSub.joinRef PubSub.await
  split
  · exact .refl _
  · exact ⟨rfl, rfl, Nat.le_refl _, fun _ _ => rfl⟩

/-- The event of an output. -/
def PubSubOutput.emitted? : PubSubOutput M → Option ServerEvent
  | emitted event => some event
  | _ => none

/-- A call of `subscribe` or `psubscribe` sends on and hands no message to
a handler. -/
theorem PubSub.sendsOn_subscribeTo (s : PubSub) (kind : TargetKind) (name : Text) :
    s.connection.SendsOn (s.subscribeTo deps kind name).1.connection ∧
      (s.subscribeTo deps kind name).2.filterMap PubSubOutput.emitted? = [] := by
  unfold PubSub.subscribeTo
  cases deps.keyBuilder.applyNamespace name with
  | error e => exact ⟨.refl _, rfl⟩
  | ok fullName =>
      cases href : s.service.refs ⟨kind, fullName⟩ with
      | some ref =>
          simp only [PubSub.ensureRef, href]
          exact ⟨s.sendsOn_joinRef _ ref, rfl⟩
      | none =>
          simp only [PubSub.ensureRef, href]
          refine ⟨SubscriberConnection.SendsOn.trans ?_ (PubSub.sendsOn_joinRef _ _ _), rfl⟩
          exact s.connection.sendsOn_send _ _

/-- So does a call of Unsubscribe. -/
theorem PubSub.sendsOn_unsubscribe (s : PubSub) (c : Nat) :
    s.connection.SendsOn (s.unsubscribe (M := M) c).1.connection ∧
      (s.unsubscribe (M := M) c).2.filterMap PubSubOutput.emitted? = [] := by
  unfold PubSub.unsubscribe PubSub.releaseSubscription
  split
  · exact ⟨.refl _, rfl⟩
  · dsimp only
    split
    · exact ⟨s.connection.sendsOn_send _ _, rfl⟩
    · exact ⟨.refl _, rfl⟩

/-- A continuation hands no message to a handler: it settles calls and
sends commands. -/
theorem PubSub.runJob_emitted (onEvent : Except Thrown Unit) (s : PubSub) (job : Job) :
    (s.runJob deps onEvent job).2.filterMap PubSubOutput.emitted? = [] := by
  cases job with
  | dropEntry r =>
      simp only [runJob]
      split <;> rfl
  | resumeSubscribe c r =>
      simp only [runJob, PubSub.resumeSubscribe]
      split <;> rfl
  | deliver c event =>
      simp only [runJob, deliver]
      split <;> rfl
  | report channel error =>
      simp only [runJob, report_eq]
      split <;> rfl
  | resumeRetain _ _ | resumeRelease _ _ | resumeUnsubscribe _ _ | resumeAwait _ => rfl

/-- **A local piece of work** sends commands, and emits nothing. These are the
calls, the replies' settlement and the continuations; events come from the
network. -/
theorem local_step {s s' : PubSub} {a : PubSubAction} {out : List (PubSubOutput M)}
    (hlocal : a.isLocal = true) (hstep : pubSubStep deps s a = some (s', out)) :
    s.connection.SendsOn s'.connection ∧ out.filterMap PubSubOutput.emitted? = [] := by
  cases pubSubStep_moves hstep with
  | join kind name => exact s.sendsOn_subscribeTo kind name
  | unsubscribe c hlistening => exact s.sendsOn_unsubscribe c
  | process ok hlt => cases hlocal
  | settle r hlt hunsettled => exact ⟨⟨rfl, rfl, Nat.le_refl _, fun _ _ => rfl⟩, rfl⟩
  | emit event => cases hlocal
  | microtask onEvent job rest hqueue =>
      refine ⟨?_, PubSub.runJob_emitted onEvent _ job⟩
      rw [PubSub.runJob_connection]
      exact .refl _
  | finish c event outcome => cases outcome <;> exact ⟨.refl _, rfl⟩
  | promiseSettles index c event rejection => cases rejection <;> exact ⟨.refl _, rfl⟩

end Pieces

/-! ## One step of the network -/

section Network

variable {ι T : Type} [DecidableEq ι] {instances : Instances ι T} {server : PubSubServer}
  {s s' : Network ι} {a : NetworkAction ι T} {out more : List (NetworkEvent ι T)}

/-- What a service does when an action moves it. -/
def NetworkAction.moves (i : ι) (a : NetworkAction ι T) (b : PubSubAction) : Prop :=
  a = .service i b ∨ b.isLocal = false

/-- The PUBLISH of a call: the namespaced channel and the serialized
message. -/
def Instances.composes (instances : Instances ι T) (p : Publication ι T) : Prop :=
  (instances.service p.publisher).keyBuilder.applyNamespace p.channel = .ok p.sent.1 ∧
    ∃ raw, (instances.service p.publisher).serializer.serialize p.message = .ok raw ∧
      p.sent.2 = raw.getD []

/-- What one step does to the services and to the broker. -/
structure NetworkEffect (instances : Instances ι T) (server : PubSubServer) (a : NetworkAction ι T)
    (s s' : Network ι) (more : List (NetworkEvent ι T)) : Prop where
  services : ∀ i, (s'.services i = s.services i ∧ serviceOutputs i more = []) ∨
    ∃ b, a.moves i b ∧ pubSubStep (instances.deps i) (s.services i) b =
      some (s'.services i, serviceOutputs i more)
  broker : (s'.broker = s.broker ∧ brokerEvents more = []) ∨
    ∃ b, Broker.step server.toMatching s.broker b = some (s'.broker, brokerEvents more)
  emitted : ∀ i t, ((serviceOutputs i more).filterMap (·.emitted?)).filter (·.target = t) =
    ((brokerEvents more).filterMap (·.receivedFor? i t)).map t.event
  sent : ∀ i, ((publications more).filter (·.publisher = i)).map Publication.sent =
    (brokerEvents more).filterMap (·.sentBy? i)
  composed : ∀ p ∈ publications more, instances.composes p

omit [DecidableEq ι] in
/-- A call of `publish` sends the namespaced channel and the serialized
message. -/
theorem composes_of_firstPublish {i : ι} {connection : ConnectionStatus} {channel : Text}
    {message : T} {m : Publish} (h : firstPublish (V := Unit)
      (((instances.service i).under connection).publish channel message) = .ok (some m)) :
    instances.composes ⟨i, channel, message, m⟩ := by
  unfold CacheService.publish CacheService.under at h
  cases hname : (instances.service i).keyBuilder.applyNamespace channel with
  | error e => simp [hname, Dialogue.ofExcept, Dialogue.bind, firstPublish] at h
  | ok full =>
      cases hraw : (instances.service i).serializer.serialize message with
      | error e => simp [hname, hraw, Dialogue.ofExcept, Dialogue.bind, firstPublish] at h
      | ok raw =>
          cases connection with
          | shutDown =>
              simp [hname, hraw, Dialogue.ofExcept, Dialogue.bind, firstPublish, throwCache,
                CacheService.client, ConnectionStatus.getClient] at h
          | connected client =>
              obtain rfl : (full, raw.getD []) = m := by
                simpa [hname, hraw, Dialogue.ofExcept, Dialogue.bind, firstPublish,
                  CacheService.client, ConnectionStatus.getClient, Dialogue.request] using h
              exact ⟨hname, raw, hraw, rfl⟩

/-! ### The parts of what a step shows -/

omit [DecidableEq ι] in
@[simp] theorem brokerEvents_append :
    brokerEvents (out ++ more) = brokerEvents out ++ brokerEvents more :=
  List.filterMap_append

@[simp] theorem serviceOutputs_append (i : ι) :
    serviceOutputs i (out ++ more) = serviceOutputs i out ++ serviceOutputs i more :=
  List.filterMap_append

omit [DecidableEq ι] in
@[simp] theorem publications_append :
    publications (out ++ more) = publications out ++ publications more :=
  List.filterMap_append

omit [DecidableEq ι] in
@[simp] theorem brokerEvents_broker (events : List (Broker.Event ι ι Target Publish)) :
    brokerEvents (events.map (NetworkEvent.broker (T := T))) = events := by
  simp [brokerEvents, List.filterMap_map, NetworkEvent.broker?]

@[simp] theorem serviceOutputs_broker (i : ι) (events : List (Broker.Event ι ι Target Publish)) :
    serviceOutputs i (events.map (NetworkEvent.broker (T := T))) = [] := by
  simp [serviceOutputs, List.filterMap_map, NetworkEvent.serviceOf?]

omit [DecidableEq ι] in
@[simp] theorem publications_broker (events : List (Broker.Event ι ι Target Publish)) :
    publications (events.map (NetworkEvent.broker (T := T))) = [] := by
  simp [publications, List.filterMap_map, NetworkEvent.published?]

omit [DecidableEq ι] in
@[simp] theorem brokerEvents_service (i : ι) (outputs : List (PubSubOutput T)) :
    brokerEvents (outputs.map (NetworkEvent.service i)) = [] := by
  simp [brokerEvents, List.filterMap_map, NetworkEvent.broker?]

@[simp] theorem serviceOutputs_service (i j : ι) (outputs : List (PubSubOutput T)) :
    serviceOutputs i (outputs.map (.service j)) = if j = i then outputs else [] := by
  by_cases h : j = i <;>
    simp [serviceOutputs, List.filterMap_map, NetworkEvent.serviceOf?, h]

omit [DecidableEq ι] in
@[simp] theorem publications_service (i : ι) (outputs : List (PubSubOutput T)) :
    publications (outputs.map (NetworkEvent.service i)) = [] := by
  simp [publications, List.filterMap_map, NetworkEvent.published?]

/-- A piece of work of one service leaves the others and the broker alone. -/
theorem serviceStep_eq {i : ι} {b : PubSubAction}
    (h : s.serviceStep instances i b = some (s', more)) :
    ∃ outputs, pubSubStep (instances.deps i) (s.services i) b = some (s'.services i, outputs) ∧
      more = outputs.map (.service i) ∧ (∀ j, j ≠ i → s'.services j = s.services j) ∧
      s'.broker = s.broker := by
  simp only [Network.serviceStep, Option.map_eq_some_iff] at h
  obtain ⟨⟨service, outputs⟩, hstep, heq⟩ := h
  obtain ⟨rfl, rfl⟩ := Prod.mk.inj heq
  exact ⟨outputs, by simpa using hstep, rfl, fun j hj => Function.update_of_ne hj .., rfl⟩

omit [DecidableEq ι] in
/-- A step of the broker leaves the services alone. -/
theorem brokerStep_eq [DecidableEq ι] {b : Broker.Action ι ι Target Publish}
    (h : s.brokerStep server b = some (s', more)) :
    ∃ events, Broker.step server.toMatching s.broker b = some (s'.broker, events) ∧
      more = events.map .broker ∧ s'.services = s.services := by
  simp only [Network.brokerStep, Option.map_eq_some_iff] at h
  obtain ⟨⟨broker, events⟩, hstep, heq⟩ := h
  obtain ⟨rfl, rfl⟩ := Prod.mk.inj heq
  exact ⟨events, hstep, rfl, rfl⟩

/-- A step of the broker that neither takes a PUBLISH nor hands one out. The
services do not notice it. -/
theorem NetworkEffect.quiet {b : Broker.Action ι ι Target Publish}
    (h : s.brokerStep server b = some (s', more)) (hsend : ∀ i m, b ≠ .send i m)
    (hreceive : ∀ i, b ≠ .receive i) : NetworkEffect instances server a s s' more := by
  obtain ⟨events, hstep, rfl, hservices⟩ := brokerStep_eq h
  have hseen := Broker.quiet_step hstep hsend hreceive
  refine ⟨fun i => .inl ⟨by rw [hservices], serviceOutputs_broker i events⟩, .inr ⟨b, ?_⟩,
    fun i t => ?_, fun i => ?_, by simp⟩
  · rw [brokerEvents_broker]
    exact hstep
  · have hnone : events.filterMap (·.receivedFor? i t) = [] := by
      refine List.filterMap_eq_nil_iff.mpr fun e he => ?_
      rcases hseen e he with ⟨_, _, rfl⟩ | ⟨_, rfl⟩ <;> rfl
    simp [hnone]
  · have hnone : events.filterMap (·.sentBy? i) = [] := by
      refine List.filterMap_eq_nil_iff.mpr fun e he => ?_
      rcases hseen e he with ⟨_, _, rfl⟩ | ⟨_, rfl⟩ <;> rfl
    simp [hnone]

@[simp] theorem Target.event_target (t : Target) (m : Publish) : (t.event m).target = t := by
  obtain ⟨kind, name⟩ := t
  cases kind <;> rfl

/-- What `pubSubStep` shows of a reply is nothing. -/
theorem process_eq {M : Type} {deps : PubSubDeps M} {v v' : PubSub} {ok : Bool}
    {outputs : List (PubSubOutput M)} (h : pubSubStep deps v (.process ok) = some (v', outputs)) :
    v.connection.processed < v.connection.sent ∧
      v' = { v with connection := v.connection.process ok } ∧ outputs = [] := by
  simp only [pubSubStep, Option.ite_none_right_eq_some, Option.some.injEq, Prod.mk.injEq] at h
  obtain ⟨hlt, rfl, rfl⟩ := h
  exact ⟨hlt, rfl, rfl⟩

/-- What it shows of an event is the event. -/
theorem emit_eq {M : Type} {deps : PubSubDeps M} {v v' : PubSub} {event : ServerEvent}
    {outputs : List (PubSubOutput M)} (h : pubSubStep deps v (.emit event) = some (v', outputs)) :
    outputs = [.emitted event] ∧ v'.connection = v.connection := by
  simp only [pubSubStep, Option.ite_none_right_eq_some, Option.some.injEq, Prod.mk.injEq] at h
  obtain ⟨-, rfl, rfl⟩ := h
  exact ⟨rfl, rfl⟩

/-- A piece of work of one service that shows no event. The broker and the
other services are as they were. -/
theorem NetworkEffect.work {i : ι} {b : PubSubAction} {outputs : List (PubSubOutput T)}
    (hmoves : a.moves i b)
    (hstep : pubSubStep (instances.deps i) (s.services i) b = some (s'.services i, outputs))
    (hemitted : outputs.filterMap PubSubOutput.emitted? = [])
    (hothers : ∀ j, j ≠ i → s'.services j = s.services j) (hbroker : s'.broker = s.broker) :
    NetworkEffect instances server a s s' (outputs.map (.service i)) := by
  refine ⟨fun j => ?_, .inl ⟨hbroker, brokerEvents_service i outputs⟩, fun j t => ?_,
    fun j => by simp, by simp⟩
  · by_cases hj : j = i
    · subst hj
      exact .inr ⟨b, hmoves, by simpa using hstep⟩
    · exact .inl ⟨hothers j hj, by simp [Ne.symm hj]⟩
  · by_cases hj : i = j
    · subst hj
      simp [hemitted]
    · simp [hj]

/-- Two effects, of which the second is the broker's. The answer to a command
is such a pair: the connection processes it, and the broker carries it out. -/
theorem NetworkEffect.andThen {s₁ : Network ι} (h : NetworkEffect instances server a s s₁ out)
    (hbroker : s₁.broker = s.broker ∧ brokerEvents out = [])
    (h' : NetworkEffect instances server a s₁ s' more) (hservices : s'.services = s₁.services)
    (hmore : ∀ i, serviceOutputs i more = []) :
    NetworkEffect instances server a s s' (out ++ more) := by
  refine ⟨fun i => ?_, ?_, fun i t => ?_, fun i => ?_, fun p hp => ?_⟩
  · rw [hservices, serviceOutputs_append, hmore, List.append_nil]
    exact h.services i
  · rw [← hbroker.1, brokerEvents_append, hbroker.2, List.nil_append]
    exact h'.broker
  · rw [serviceOutputs_append, brokerEvents_append, List.filterMap_append, List.filter_append,
      List.filterMap_append, List.map_append, h.emitted, h'.emitted]
  · rw [publications_append, brokerEvents_append, List.filter_append, List.map_append,
      List.filterMap_append, h.sent, h'.sent]
  · rw [publications_append] at hp
    exact (List.mem_append.mp hp).elim (h.composed p) (h'.composed p)

/-- **One step** moves one service, the broker, or both. The cases are the
actions of the network, each of which is a piece of work of one service, a step
of the broker, or one after the other. -/
theorem networkEffect (h : networkStep instances server s a = some (s', more)) :
    NetworkEffect instances server a s s' more := by
  cases a with
  | publish i connection channel message =>
      simp only [networkStep, Network.publish] at h
      split at h
      · next m hfirst =>
          simp only [Option.map_eq_some_iff] at h
          obtain ⟨⟨s₁, out⟩, hsend, heq⟩ := h
          obtain ⟨rfl, rfl⟩ := Prod.mk.inj heq
          obtain ⟨events, hstep, rfl, hservices⟩ := brokerStep_eq hsend
          obtain ⟨-, hevents⟩ := Prod.mk.inj (Option.some.inj hstep)
          subst hevents
          refine ⟨fun j => .inl ⟨by rw [hservices], rfl⟩, .inr ⟨_, hstep⟩, fun j t => rfl,
            fun j => ?_, fun p hp => ?_⟩
          · by_cases hj : i = j <;>
              simp [publications, brokerEvents, NetworkEvent.published?, NetworkEvent.broker?,
                Broker.Event.sentBy?, hj]
          · obtain rfl : p = ⟨i, channel, message, m⟩ := by
              simpa [publications, NetworkEvent.published?] using hp
            exact composes_of_firstPublish hfirst
      · cases h
      · obtain ⟨rfl, rfl⟩ := Prod.mk.inj (Option.some.inj h)
        exact ⟨fun i => .inl ⟨rfl, rfl⟩, .inl ⟨rfl, rfl⟩, fun i t => rfl, fun i => rfl,
          fun p hp => by cases hp⟩
  | lose i | serve i | reconnect i _ => exact .quiet h (by simp) (by simp)
  | service i b =>
      simp only [networkStep, Option.ite_none_right_eq_some] at h
      obtain ⟨hlocal, hstep⟩ := h
      obtain ⟨outputs, hpiece, rfl, hothers, hbroker⟩ := serviceStep_eq hstep
      exact .work (.inl rfl) hpiece (local_step hlocal hpiece).2 hothers hbroker
  | answer i ok executed =>
      simp only [networkStep, Network.answer, Option.bind_eq_bind, Option.bind_eq_some_iff] at h
      obtain ⟨⟨s₁, out⟩, hprocess, h⟩ := h
      obtain ⟨outputs, hpiece, rfl, hothers, hbroker⟩ := serviceStep_eq hprocess
      obtain ⟨-, -, rfl⟩ := process_eq hpiece
      have hfirst : NetworkEffect instances server (.answer i ok executed) s s₁ [] :=
        .work (.inr rfl) hpiece rfl hothers hbroker
      split at h
      · simp only [Option.bind_eq_some_iff] at h
        obtain ⟨⟨s₂, more⟩, hcarry, heq⟩ := h
        obtain ⟨rfl, rfl⟩ := Prod.mk.inj (Option.some.inj heq)
        obtain ⟨events, -, rfl, hservices⟩ := brokerStep_eq hcarry
        have hquiet : NetworkEffect instances server (.answer i ok executed) s₁ s₂
            (events.map .broker) := by
          refine .quiet hcarry (fun j m heq => ?_) (fun j heq => ?_) <;>
            revert heq <;> unfold Network.carryOut <;> split <;> simp
        exact hfirst.andThen ⟨hbroker, rfl⟩ hquiet hservices fun j => serviceOutputs_broker j events
      · obtain ⟨rfl, rfl⟩ := Prod.mk.inj (Option.some.inj h)
        exact hfirst
  | arrive i =>
      simp only [networkStep, Network.arrive] at h
      split at h
      · cases h
      · next t m rest hin =>
          simp only [Option.bind_eq_bind, Option.bind_eq_some_iff] at h
          obtain ⟨⟨s₁, out⟩, hreceive, ⟨s₂, more⟩, hemit, heq⟩ := h
          obtain ⟨rfl, rfl⟩ := Prod.mk.inj (Option.some.inj heq)
          obtain ⟨events, hstep, rfl, hservices⟩ := brokerStep_eq hreceive
          obtain ⟨outputs, hpiece, rfl, hothers, hbroker⟩ := serviceStep_eq hemit
          obtain ⟨rfl, -⟩ := emit_eq hpiece
          obtain rfl : events = [.received i t m] := by
            simp only [Broker.step, hin] at hstep
            exact (Prod.mk.inj (Option.some.inj hstep)).2.symm
          rw [hservices] at hpiece
          have hevents : brokerEvents ([Broker.Event.received i t m].map .broker ++
              [PubSubOutput.emitted (M := T) (t.event m)].map (.service i)) = [.received i t m] := rfl
          have houtputs : ∀ j, serviceOutputs j ([Broker.Event.received i t m].map .broker ++
              [PubSubOutput.emitted (t.event m)].map (.service i)) =
                if i = j then [PubSubOutput.emitted (M := T) (t.event m)] else [] := by
            intro j
            rw [serviceOutputs_append, serviceOutputs_broker, List.nil_append,
              serviceOutputs_service]
          refine ⟨fun j => ?_, .inr ⟨.receive i, ?_⟩, fun j t' => ?_, fun j => rfl,
            fun p hp => by cases hp⟩
          · rw [houtputs]
            by_cases hj : i = j
            · subst hj
              rw [if_pos rfl]
              exact .inr ⟨_, .inr rfl, hpiece⟩
            · rw [if_neg hj]
              exact .inl ⟨by rw [hothers j (Ne.symm hj), hservices], rfl⟩
          · rw [hbroker, hevents]
            exact hstep
          · rw [houtputs, hevents]
            by_cases hj : i = j <;> by_cases ht : t = t' <;>
              simp [hj, ht, PubSubOutput.emitted?, Broker.Event.receivedFor?]

/-! ## Runs -/

variable {as : List (NetworkAction ι T)}

/-- Every service runs as it would alone. -/
theorem service_run (hrun : (networkMachine instances server).run as = some (s, out)) (i : ι) :
    ∃ bs, (∀ b ∈ bs, ∃ a ∈ as, a.moves i b) ∧
      (pubSubMachine (instances.deps i)).run bs = some (s.services i, serviceOutputs i out) :=
  Machine.run_component (fun s => s.services i) (·.serviceOf? i) (·.moves i) rfl
    (fun _ _ _ _ hstep => (networkEffect hstep).services i) hrun

/-- So does the broker. -/
theorem broker_run (hrun : (networkMachine instances server).run as = some (s, out)) :
    ∃ bs, (Broker.machine server.toMatching).run bs = some (s.broker, brokerEvents out) := by
  have hcomponent : ∃ bs, (∀ b ∈ bs, ∃ a ∈ as, True) ∧
      (Broker.machine server.toMatching).run bs = some (s.broker, out.filterMap (·.broker?)) :=
    Machine.run_component Network.broker (·.broker?) (fun _ _ => True) rfl
      (fun s a s' out hstep =>
        (networkEffect hstep).broker.imp_right fun ⟨b, hb⟩ => ⟨b, trivial, hb⟩) hrun
  obtain ⟨bs, -, hbs⟩ := hcomponent
  exact ⟨bs, hbs⟩

/-- What the services and the broker show fits together. -/
structure Fits (instances : Instances ι T) (out : List (NetworkEvent ι T)) : Prop where
  emitted : ∀ i t, ((serviceOutputs i out).filterMap (·.emitted?)).filter (·.target = t) =
    ((brokerEvents out).filterMap (·.receivedFor? i t)).map t.event
  sent : ∀ i, ((publications out).filter (·.publisher = i)).map Publication.sent =
    (brokerEvents out).filterMap (·.sentBy? i)
  composed : ∀ p ∈ publications out, instances.composes p

/-- **What the services and the broker show fits together** after every run,
by the step lemma on what each action of the network adds to both sides. -/
theorem fits_run (hrun : (networkMachine instances server).run as = some (s, out)) :
    Fits instances out := by
  refine (networkMachine instances server).run_induction (I := fun _ out _ => Fits instances out)
    ⟨fun _ _ => rfl, fun _ => rfl, fun p hp => by cases hp⟩ ?_ hrun
  intro _ seen s a s' more h hstep
  have heffect := networkEffect hstep
  refine ⟨fun i t => ?_, fun i => ?_, fun p hp => ?_⟩
  · rw [serviceOutputs_append, brokerEvents_append, List.filterMap_append, List.filter_append,
      List.filterMap_append, List.map_append, h.emitted, heffect.emitted]
  · rw [publications_append, brokerEvents_append, List.filter_append, List.map_append,
      List.filterMap_append, h.sent, heffect.sent]
  · rw [publications_append] at hp
    exact (List.mem_append.mp hp).elim (h.composed p) (heffect.composed p)

/-! ## What a handler hears -/

omit [DecidableEq ι] in
/-- A listener that is only attached for one target hears events of it. The
induction is on the outputs, with what the listener is attached for. -/
theorem heardFrom_sublist {M : Type} {c : Nat} {t : Target} {outputs : List (PubSubOutput M)}
    (hsubscribed : ∀ t', .subscribed c t' ∈ outputs → t' = t) {on : Option Target}
    (hon : ∀ t', on = some t' → t' = t) :
    heardFrom c on outputs <+ (outputs.filterMap (·.emitted?)).filter (·.target = t) := by
  induction outputs generalizing on with
  | nil => exact .slnil
  | cons o outputs ih =>
      have hrest := fun {on} => @ih (fun t' hmem => hsubscribed t' (List.mem_cons_of_mem _ hmem)) on
      cases o with
      | subscribed c' t' =>
          refine hrest fun t'' ht'' => ?_
          simp only [attachedTo] at ht''
          split at ht''
          · next heq =>
              subst heq
              exact hsubscribed t'' (Option.some.inj ht'' ▸ List.mem_cons_self)
          · exact hon t'' ht''
      | detached c' =>
          refine hrest fun t'' ht'' => ?_
          simp only [attachedTo] at ht''
          split at ht''
          · cases ht''
          · exact hon t'' ht''
      | emitted event =>
          have htail := hrest hon
          simp only [heardFrom, heardIn, List.filterMap_cons, PubSubOutput.emitted?, attachedTo]
          by_cases ht : event.target = t
          · rw [List.filter_cons_of_pos (by simpa using ht)]
            split
            · exact htail.cons_cons event
            · exact htail.cons event
          · rw [List.filter_cons_of_neg (by simpa using ht)]
            split
            · next heq => exact absurd (hon _ heq) ht
            · exact htail
      | _ => exact hrest hon

/-- What is left of a call of `publish` at a handler of an instance. -/
def Instances.heardAs (instances : Instances ι T) (i : ι) (t : Target) (p : Publication ι T) :
    Option (ServerEvent × T) :=
  if t.admits p.sent then decoded (instances.deps i) (t.event p.sent) else none

/-- The events a listener hears are of what the broker admits to its target.
This puts together what the service shows, what the connection received, and
what the broker served. -/
theorem heard_sublist (hrun : (networkMachine instances server).run as = some (s, out)) (i : ι)
    (c : Nat) : heard c (serviceOutputs i out) <+
      (admitted server.toMatching ((s.services i).service.callers c).target
        (brokerEvents out)).map ((s.services i).service.callers c).target.event := by
  obtain ⟨bs, -, hservice⟩ := service_run hrun i
  obtain ⟨bs', hbroker⟩ := broker_run hrun
  have hrecord := (recordsRun_run hservice).2
  have hheard : heard c (serviceOutputs i out) <+ _ :=
    heardFrom_sublist (fun t' hmem => ((hrecord.subscribed c t').mpr hmem).2.symm)
      (fun t' ht' => by cases ht')
  rw [(fits_run hrun).emitted] at hheard
  refine hheard.trans (List.Sublist.map _ ?_)
  exact (List.sublist_append_left _ _).trans
    (stream_sublist hbroker i ((s.services i).service.callers c).target)

/-- One order of the calls of `publish` is what the broker served. Each
publisher's calls are served in the order in which they were made, and the
broker shuffles them into one stream. -/
theorem served_order (hrun : (networkMachine instances server).run as = some (s, out)) :
    ∃ order : List (Publication ι T),
      (brokerEvents out).filterMap (·.served?) = order.map (fun p => (p.publisher, p.sent)) ∧
      (∀ i, order.filter (·.publisher = i) <+ (publications out).filter (·.publisher = i)) ∧
      ∀ p ∈ order, p ∈ publications out ∧ instances.composes p := by
  have hfits := fits_run hrun
  obtain ⟨bs, hbroker⟩ := broker_run hrun
  obtain ⟨order, hserved, horder⟩ := Broker.exists_order Publication.publisher Publication.sent
    fun i => by
      rw [hfits.sent i]
      exact (List.sublist_append_left _ _).trans (sent_sublist hbroker i)
  refine ⟨order, hserved, horder, fun p hp => ?_⟩
  have hmem := (horder p.publisher).subset (List.mem_filter.mpr ⟨hp, by simp⟩)
  exact ⟨(List.mem_filter.mp hmem).1, hfits.composed p (List.mem_filter.mp hmem).1⟩

/-- A handler is started with a part of what was served. A handler starts with
the decoded payload of what it hears, so the order of calls decides the order
of starts. -/
theorem starts_sublist (hrun : (networkMachine instances server).run as = some (s, out))
    {order : List (Publication ι T)}
    (hserved : (brokerEvents out).filterMap (·.served?) =
      order.map (fun p => (p.publisher, p.sent))) (i : ι) (c : Nat) :
    startsOf c (serviceOutputs i out) <+
      order.filterMap (instances.heardAs i ((s.services i).service.callers c).target) := by
  obtain ⟨bs, -, hservice⟩ := service_run hrun i
  obtain ⟨handled, hheard, hstarts, -⟩ := (deliveryInv_run hservice).delivered c
  have hstarted : startsOf c (serviceOutputs i out) <+
      (heard c (serviceOutputs i out)).filterMap (decoded (instances.deps i)) := by
    rw [hstarts, hheard]
    exact (List.sublist_append_left _ _).filterMap _
  refine hstarted.trans (((heard_sublist hrun i c).filterMap _).trans ?_)
  rw [admitted, hserved, List.filterMap_map, List.filterMap_filterMap, List.filterMap_map]
  rw [List.filterMap_congr fun p _ => ?_]
  simp only [Function.comp_apply, Instances.heardAs, server.admits_eq]
  cases ((s.services i).service.callers c).target.admits p.sent <;> rfl

/-- **One order of messages.** In every run of any number of instances there
is one order of the calls of `publish`, which keeps the order of each
instance, such that every handler of every instance is started with a part of
them, in that order, each at most once, with the decoded payload. -/
theorem handlers_hear_publishes (instances : Instances ι T) (server : PubSubServer)
    {as : List (NetworkAction ι T)} {s : Network ι} {out : List (NetworkEvent ι T)}
    (hrun : (networkMachine instances server).run as = some (s, out)) :
    ∃ order : List (Publication ι T),
      (∀ i, order.filter (·.publisher = i) <+ (publications out).filter (·.publisher = i)) ∧
      (∀ p ∈ order, instances.composes p) ∧
      ∀ i c, startsOf c (serviceOutputs i out) <+
        order.filterMap (instances.heardAs i ((s.services i).service.callers c).target) := by
  obtain ⟨order, hserved, horder, hcalls⟩ := served_order hrun
  exact ⟨order, horder, fun p hp => (hcalls p hp).2, fun i c => starts_sublist hrun hserved i c⟩

end Network

/-! ## Two instances -/

/-- A server that writes a PUBLISH in the order of the subscriptions. -/
def plainServer : PubSubServer where
  admits := Target.admits
  order subscriptions m := subscriptions.filter (·.admits m)
  perm _ _ := .refl _
  admits_eq := rfl

/-- Two instances of one namespace. -/
def twoInstances : Instances Bool Nat where
  service _ := numberService
  hasOnEvent _ := false

/-- An instance subscribes; the other publishes two numbers, of which the
second is still on its way. -/
def newsRun : List (NetworkAction Bool Nat) :=
  [.service true (.subscribe "news".toList), .answer true true true,
    .service true (.settle 0), .service true (.microtask (.ok ())),
    .service true (.microtask (.ok ())), .service true (.microtask (.ok ())),
    .publish false (.connected .redis) "news".toList 5,
    .publish false (.connected .redis) "news".toList 6, .serve false, .serve false,
    .arrive true, .service true (.microtask (.ok ()))]

/-- In a short run of two instances the handler hears the first of the two
messages that the other published. -/
theorem handlers_hear_publishes_news :
    ∃ s out, (networkMachine twoInstances plainServer).run newsRun = some (s, out) ∧
      startsOf 0 (serviceOutputs true out) = [(.message "app:news".toList "5".toList, 5)] ∧
      ∃ order : List (Publication Bool Nat),
        (∀ i, order.filter (·.publisher = i) <+ (publications out).filter (·.publisher = i)) ∧
        (∀ p ∈ order, twoInstances.composes p) ∧
        ∀ i c, startsOf c (serviceOutputs i out) <+
          order.filterMap (twoInstances.heardAs i ((s.services i).service.callers c).target) := by
  have hrun : (networkMachine twoInstances plainServer).run newsRun = some (_, _) := rfl
  exact ⟨_, _, hrun, rfl, handlers_hear_publishes twoInstances plainServer hrun⟩

end NestCache
