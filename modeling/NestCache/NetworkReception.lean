import NestCache.NetworkDelivery

/-!
# Reception across instances

* `subscribed_receives` — once a `subscribe` call has resolved, every PUBLISH
  that the server processes reaches the handler in order, unless the connection
  breaks or the caller unsubscribes;
* `messages_stay_in_namespace` — a handler hears the instances of its own
  namespace only, on the channel or pattern it asked for.
-/

namespace NestCache

open scoped List
open Broker (messagesFor admitted admitted_append stream stream_step stream_sublist)

variable {ι T : Type} [DecidableEq ι] {instances : Instances ι T} {server : PubSubServer}
  {s s' : Network ι} {a : NetworkAction ι T} {as : List (NetworkAction ι T)}
  {out more : List (NetworkEvent ι T)} {i : ι}

/-! ## What the server knows -/

/-- An accepted SUBSCRIBE is in force until a later command for its target is
processed. -/
def InForce (s : Network ι) (i : ι) : Prop :=
  ∀ r t, r < (s.services i).connection.processed →
    (s.services i).connection.commands r = ⟨.subscribe, t⟩ →
    (s.services i).connection.accepted r = true →
    (∀ r', r < r' → r' < (s.services i).connection.processed →
      ((s.services i).connection.commands r').target ≠ t) →
    t ∈ s.broker.subscriptions i

omit [DecidableEq ι] in
/-- Commands that are sent on change nothing. -/
theorem InForce.frame (h : InForce s i)
    (hle : (s.services i).connection.processed ≤ (s.services i).connection.sent)
    (hsends : (s.services i).connection.SendsOn (s'.services i).connection)
    (hsubscriptions : s'.broker.subscriptions i = s.broker.subscriptions i) : InForce s' i := by
  intro r t hr hcommand haccepted hlast
  rw [hsends.processed] at hr hlast
  rw [hsends.accepted] at haccepted
  rw [hsends.commands r (Nat.lt_of_lt_of_le hr hle)] at hcommand
  rw [hsubscriptions]
  refine h r t hr hcommand haccepted fun r' hlt hr' => ?_
  have hother := hlast r' hlt hr'
  rwa [hsends.commands r' (Nat.lt_of_lt_of_le hr' hle)] at hother

omit [DecidableEq ι] in
/-- The server carries out a command that it accepts. A SUBSCRIBE adds its
target at the server, and an UNSUBSCRIBE takes its own away, which is the later
command for it. -/
theorem InForce.process {ok : Bool} {subscriptions : List Target} (h : InForce s i)
    (hservice : s'.services i =
      { s.services i with connection := (s.services i).connection.process ok })
    (hsubscriptions : s'.broker.subscriptions i = subscriptions)
    (hkept : ∀ t, ((s.services i).connection.commands
        (s.services i).connection.processed).target ≠ t →
      t ∈ s.broker.subscriptions i → t ∈ subscriptions)
    (htaken : ok = true → ∀ t, (s.services i).connection.commands
        (s.services i).connection.processed = ⟨.subscribe, t⟩ → t ∈ subscriptions) :
    InForce s' i := by
  intro r t hr hcommand haccepted hlast
  rw [hservice] at hr hcommand haccepted hlast
  rw [hsubscriptions]
  simp only [SubscriberConnection.process] at hr hcommand haccepted hlast
  by_cases hnew : r = (s.services i).connection.processed
  · subst hnew
    rw [Function.update_self] at haccepted
    exact htaken haccepted t hcommand
  · have hold : r < (s.services i).connection.processed := by omega
    rw [Function.update_of_ne hnew] at haccepted
    refine hkept t (hlast _ hold (Nat.lt_succ_self _)) (h r t hold hcommand haccepted ?_)
    exact fun r' hlt hr' => hlast r' hlt (Nat.lt_succ_of_lt hr')

/-- A step of the broker that is no command of the connection. -/
theorem InForce.broker {b : Broker.Action ι ι Target Publish} (h : InForce s i)
    (hle : (s.services i).connection.processed ≤ (s.services i).connection.sent)
    (hstep : s.brokerStep server b = some (s', more)) (hreset : .reset i ∉ brokerEvents more)
    (hsubscribe : ∀ t, b ≠ .subscribe i t) (hunsubscribe : ∀ t, b ≠ .unsubscribe i t) :
    InForce s' i := by
  obtain ⟨events, hbroker, rfl, hservices⟩ := brokerStep_eq hstep
  rw [brokerEvents_broker] at hreset
  refine h.frame hle (by rw [hservices]; exact .refl _) ?_
  rcases Broker.subscriptions_step hbroker i with hsame | ⟨t, rfl, -⟩ | ⟨t, rfl, -⟩ | hmem
  · exact hsame
  · exact absurd rfl (hsubscribe t)
  · exact absurd rfl (hunsubscribe t)
  · exact absurd hmem hreset

omit [DecidableEq ι] in
/-- A command of another connection. -/
theorem carryOut_ne {j : ι} (hj : i ≠ j) (command : SubscriberCommand) (t : Target) :
    Network.carryOut j command ≠ .subscribe i t ∧ Network.carryOut j command ≠ .unsubscribe i t := by
  obtain ⟨kind, target⟩ := command
  cases kind <;> simp [Network.carryOut, Ne.symm hj]

/-- The subscriptions after a command. -/
def SubscriberCommand.carriedOut (subscriptions : List Target) : SubscriberCommand → List Target
  | ⟨.subscribe, t⟩ => subscriptions.insert t
  | ⟨.unsubscribe, t⟩ => subscriptions.erase t

/-- What the broker does with a command of a connection is what the service
counts on: one subscription more, or one less. -/
theorem carryOut_subscriptions {broker broker' : Broker.State ι ι Target Publish}
    {events : List (Broker.Event ι ι Target Publish)} {command : SubscriberCommand}
    (h : Broker.step server.toMatching broker (Network.carryOut i command) =
      some (broker', events)) :
    broker'.subscriptions i = command.carriedOut (broker.subscriptions i) := by
  obtain ⟨kind, target⟩ := command
  cases kind with
  | subscribe =>
      obtain ⟨rfl, -⟩ := Prod.mk.inj (Option.some.inj h)
      exact Function.update_self ..
  | unsubscribe =>
      obtain ⟨rfl, -⟩ := Prod.mk.inj (Option.some.inj h)
      exact Function.update_self ..

/-- The server processes a command of the connection. An accepted command is
carried out with it; a rejected one may have been, and neither touches other
targets. -/
theorem InForce.answer {ok executed : Bool} (h : InForce s i)
    (hstep : s.answer instances server i ok executed = some (s', more)) : InForce s' i := by
  simp only [Network.answer, Option.bind_eq_bind, Option.bind_eq_some_iff] at hstep
  obtain ⟨⟨s₁, out⟩, hprocess, hstep⟩ := hstep
  obtain ⟨outputs, hpiece, rfl, -, hbroker⟩ := serviceStep_eq hprocess
  obtain ⟨-, hservice, rfl⟩ := process_eq hpiece
  split at hstep
  · simp only [Option.bind_eq_some_iff] at hstep
    obtain ⟨⟨s₂, more⟩, hcarry, heq⟩ := hstep
    obtain ⟨rfl, rfl⟩ := Prod.mk.inj (Option.some.inj heq)
    obtain ⟨events, hcarried, -, hservices⟩ := brokerStep_eq hcarry
    rw [hbroker] at hcarried
    refine h.process (by rw [hservices]; exact hservice) (carryOut_subscriptions hcarried)
      (fun t hother hmem => ?_) fun _ t htaken => ?_
    · generalize (s.services i).connection.commands
        (s.services i).connection.processed = command at hother ⊢
      obtain ⟨kind, target⟩ := command
      cases kind with
      | subscribe => exact List.mem_insert_of_mem hmem
      | unsubscribe => exact (List.mem_erase_of_ne (Ne.symm hother)).mpr hmem
    · rw [htaken]
      exact List.mem_insert_self
  · next hnot =>
      obtain ⟨rfl, rfl⟩ := Prod.mk.inj (Option.some.inj hstep)
      refine h.process hservice (by rw [hbroker]) (fun _ _ hmem => hmem) fun hok => ?_
      simp [hok] at hnot

/-- One step keeps subscriptions in force, unless the connection breaks. The
other actions neither process a command of this connection nor change its
subscriptions. -/
theorem inForce_step (h : InForce s i)
    (hle : (s.services i).connection.processed ≤ (s.services i).connection.sent)
    (hstep : networkStep instances server s a = some (s', more))
    (hreset : .reset i ∉ brokerEvents more) : InForce s' i := by
  cases a with
  | publish j connection channel message =>
      simp only [networkStep, Network.publish] at hstep
      split at hstep
      · simp only [Option.map_eq_some_iff] at hstep
        obtain ⟨⟨s₁, out⟩, hsend, heq⟩ := hstep
        obtain ⟨rfl, rfl⟩ := Prod.mk.inj heq
        exact h.broker hle hsend hreset (by simp) (by simp)
      · cases hstep
      · obtain ⟨rfl, rfl⟩ := Prod.mk.inj (Option.some.inj hstep)
        exact h
  | lose j | serve j | reconnect j _ => exact h.broker hle hstep hreset (by simp) (by simp)
  | service j b =>
      simp only [networkStep, Option.ite_none_right_eq_some] at hstep
      obtain ⟨hlocal, hstep⟩ := hstep
      obtain ⟨outputs, hpiece, rfl, hothers, hbroker⟩ := serviceStep_eq hstep
      refine h.frame hle ?_ (by rw [hbroker])
      by_cases hj : i = j
      · subst hj
        exact (local_step hlocal hpiece).1
      · rw [hothers i hj]
        exact .refl _
  | answer j ok executed =>
      by_cases hj : i = j
      · subst hj
        exact h.answer hstep
      · simp only [networkStep, Network.answer, Option.bind_eq_bind,
          Option.bind_eq_some_iff] at hstep
        obtain ⟨⟨s₁, out⟩, hprocess, hstep⟩ := hstep
        obtain ⟨outputs, -, rfl, hothers, hbroker⟩ := serviceStep_eq hprocess
        have hsame := hothers i hj
        have hfirst : InForce s₁ i :=
          h.frame hle (by rw [hsame]; exact .refl _) (by rw [hbroker])
        split at hstep
        · simp only [Option.bind_eq_some_iff] at hstep
          obtain ⟨⟨s₂, more⟩, hcarry, heq⟩ := hstep
          obtain ⟨rfl, rfl⟩ := Prod.mk.inj (Option.some.inj heq)
          rw [brokerEvents_append, brokerEvents_service, List.nil_append] at hreset
          exact hfirst.broker (by rw [hsame]; exact hle) hcarry hreset
            (fun t => (carryOut_ne hj _ t).1) fun t => (carryOut_ne hj _ t).2
        · obtain ⟨rfl, rfl⟩ := Prod.mk.inj (Option.some.inj hstep)
          exact hfirst
  | arrive j =>
      simp only [networkStep, Network.arrive] at hstep
      split at hstep
      · cases hstep
      · simp only [Option.bind_eq_bind, Option.bind_eq_some_iff] at hstep
        obtain ⟨⟨s₁, out⟩, hreceive, ⟨s₂, more⟩, hemit, heq⟩ := hstep
        obtain ⟨rfl, rfl⟩ := Prod.mk.inj (Option.some.inj heq)
        obtain ⟨outputs, hpiece, rfl, hothers, hbroker⟩ := serviceStep_eq hemit
        rw [brokerEvents_append, brokerEvents_service, List.append_nil] at hreset
        have hfirst : InForce s₁ i := h.broker hle hreceive hreset (by simp) (by simp)
        obtain ⟨-, -, -, hservices⟩ := brokerStep_eq hreceive
        refine hfirst.frame (by rw [hservices]; exact hle) ?_ (by rw [hbroker])
        by_cases hj : i = j
        · subst hj
          rw [(emit_eq hpiece).2]
          exact .refl _
        · rw [hothers i hj]
          exact .refl _

/-- In every run. -/
theorem inForce_run (hrun : (networkMachine instances server).run as = some (s, out))
    (hreset : .reset i ∉ brokerEvents out) : InForce s i := by
  refine (networkMachine instances server).run_history
    (I := fun out s => .reset i ∉ brokerEvents out → InForce s i) ?_ ?_ hrun hreset
  · intro _ r t hr
    cases hr
  · intro hist seen s a s' more hseen h hstep hreset
    rw [brokerEvents_append, List.mem_append, not_or] at hreset
    obtain ⟨bs, -, hservice⟩ := service_run hseen i
    exact inForce_step (h hreset.1) (subscriptionInv_run hservice).jobs.processed_le hstep hreset.2

/-- The target of an attached listener is subscribed at the server. Its
SUBSCRIBE was accepted, and no later command for the target was sent, since the
reference is still held. -/
theorem subscribed_of_attached
    (hrun : (networkMachine instances server).run as = some (s, out))
    (hreset : .reset i ∉ brokerEvents out) {c : Nat} {t : Target}
    (hattached : (s.services i).attached c = some t) : t ∈ s.broker.subscriptions i := by
  obtain ⟨bs, -, hservice⟩ := service_run hrun i
  have hdelivery := deliveryInv_run hservice
  have h := hdelivery.subscriptions
  simp only [PubSub.attached, Option.ite_none_right_eq_some, Option.some.injEq] at hattached
  obtain ⟨hlistener, rfl⟩ := hattached
  obtain ⟨hlistening, hreleased⟩ := (hdelivery.listeners.live c).mp hlistener
  have hheld := (h.refs.kept c (h.refs.known c (by simp [hlistening])) hreleased).resolve_right
    (h.refs.listening c hlistening).not_dropped
  obtain ⟨-, hcommand, hlast⟩ := h.refs.current _ _ hheld
  obtain ⟨hsettled, haccepted⟩ := h.refs.listening c hlistening
  exact inForce_run hrun hreset _ _ (h.jobs.settled_lt _ hsettled) hcommand haccepted
    fun r' hlt hr' => hlast r' hlt (Nat.lt_of_lt_of_le hr' h.jobs.processed_le)

/-! ## What an attached listener hears -/

omit [DecidableEq ι] in
/-- A listener that stays attached hears every event of its target. The
induction is on the outputs; nothing among them attaches it for another target
or detaches it. -/
theorem heardFrom_attached {M : Type} {c : Nat} {t : Target} {outputs : List (PubSubOutput M)}
    (hsubscribed : ∀ t', .subscribed c t' ∈ outputs → t' = t) (hdetached : .detached c ∉ outputs) :
    heardFrom c (some t) outputs = (outputs.filterMap (·.emitted?)).filter (·.target = t) ∧
      outputs.foldl (attachedTo c) (some t) = some t := by
  induction outputs with
  | nil => exact ⟨rfl, rfl⟩
  | cons o outputs ih =>
      obtain ⟨hheard, hfold⟩ := ih (fun t' hmem => hsubscribed t' (List.mem_cons_of_mem _ hmem))
        (fun hmem => hdetached (List.mem_cons_of_mem _ hmem))
      have hstays : attachedTo c (some t) o = some t := by
        cases o with
        | subscribed c' t' =>
            simp only [attachedTo]
            split
            · next heq =>
                subst heq
                rw [hsubscribed t' List.mem_cons_self]
            · rfl
        | detached c' =>
            simp only [attachedTo]
            refine if_neg fun heq => hdetached ?_
            subst heq
            exact List.mem_cons_self
        | _ => rfl
      rw [heardFrom, List.foldl_cons, hstays, hheard, hfold]
      refine ⟨?_, rfl⟩
      cases o with
      | emitted event =>
          simp only [heardIn, List.filterMap_cons, PubSubOutput.emitted?, Option.some.injEq]
          by_cases ht : event.target = t
          · rw [if_pos ht.symm, List.filter_cons_of_pos (by simpa using ht)]
            rfl
          · rw [if_neg (Ne.symm ht), List.filter_cons_of_neg (by simpa using ht)]
            rfl
      | _ => rfl

/-- A listener is attached in a piece of work that shows nothing else. So the
cut at this output leaves no event between the reply and the listener. -/
theorem subscribed_step {c : Nat} {t : Target}
    (hstep : networkStep instances server s a = some (s', more))
    (hmem : .subscribed c t ∈ serviceOutputs i more) :
    brokerEvents more = [] ∧ s'.broker = s.broker ∧
      (serviceOutputs i more).filterMap PubSubOutput.emitted? = [] := by
  rcases (networkEffect hstep).services i with ⟨-, hnone⟩ | ⟨b, hmoves, hpiece⟩
  · rw [hnone] at hmem
    cases hmem
  · cases hlocal : b.isLocal with
    | true =>
        obtain rfl := hmoves.resolve_right (by simp [hlocal])
        simp only [networkStep, hlocal, if_true] at hstep
        obtain ⟨outputs, -, rfl, -, hbroker⟩ := serviceStep_eq hstep
        exact ⟨brokerEvents_service i outputs, hbroker, (local_step hlocal hpiece).2⟩
    | false =>
        cases b with
        | process ok =>
            rw [(process_eq hpiece).2.2] at hmem
            cases hmem
        | emit event =>
            rw [(emit_eq hpiece).1] at hmem
            cases List.mem_singleton.mp hmem
        | _ => cases hlocal

/-- Where the messages for an attached listener are: heard, or still to
arrive. -/
def toHear (i : ι) (c : Nat) (t : Target) (out : List (NetworkEvent ι T)) (s : Network ι) :
    List ServerEvent :=
  heard c (serviceOutputs i out) ++ (messagesFor t (s.broker.inbox i)).map t.event

/-- What an attached listener has to hear since it was attached. -/
def HearsSince (server : PubSubServer) (i : ι) (c : Nat) (t : Target)
    (before since out : List (NetworkEvent ι T)) (s : Network ι) : Prop :=
  ∃ early, early <+ admitted server.toMatching t (brokerEvents before) ∧
    toHear i c t out s =
      (early ++ admitted server.toMatching t (brokerEvents since)).map t.event

omit [DecidableEq ι] in
/-- Without an event there is nothing to hear. -/
theorem heardFrom_silent {M : Type} (c : Nat) {outputs : List (PubSubOutput M)}
    (h : outputs.filterMap PubSubOutput.emitted? = []) (on : Option Target) :
    heardFrom c on outputs = [] := by
  induction outputs generalizing on with
  | nil => rfl
  | cons o outputs ih =>
      cases o with
      | emitted event => cases h
      | _ => exact ih h _

/-- A listener that is attached now was attached for this target only. -/
theorem subscribed_once {c : Nat} {t : Target}
    (hrun : (networkMachine instances server).run as = some (s, out))
    (hmem : .subscribed c t ∈ serviceOutputs i out) :
    ∀ t', .subscribed c t' ∈ serviceOutputs i out → t' = t := by
  obtain ⟨bs, -, hservice⟩ := service_run hrun i
  have hrecord := (recordsRun_run hservice).2
  intro t' ht'
  rw [← ((hrecord.subscribed c t').mpr ht').2, ((hrecord.subscribed c t).mpr hmem).2]

/-- A listener starts with what was written to the connection before. That is a
part of what the broker served in the time before, in the same order. -/
theorem hearsSince_start {c : Nat} {t : Target}
    (hrun : (networkMachine instances server).run as = some (s, out))
    (hstep : networkStep instances server s a = some (s', more)) {start since : List (NetworkEvent ι T)}
    (hcut : more = start ++ .service i (.subscribed c t) :: since) :
    HearsSince server i c t (out ++ start) since (out ++ more) s' := by
  have hmem : .subscribed c t ∈ serviceOutputs i more := by
    rw [hcut]
    simp [serviceOutputs, NetworkEvent.serviceOf?]
  obtain ⟨hbroker, hsame, hemitted⟩ := subscribed_step hstep hmem
  obtain ⟨bs, hruns⟩ := broker_run hrun
  have hlater := (networkMachine instances server).runFrom_snoc hrun hstep
  have honce := subscribed_once hlater (by
    rw [serviceOutputs_append]
    exact List.mem_append_right _ hmem)
  have hheard : heard c (serviceOutputs i out) <+
      ((brokerEvents out).filterMap (·.receivedFor? i t)).map t.event := by
    rw [← (fits_run hrun).emitted]
    refine heardFrom_sublist (fun t' ht' => honce t' ?_) (fun t' ht' => by cases ht')
    rw [serviceOutputs_append]
    exact List.mem_append_left _ ht'
  obtain ⟨received, hreceived, heq⟩ := List.sublist_map_iff.mp hheard
  have hsince : brokerEvents since = [] := by
    have hparts := hbroker
    rw [hcut, brokerEvents_append] at hparts
    exact (List.append_eq_nil_iff.mp hparts).2
  refine ⟨received ++ messagesFor t (s.broker.inbox i), ?_, ?_⟩
  · have hstream : received ++ messagesFor t (s.broker.inbox i) <+ stream i t (brokerEvents out)
        s.broker := hreceived.append (List.Sublist.refl _)
    refine (hstream.trans (stream_sublist hruns i t)).trans ?_
    rw [brokerEvents_append, admitted_append]
    exact List.sublist_append_left _ _
  · have hnone : admitted server.toMatching t (brokerEvents since) = [] := by
      rw [hsince]
      rfl
    rw [hnone, List.append_nil, List.map_append, toHear, hsame, serviceOutputs_append, heard,
      heardFrom_append, heardFrom_silent c hemitted, List.append_nil]
    exact congrArg (· ++ _) heq

/-- A step adds what the server processes. The target is subscribed at the
server, so what is served and admitted is put in the inbox, and what leaves the
inbox is heard. -/
theorem HearsSince.step {c : Nat} {t : Target} {before since : List (NetworkEvent ι T)}
    (h : HearsSince server i c t before since out s)
    (hrun : (networkMachine instances server).run as = some (s, out))
    (hstep : networkStep instances server s a = some (s', more))
    (hattached : (s.services i).attached c = some t)
    (hreset : .reset i ∉ brokerEvents (out ++ more))
    (hdetached : .detached c ∉ serviceOutputs i more) :
    HearsSince server i c t before (since ++ more) (out ++ more) s' := by
  rw [brokerEvents_append, List.mem_append, not_or] at hreset
  have hsubscribed := subscribed_of_attached hrun hreset.1 hattached
  have heffect := networkEffect hstep
  obtain ⟨bs, -, hservice⟩ := service_run hrun i
  obtain ⟨bs', hruns⟩ := broker_run hrun
  have hdelivery := deliveryInv_run hservice
  have htold : .subscribed c t ∈ serviceOutputs i out := by
    simp only [PubSub.attached, Option.ite_none_right_eq_some, Option.some.injEq] at hattached
    exact ((recordsRun_run hservice).2.subscribed c t).mp
      ⟨((hdelivery.listeners.live c).mp hattached.1).1, hattached.2⟩
  have honce : ∀ t', .subscribed c t' ∈ serviceOutputs i more → t' = t := by
    intro t' hmem
    refine subscribed_once (i := i) ((networkMachine instances server).runFrom_snoc hrun hstep)
      (c := c) ?_ t' ?_ <;> rw [serviceOutputs_append, List.mem_append]
    · exact Or.inl htold
    · exact Or.inr hmem
  have hheard : heard c (serviceOutputs i (out ++ more)) = heard c (serviceOutputs i out) ++
      ((brokerEvents more).filterMap (·.receivedFor? i t)).map t.event := by
    rw [serviceOutputs_append, heard, heardFrom_append, ← hdelivery.attached c, hattached,
      (heardFrom_attached honce hdetached).1, heffect.emitted]
    rfl
  have hstream : (brokerEvents more).filterMap (·.receivedFor? i t) ++
      messagesFor t (s'.broker.inbox i) = messagesFor t (s.broker.inbox i) ++
        admitted server.toMatching t (brokerEvents more) := by
    rcases heffect.broker with ⟨hsame, hnone⟩ | ⟨b, hb⟩
    · rw [hsame, hnone]
      simp [admitted]
    · have hadded : stream i t (brokerEvents out ++ brokerEvents more) s'.broker =
          stream i t (brokerEvents out) s.broker ++ if t ∈ s.broker.subscriptions i then
            admitted server.toMatching t (brokerEvents more) else [] :=
        stream_step (Broker.nodup_run hruns) hb hreset.2
      rw [if_pos hsubscribed] at hadded
      simp only [stream, List.filterMap_append, List.append_assoc] at hadded
      exact List.append_cancel_left hadded
  obtain ⟨early, hearly, hall⟩ := h
  refine ⟨early, hearly, ?_⟩
  calc toHear i c t (out ++ more) s'
      = heard c (serviceOutputs i out) ++ ((brokerEvents more).filterMap (·.receivedFor? i t) ++
          messagesFor t (s'.broker.inbox i)).map t.event := by
        rw [toHear, hheard, List.map_append, List.append_assoc]
    _ = toHear i c t out s ++ (admitted server.toMatching t (brokerEvents more)).map t.event := by
        rw [hstream, List.map_append, ← List.append_assoc, toHear]
    _ = (early ++ admitted server.toMatching t (brokerEvents (since ++ more))).map t.event := by
        rw [hall, brokerEvents_append, admitted_append, ← List.map_append, List.append_assoc]

/-! ## Main results -/

/-- A caller that did not unsubscribe is attached. A listener is only removed
by the first Unsubscribe call of its caller, which shows. -/
theorem attached_of_cut {c : Nat} {t : Target} {before since : List (NetworkEvent ι T)}
    (hrun : (networkMachine instances server).run as =
      some (s, before ++ .service i (.subscribed c t) :: since))
    (hdetached : .detached c ∉ serviceOutputs i since) : (s.services i).attached c = some t := by
  obtain ⟨bs, -, hservice⟩ := service_run hrun i
  have hcut : serviceOutputs i (before ++ .service i (.subscribed c t) :: since) =
      serviceOutputs i before ++ .subscribed c t :: serviceOutputs i since := by
    rw [serviceOutputs_append]
    simp [serviceOutputs, NetworkEvent.serviceOf?]
  have hmem : .subscribed c t ∈
      serviceOutputs i (before ++ .service i (.subscribed c t) :: since) := by
    rw [hcut]
    exact List.mem_append_right _ List.mem_cons_self
  have honce := subscribed_once hrun hmem
  rw [(deliveryInv_run hservice).attached c, hcut, List.foldl_append, List.foldl_cons]
  have hstart : ∀ on, attachedTo c on (.subscribed c t : PubSubOutput T) = some t := fun _ =>
    if_pos rfl
  rw [hstart]
  refine (heardFrom_attached (fun t' ht' => honce t' ?_) hdetached).2
  rw [hcut]
  exact List.mem_append_right _ (List.mem_cons_of_mem _ ht')

/-- From where a listener is attached, and as long as it is and the connection
is not reset, it has to hear what is admitted to its subscription: by
induction on the steps since. -/
theorem hearsSince_run {c : Nat} {t : Target} {before since : List (NetworkEvent ι T)}
    (hrun : (networkMachine instances server).run as = some (s, out))
    (hcut : out = before ++ .service i (.subscribed c t) :: since)
    (hdetached : .detached c ∉ serviceOutputs i since) (hreset : .reset i ∉ brokerEvents out) :
    HearsSince server i c t before since out s := by
  refine (networkMachine instances server).run_history (I := fun out s => ∀ before since,
    out = before ++ .service i (.subscribed c t) :: since → .detached c ∉ serviceOutputs i since →
      .reset i ∉ brokerEvents out → HearsSince server i c t before since out s)
    ?_ ?_ hrun before since hcut hdetached hreset
  · intro before since hcut
    cases before <;> cases hcut
  · intro hist seen s a s' more hseen h hstep before since hcut hdetached hreset
    rcases Machine.cut_append hcut with ⟨rest, rfl, rfl⟩ | ⟨start, hmore, rfl⟩
    · rw [serviceOutputs_append, List.mem_append, not_or] at hdetached
      have hbefore := hreset
      rw [brokerEvents_append, List.mem_append, not_or] at hbefore
      exact (h before rest rfl hdetached.1 hbefore.1).step hseen hstep
        (attached_of_cut hseen hdetached.1) hreset hdetached.2
    · exact hearsSince_start hseen hstep hmore

/-- **Subscribed means receiving.** Once a `subscribe` or `psubscribe` call
has resolved, and as long as its connection does not break and its
`Unsubscribe` function is not called, what has started the handler, what is
queued and what is on its way are together exactly the messages that the
server processes for the target from then on, in that order and with the
decoded payload, after some that it had written before. -/
theorem subscribed_receives (instances : Instances ι T) (server : PubSubServer)
    {as : List (NetworkAction ι T)} {s : Network ι} {before since : List (NetworkEvent ι T)} {i : ι}
    {c : Nat} {t : Target}
    (hrun : (networkMachine instances server).run as =
      some (s, before ++ .service i (.subscribed c t) :: since))
    (hdetached : .detached c ∉ serviceOutputs i since)
    (hreset : .reset i ∉ brokerEvents (before ++ .service i (.subscribed c t) :: since)) :
    ∃ early, early <+ admitted server.toMatching t (brokerEvents before) ∧
      startsOf c (serviceOutputs i (before ++ .service i (.subscribed c t) :: since)) ++
          (pendingFor c (s.services i).queue).filterMap (decoded (instances.deps i)) ++
          ((messagesFor t (s.broker.inbox i)).map t.event).filterMap (decoded (instances.deps i)) =
        ((early ++ admitted server.toMatching t (brokerEvents since)).map t.event).filterMap
          (decoded (instances.deps i)) := by
  obtain ⟨early, hearly, hall⟩ := hearsSince_run hrun rfl hdetached hreset
  obtain ⟨bs, -, hservice⟩ := service_run hrun i
  refine ⟨early, hearly, ?_⟩
  rw [((deliveryInv_run hservice).delivered c).starts, ← List.filterMap_append]
  exact congrArg _ hall

/-- The channel of the run of two instances. -/
def newsChannel : Target := ⟨.channel, "app:news".toList⟩

/-- Both numbers are on record: one started the handler, one is on its way.
Nothing that was served since the listener was attached is missing. -/
theorem subscribed_receives_news :
    ∃ s before since, (networkMachine twoInstances plainServer).run newsRun =
        some (s, before ++ .service true (.subscribed 0 newsChannel) :: since) ∧
      startsOf 0 (serviceOutputs true
          (before ++ .service true (.subscribed 0 newsChannel) :: since)) ++
          (pendingFor 0 (s.services true).queue).filterMap (decoded (twoInstances.deps true)) ++
          ((messagesFor newsChannel (s.broker.inbox true)).map newsChannel.event).filterMap
            (decoded (twoInstances.deps true)) =
        [(.message "app:news".toList "5".toList, 5), (.message "app:news".toList "6".toList, 6)] := by
  have hrun : (networkMachine twoInstances plainServer).run newsRun =
      some (_, [_] ++ .service true (.subscribed 0 newsChannel) :: _) := rfl
  obtain ⟨early, hearly, hall⟩ := subscribed_receives twoInstances plainServer hrun
    (by decide) (by decide)
  obtain rfl := List.sublist_nil.mp hearly
  exact ⟨_, [_], _, hrun, hall.trans rfl⟩

/-! ### Namespaces -/

omit [DecidableEq ι] in
/-- A listener that was never attached hears nothing. The induction is on the
outputs. -/
theorem heardFrom_never {M : Type} {c : Nat} {outputs : List (PubSubOutput M)}
    (h : ∀ t, .subscribed c t ∉ outputs) : heardFrom c none outputs = [] := by
  induction outputs with
  | nil => rfl
  | cons o outputs ih =>
      have hrest := ih fun t hmem => h t (List.mem_cons_of_mem _ hmem)
      cases o with
      | subscribed c' t =>
          have hne : c' ≠ c := by
            rintro rfl
            exact h t List.mem_cons_self
          simpa [heardFrom, heardIn, attachedTo, hne] using hrest
      | detached c' => simpa [heardFrom, heardIn, attachedTo] using hrest
      | _ => exact hrest

/-- Who is started has called `subscribe` or `psubscribe`, with the bare name
of its target. -/
theorem started_caller (hrun : (networkMachine instances server).run as = some (s, out)) {c : Nat}
    (hstarted : startsOf c (serviceOutputs i out) ≠ []) :
    ∃ name, .service i (((s.services i).service.callers c).target.kind.join name) ∈ as ∧
      (instances.service i).keyBuilder.applyNamespace name =
        .ok ((s.services i).service.callers c).target.name := by
  obtain ⟨bs, hmoves, hservice⟩ := service_run hrun i
  obtain ⟨hinv, hrecord⟩ := recordsRun_run hservice
  obtain ⟨t, hsubscribed⟩ : ∃ t, .subscribed c t ∈ serviceOutputs i out := by
    by_contra hnever
    obtain ⟨handled, hheard, hstarts, -⟩ := (deliveryInv_run hservice).delivered c
    rw [heard, heardFrom_never fun t hmem => hnever ⟨t, hmem⟩] at hheard
    rw [(List.append_eq_nil_iff.mp hheard.symm).1] at hstarts
    exact hstarted hstarts
  obtain ⟨name, hjoin, hname⟩ :=
    hrecord.joined_call (hrecord.caller_of_subscribed hinv hsubscribed).1
  obtain ⟨a, ha, hmove⟩ := hmoves _ hjoin
  refine ⟨name, ?_, hname⟩
  rcases hmove with rfl | hlocal
  · exact ha
  · cases hkind : ((s.services i).service.callers c).target.kind <;> rw [hkind] at hlocal <;>
      cases hlocal

@[simp] theorem Target.event_raw (t : Target) (m : Publish) : (t.event m).raw = m.2 := by
  obtain ⟨kind, name⟩ := t
  cases kind <;> rfl

/-- The event of a PUBLISH that is admitted carries its channel. -/
theorem Target.event_channel {t : Target} {m : Publish} (h : t.admits m = true) :
    (t.event m).channel = m.1 := by
  obtain ⟨kind, name⟩ := t
  cases kind with
  | channel => simpa [Target.admits, Target.event, ServerEvent.channel] using h
  | pattern => rfl

/-- A message is decoded exactly if its payload is, and the event stays
with it. -/
theorem decoded_eq_some {M : Type} {deps : PubSubDeps M} {event event' : ServerEvent} {message : M} :
    decoded deps event = some (event', message) ↔
      event = event' ∧ deps.deserialize event.raw = .ok message := by
  unfold decoded
  cases deps.deserialize event.raw <;> simp

/-- A name that is not refused is not empty and gets the namespace in front. -/
theorem applyNamespace_eq_ok {kb : KeyBuilder} {bare full : Text}
    (h : kb.applyNamespace bare = .ok full) : bare ≠ [] ∧ full = kb.getNamespacePrefix ++ bare := by
  unfold KeyBuilder.applyNamespace at h
  split at h
  · cases h
  · rename_i hne
    exact ⟨by simpa using hne, (Except.ok.inj h).symm⟩

/-- What a bare name matches within its namespace: a pattern by the server's
matcher. -/
def TargetKind.matches (kind : TargetKind) (name channel : Text) : Bool :=
  match kind with
  | .channel => name = channel
  | .pattern => Glob.stringmatchlen name channel

/-- **Cut at the namespace.**  A target of one accepted namespace that admits a
channel of another is of the same namespace. -/
theorem admits_namespaced {separator : Char} (hspecial : Glob.special separator = false)
    {kb kb' : KeyBuilder} (hsep : kb.separator = [separator])
    (hsep' : kb'.separator = [separator])
    (hkb : validateNamespace kb.nameSpace [separator] = .ok ())
    (hkb' : validateNamespace kb'.nameSpace [separator] = .ok ())
    {t : Target} {m : Publish} {name channel : Text} (hname : kb.applyNamespace name = .ok t.name)
    (hchannel : kb'.applyNamespace channel = .ok m.1) (hadmits : t.admits m = true) :
    kb'.nameSpace = kb.nameSpace ∧ t.kind.matches name channel = true := by
  have hns := (validateNamespace_eq_ok.mp hkb).1
  have hns' := (validateNamespace_eq_ok.mp hkb').1
  have hfree : separator ∉ kb.nameSpace := by
    rw [← List.singleton_infix_iff]
    exact hns.no_separator
  have hfree' : separator ∉ kb'.nameSpace := by
    rw [← List.singleton_infix_iff]
    exact hns'.no_separator
  have hfull : t.name = kb.nameSpace ++ separator :: name := by
    simp [(applyNamespace_eq_ok hname).2, KeyBuilder.getNamespacePrefix, hsep]
  obtain ⟨hne, hprefixed⟩ := applyNamespace_eq_ok hchannel
  have hfull' : m.1 = kb'.nameSpace ++ separator :: channel := by
    simp [hprefixed, KeyBuilder.getNamespacePrefix, hsep']
  unfold Target.admits at hadmits
  cases hkind : t.kind with
  | channel =>
      simp only [hkind, decide_eq_true_eq] at hadmits
      rw [hfull, hfull'] at hadmits
      obtain ⟨heq, rfl⟩ := WordOverlap.cut_unique hfree hfree' hadmits
      exact ⟨heq.symm, by simp [TargetKind.matches]⟩
  | pattern =>
      simp only [hkind] at hadmits
      have hliteral : ∀ c ∈ kb.nameSpace ++ [separator], Glob.special c = false := by
        intro c hc
        rcases List.mem_append.mp hc with hc | hc
        · rw [special_eq_contains]
          simpa using hns.no_metacharacter c hc
        · rw [List.mem_singleton.mp hc]
          exact hspecial
      have hsplit : kb.nameSpace ++ separator :: name = kb.nameSpace ++ [separator] ++ name := by simp
      rw [hfull, hfull', hsplit, Glob.stringmatchlen_literal_append hliteral (by simp)] at hadmits
      obtain ⟨rest, hcut, hmatch⟩ := hadmits
      obtain ⟨heq, rfl⟩ := WordOverlap.cut_unique hfree' hfree (by simpa using hcut)
      refine ⟨heq, ?_⟩
      rw [TargetKind.matches, Glob.stringmatchlen_eq_globMatch name hne]
      exact hmatch

/-- **Messages stay in their namespace.**  When all instances have accepted
namespaces and the same separator, a handler is only started for a call of
`publish` of an instance of its own namespace, on the channel, or a channel of
the pattern, that its `subscribe` or `psubscribe` call named, and with what its
serializer decodes of the payload. -/
theorem messages_stay_in_namespace (instances : Instances ι T) (server : PubSubServer)
    {separator : Char} (hspecial : Glob.special separator = false)
    (haccepted : ∀ i, (instances.service i).keyBuilder.separator = [separator] ∧
      validateNamespace (instances.service i).keyBuilder.nameSpace [separator] = .ok ())
    {as : List (NetworkAction ι T)} {s : Network ι} {out : List (NetworkEvent ι T)}
    (hrun : (networkMachine instances server).run as = some (s, out)) {i : ι} {c : Nat}
    {event : ServerEvent} {message : T}
    (hstarted : .started c event message ∈ serviceOutputs i out) :
    ∃ p ∈ publications out, ∃ (kind : TargetKind) (name : Text),
      .service i (kind.join name) ∈ as ∧
      (instances.service p.publisher).keyBuilder.nameSpace =
        (instances.service i).keyBuilder.nameSpace ∧
      kind.matches name p.channel = true ∧
      event.channel = (instances.service i).keyBuilder.getNamespacePrefix ++ p.channel ∧
      ∃ raw, (instances.service p.publisher).serializer.serialize p.message = .ok raw ∧
        (instances.service i).serializer.deserialize (raw.getD []) = .ok message := by
  have hmem : (event, message) ∈ startsOf c (serviceOutputs i out) :=
    List.mem_filterMap.mpr ⟨_, hstarted, by simp [PubSubOutput.startOf]⟩
  obtain ⟨order, hserved, -, hcalls⟩ := served_order hrun
  obtain ⟨p, hp, hheard⟩ :=
    List.mem_filterMap.mp ((starts_sublist hrun hserved i c).subset hmem)
  obtain ⟨name, hjoin, hname⟩ := started_caller hrun (List.ne_nil_of_mem hmem)
  generalize ((s.services i).service.callers c).target = t at hheard hjoin hname
  simp only [Instances.heardAs, Option.ite_none_right_eq_some] at hheard
  obtain ⟨hadmits, hdecoded⟩ := hheard
  obtain ⟨hpublished, hchannel, raw, hraw, hsent⟩ := hcalls p hp
  obtain ⟨hsep, hkb⟩ := haccepted i
  obtain ⟨hsep', hkb'⟩ := haccepted p.publisher
  obtain ⟨hsame, hmatches⟩ := admits_namespaced hspecial hsep hsep' hkb hkb' hname hchannel hadmits
  rw [decoded_eq_some, Target.event_raw, hsent] at hdecoded
  obtain ⟨rfl, hmessage⟩ := hdecoded
  refine ⟨p, hpublished, t.kind, name, hjoin, hsame, hmatches, ?_, raw, hraw, hmessage⟩
  rw [Target.event_channel hadmits, (applyNamespace_eq_ok hchannel).2,
    KeyBuilder.getNamespacePrefix, KeyBuilder.getNamespacePrefix, hsame, hsep, hsep']

/-- The handler of the run starts with a message that an instance of its own
namespace published. -/
theorem messages_stay_in_namespace_news :
    ∃ s out, (networkMachine twoInstances plainServer).run newsRun = some (s, out) ∧
      ∃ p ∈ publications out, ∃ (kind : TargetKind) (name : Text),
        .service true (kind.join name) ∈ newsRun ∧
        (twoInstances.service p.publisher).keyBuilder.nameSpace =
          (twoInstances.service true).keyBuilder.nameSpace ∧
        kind.matches name p.channel = true ∧
        "app:news".toList = (twoInstances.service true).keyBuilder.getNamespacePrefix ++ p.channel ∧
        ∃ raw, (twoInstances.service p.publisher).serializer.serialize p.message = .ok raw ∧
          (twoInstances.service true).serializer.deserialize (raw.getD []) = .ok 5 := by
  obtain ⟨s, out, hrun, hstarted⟩ : ∃ s out,
      (networkMachine twoInstances plainServer).run newsRun = some (s, out) ∧
      .started 0 (.message "app:news".toList "5".toList) 5 ∈ serviceOutputs true out :=
    ⟨_, _, rfl, by decide⟩
  exact ⟨s, out, hrun, messages_stay_in_namespace twoInstances plainServer (by decide)
    (fun _ => ⟨rfl, rfl⟩) hrun hstarted⟩

end NestCache
