import NestCache.SubscriptionSafety

/-!
# Deliveries in traces and queues

What a listener hears is a function of the trace: the events emitted between
its attachment and its detachment that carry its target.  Every step takes at
most one job from the front of the queue and puts new ones at its end.  What it
shows of deliveries and reports is determined by these jobs (`JobLaws`), and so
is what it leaves behind of unsubscriptions (`UnsubLaws`).
-/

namespace NestCache

variable {M : Type}

/-! ## Reading a trace -/

/-- The target a caller's listener is attached for, one output later. -/
def attachedTo (c : Nat) (on : Option Target) : PubSubOutput M → Option Target
  | .subscribed c' t => if c' = c then some t else on
  | .detached c' => if c' = c then none else on
  | _ => on

/-- The event a listener attached for `on` hears in one output. -/
def heardIn (on : Option Target) : PubSubOutput M → List ServerEvent
  | .emitted event => if on = some event.target then [event] else []
  | _ => []

/-- The events a caller's listener hears, starting attached for `on`. -/
def heardFrom (c : Nat) : Option Target → List (PubSubOutput M) → List ServerEvent
  | _, [] => []
  | on, o :: out => heardIn on o ++ heardFrom c (attachedTo c on o) out

/-- The events a caller's listener hears. -/
def heard (c : Nat) (out : List (PubSubOutput M)) : List ServerEvent := heardFrom c none out

/-- What is heard in two outputs is heard part by part, the second part as the
first has left the listener attached. -/
theorem heardFrom_append (c : Nat) (on : Option Target) (out more : List (PubSubOutput M)) :
    heardFrom c on (out ++ more) =
      heardFrom c on out ++ heardFrom c (out.foldl (attachedTo c) on) more := by
  induction out generalizing on with
  | nil => rfl
  | cons o out ih => simp [heardFrom, ih]

/-- The outputs that decide what a caller hears. -/
def PubSubOutput.concerns (c : Nat) : PubSubOutput M → Bool
  | subscribed c' _ | detached c' => c' = c
  | emitted _ => true
  | _ => false

/-- Nothing else matters. -/
theorem heardFrom_filter (c : Nat) (on : Option Target) (out : List (PubSubOutput M)) :
    heardFrom c on (out.filter (·.concerns c)) = heardFrom c on out := by
  induction out generalizing on with
  | nil => rfl
  | cons o out ih =>
      by_cases ho : o.concerns c = true
      · simp [List.filter_cons_of_pos ho, heardFrom, ih]
      · have hsame : heardIn on o = [] ∧ attachedTo c on o = on := by
          cases o <;> simp_all [PubSubOutput.concerns, heardIn, attachedTo]
        simp [List.filter_cons_of_neg ho, heardFrom, ih, hsame]

/-- The start of a caller's handler that an output shows. -/
def PubSubOutput.startOf (c : Nat) : PubSubOutput M → Option (ServerEvent × M)
  | started c' event message => if c' = c then some (event, message) else none
  | _ => none

/-- The undecodable payload of a caller that an output shows. -/
def PubSubOutput.undecodableOf (c : Nat) : PubSubOutput M → Option (ServerEvent × Thrown)
  | undecodable c' event error => if c' = c then some (event, error) else none
  | _ => none

/-- The failure that an output shows, with the channel of its event. -/
def PubSubOutput.failure : PubSubOutput M → Option (Text × Thrown)
  | undecodable _ event error | handlerThrew _ event error | handlerRejected _ event error =>
      some (event.channel, error)
  | _ => none

/-- The call of the observability callback that an output shows. -/
def PubSubOutput.report : PubSubOutput M → Option (Text × Details)
  | onEvent name data => some (name, data)
  | _ => none

/-- The starts of a caller's handler. -/
def startsOf (c : Nat) (out : List (PubSubOutput M)) : List (ServerEvent × M) :=
  out.filterMap (·.startOf c)

/-- The payloads of a caller's events that failed to decode. -/
def undecodablesOf (c : Nat) (out : List (PubSubOutput M)) : List (ServerEvent × Thrown) :=
  out.filterMap (·.undecodableOf c)

/-- The failures of all handlers and payloads. -/
def failuresOf (out : List (PubSubOutput M)) : List (Text × Thrown) :=
  out.filterMap (·.failure)

/-- What the observability callback was called with. -/
def reportsOf (out : List (PubSubOutput M)) : List (Text × Details) :=
  out.filterMap (·.report)

/-- The call that reports a failure. -/
def handlerErrorReport (failure : Text × Thrown) : Text × Details :=
  ("error".toList, handlerErrorData failure.1 failure.2)

/-- The start an event leads to, when its payload decodes. -/
def decoded (deps : PubSubDeps M) (event : ServerEvent) : Option (ServerEvent × M) :=
  match deps.deserialize event.raw with
  | .ok message => some (event, message)
  | .error _ => none

/-- The failure an event leads to, when its payload does not decode. -/
def undecoded (deps : PubSubDeps M) (event : ServerEvent) : Option (ServerEvent × Thrown) :=
  match deps.deserialize event.raw with
  | .ok _ => none
  | .error error => some (event, error)

/-! ## Reading a queue -/

/-- The event that a job delivers to a caller. -/
def Job.deliveryTo (c : Nat) : Job → Option ServerEvent
  | deliver c' event => if c' = c then some event else none
  | _ => none

/-- The failure that a job reports. -/
def Job.reported : Job → Option (Text × Thrown)
  | report channel error => some (channel, error)
  | _ => none

/-- The caller whose `Unsubscribe` function, or code that awaits it, the job
resumes. -/
def Job.unsubscriber : Job → Option Nat
  | resumeRelease c _ | resumeUnsubscribe c _ | resumeAwait c => some c
  | _ => none

/-- The events queued for a caller. -/
def pendingFor (c : Nat) (queue : List Job) : List ServerEvent :=
  queue.filterMap (·.deliveryTo c)

/-- The reports queued. -/
def pendingReports (queue : List Job) : List (Text × Thrown) := queue.filterMap (·.reported)

@[simp] theorem pendingFor_append (c : Nat) (queue more : List Job) :
    pendingFor c (queue ++ more) = pendingFor c queue ++ pendingFor c more :=
  List.filterMap_append

@[simp] theorem pendingReports_append (queue more : List Job) :
    pendingReports (queue ++ more) = pendingReports queue ++ pendingReports more :=
  List.filterMap_append

/-- The head of the queue counts only if it is a delivery to this caller. -/
theorem pendingFor_cons (c : Nat) (job : Job) (queue : List Job) :
    pendingFor c (job :: queue) = (job.deliveryTo c).toList ++ pendingFor c queue := by
  cases h : job.deliveryTo c with
  | none => simp [pendingFor, h]
  | some event => simp [pendingFor, h]

/-- Nothing is pending for a caller exactly if no delivery to it is queued. -/
theorem pendingFor_eq_nil {c : Nat} {queue : List Job} :
    pendingFor c queue = [] ↔ ∀ event, .deliver c event ∉ queue := by
  simp only [pendingFor, List.filterMap_eq_nil_iff]
  constructor
  · intro h event hmem
    simpa [Job.deliveryTo] using h _ hmem
  · intro h j hj
    cases j with
    | deliver c' event =>
        have hne : c' ≠ c := by
          rintro rfl
          exact h event hj
        simp [Job.deliveryTo, hne]
    | _ => rfl

/-! ## Listeners -/

/-- The target a caller's listener is attached for. -/
def PubSub.attached (s : PubSub) (c : Nat) : Option Target :=
  if c ∈ s.listeners then some (s.service.callers c).target else none

/-- The listeners are those of the live callers, each attached once. -/
structure ListenerInv (s : PubSub) : Prop where
  nodup : s.listeners.Nodup
  live : ∀ c, c ∈ s.listeners ↔
    (s.service.callers c).phase = .listening ∧ (s.service.callers c).released = false

/-- Steps that touch neither the callers nor the listeners. -/
theorem ListenerInv.frame {s s' : PubSub} (h : ListenerInv s)
    (hcallers : s'.service.callers = s.service.callers) (hlisteners : s'.listeners = s.listeners) :
    ListenerInv s' := by
  refine ⟨?_, ?_⟩
  · rw [hlisteners]
    exact h.nodup
  · rw [hcallers, hlisteners]
    exact h.live

/-! ## What the jobs of a step decide -/

/-- A job that neither delivers nor reports. -/
def Job.quiet : Job → Bool
  | deliver _ _ | report _ _ => false
  | _ => true

/-- An output that is neither part of a delivery nor of a report. -/
def PubSubOutput.quiet : PubSubOutput M → Bool
  | threw _ | sent _ | rejected _ | unsubscribeSettled _ _ _ | unsubscribeObserved _ => true
  | _ => false

/-- One step ran the jobs `ran` and queued the jobs `pushed`: they decide what
it shows of deliveries and reports. -/
structure JobLaws (deps : PubSubDeps M) (s s' : PubSub) (out : List (PubSubOutput M))
    (ran pushed : List Job) : Prop where
  queue : ∃ kept, s.queue = ran ++ kept ∧ s'.queue = kept ++ pushed
  attached : ∀ c, s'.attached c = out.foldl (attachedTo c) (s.attached c)
  heard : ∀ c, pendingFor c pushed = heardFrom c (s.attached c) out
  starts : ∀ c, startsOf c out = (pendingFor c ran).filterMap (decoded deps)
  undecodables : ∀ c, undecodablesOf c out = (pendingFor c ran).filterMap (undecoded deps)
  failures : pendingReports pushed = failuresOf out
  reports : reportsOf out =
    if deps.hasOnEvent then (pendingReports ran).map handlerErrorReport else []
  escaped : ∀ e, .escaped e ∉ out

/-- Quiet jobs deliver and report nothing. -/
theorem pending_quiet {jobs : List Job} (h : ∀ j ∈ jobs, j.quiet = true) :
    (∀ c, pendingFor c jobs = []) ∧ pendingReports jobs = [] := by
  constructor
  · intro c
    rw [pendingFor, List.filterMap_eq_nil_iff]
    intro j hj
    have hquiet := h j hj
    cases j <;> first | rfl | cases hquiet
  · rw [pendingReports, List.filterMap_eq_nil_iff]
    intro j hj
    have hquiet := h j hj
    cases j <;> first | rfl | cases hquiet

/-- A quiet output changes no listener and shows nothing. -/
theorem quiet_output {o : PubSubOutput M} (h : o.quiet = true) (c : Nat) (on : Option Target) :
    attachedTo c on o = on ∧ heardIn on o = [] ∧ o.startOf c = none ∧
      o.undecodableOf c = none ∧ o.failure = none ∧ o.report = none ∧ ∀ e, o ≠ .escaped e := by
  cases o with
  | threw | sent | rejected | unsubscribeSettled | unsubscribeObserved =>
      exact ⟨rfl, rfl, rfl, rfl, rfl, rfl, by simp⟩
  | _ => cases h

/-- Quiet outputs change no listener and show nothing. So they can be left out
of every projection that the results speak of. -/
theorem quiet_trace {out : List (PubSubOutput M)} (h : ∀ o ∈ out, o.quiet = true) (c : Nat)
    (on : Option Target) : out.foldl (attachedTo c) on = on ∧ heardFrom c on out = [] ∧
      startsOf c out = [] ∧ undecodablesOf c out = [] ∧ failuresOf out = [] ∧ reportsOf out = [] ∧
      ∀ e, .escaped e ∉ out := by
  induction out with
  | nil => simp [heardFrom, startsOf, undecodablesOf, failuresOf, reportsOf]
  | cons o out ih =>
      obtain ⟨hfold, hheard, hstarts, hundec, hfail, hreports, hescaped⟩ :=
        ih fun o' ho' => h o' (List.mem_cons_of_mem _ ho')
      obtain ⟨h1, h2, h3, h4, h5, h6, h7⟩ := quiet_output (h o List.mem_cons_self) c on
      refine ⟨by simp [h1, hfold], by simp [heardFrom, h1, h2, hheard], ?_, ?_, ?_, ?_, ?_⟩
      · rw [startsOf, List.filterMap_cons_none h3]
        exact hstarts
      · rw [undecodablesOf, List.filterMap_cons_none h4]
        exact hundec
      · rw [failuresOf, List.filterMap_cons_none h5]
        exact hfail
      · rw [reportsOf, List.filterMap_cons_none h6]
        exact hreports
      · intro e hmem
        rcases List.mem_cons.mp hmem with heq | hmem
        · exact h7 e heq.symm
        · exact hescaped e hmem

/-- Quiet jobs with quiet outputs obey the laws. All that is shown of
deliveries and reports is empty on both sides. -/
theorem JobLaws.quiet {deps : PubSubDeps M} {s s' : PubSub} {out : List (PubSubOutput M)}
    {ran pushed kept : List Job} (hqueue : s.queue = ran ++ kept) (hqueue' : s'.queue = kept ++ pushed)
    (hattached : ∀ c, s'.attached c = s.attached c) (hran : ∀ j ∈ ran, j.quiet = true)
    (hpushed : ∀ j ∈ pushed, j.quiet = true) (hout : ∀ o ∈ out, o.quiet = true) :
    JobLaws deps s s' out ran pushed := by
  obtain ⟨hran1, hran2⟩ := pending_quiet hran
  obtain ⟨hpushed1, hpushed2⟩ := pending_quiet hpushed
  have htrace := fun c => quiet_trace hout c (s.attached c)
  refine ⟨⟨kept, hqueue, hqueue'⟩, ?_, ?_, ?_, ?_, ?_, ?_, ?_⟩
  · intro c
    rw [hattached, (htrace c).1]
  · intro c
    rw [hpushed1, (htrace c).2.1]
  · intro c
    rw [hran1, (htrace c).2.2.1]
    rfl
  · intro c
    rw [hran1, (htrace c).2.2.2.1]
    rfl
  · rw [hpushed2, (htrace 0).2.2.2.2.1]
  · rw [hran2, (htrace 0).2.2.2.2.2.1]
    simp
  · exact (htrace 0).2.2.2.2.2.2

/-- The trace shows the end of a caller's first `Unsubscribe` call, or code
that goes on after awaiting one. -/
def Unsubscribed (c : Nat) (out : List (PubSubOutput M)) : Prop :=
  (∃ ok, .unsubscribeSettled c true ok ∈ out) ∨ .unsubscribeObserved c ∈ out

/-- Jobs that neither deliver, nor report, nor end an unsubscription. -/
def Job.early (j : Job) : Prop := j.quiet = true ∧ j.unsubscriber = none

/-- A call that joins leaves the listeners and the other callers alone, and
adds early jobs to the queue and the reactions. -/
structure JoinEffect (s s' : PubSub) (out : List (PubSubOutput M)) (pushed : List Job) : Prop where
  queue : s'.queue = s.queue ++ pushed
  pushed : ∀ j ∈ pushed, j.early
  reactions : ∀ r, ∀ j ∈ s'.connection.reactions r, j ∈ s.connection.reactions r ∨ j.early
  listeners : s'.listeners = s.listeners
  callers : ∀ c ≠ s.service.callerCount, s'.service.callers c = s.service.callers c
  fresh : s'.service.callers s.service.callerCount = s.service.callers s.service.callerCount ∨
    (s'.service.callers s.service.callerCount).phase = .waiting
  quiet : ∀ o ∈ out, o.quiet = true
  silent : ∀ c, ¬ Unsubscribed c out

/-- A caller joins a subscription. It waits for the command of the reference:
with a reaction, or with a job in the queue when the command is settled
already. -/
theorem JoinEffect.join (s : PubSub) (t : Target) (r : Nat) :
    ∃ pushed, JoinEffect (M := M) s (s.joinRef t r) [] pushed := by
  have hcallers : ∀ c ≠ s.service.callerCount,
      (s.joinRef t r).service.callers c = s.service.callers c := by
    intro c hc
    simp [Service.addCaller, hc]
  have hfresh : ((s.joinRef t r).service.callers s.service.callerCount).phase = .waiting := by
    simp [Service.addCaller]
  have hearly : Job.early (.resumeRetain s.service.callerCount r) := ⟨rfl, rfl⟩
  by_cases hsettled : s.connection.settled r = true
  · have heq : s.joinRef t r = ({ s with service := s.service.addCaller t r } : PubSub).enqueue
        (.resumeRetain s.service.callerCount r) := by
      simp [PubSub.joinRef, PubSub.await, hsettled]
    rw [heq] at hcallers hfresh ⊢
    refine ⟨[.resumeRetain s.service.callerCount r],
      ⟨rfl, ?_, fun _ _ hj => Or.inl hj, rfl, hcallers, Or.inr hfresh, by simp,
        by simp [Unsubscribed]⟩⟩
    intro j hj
    rw [List.mem_singleton.mp hj]
    exact hearly
  · have heq : s.joinRef t r = { s with
        service := s.service.addCaller t r
        connection := s.connection.react r (.resumeRetain s.service.callerCount r) } := by
      simp [PubSub.joinRef, PubSub.await, hsettled]
    rw [heq] at hcallers hfresh ⊢
    refine ⟨[], ⟨(List.append_nil _).symm, by simp, ?_, rfl, hcallers, Or.inr hfresh, by simp,
        by simp [Unsubscribed]⟩⟩
    intro r' j hj
    simp only [SubscriberConnection.react, Function.update_apply] at hj
    split at hj
    · subst r'
      rcases List.mem_append.mp hj with hj | hj
      · exact Or.inl hj
      · rw [List.mem_singleton.mp hj]
        exact Or.inr hearly
    · exact Or.inl hj

/-- What a `subscribe` or `psubscribe` call does to deliveries: nothing yet. A
refused name throws; otherwise the caller joins a reference, and is attached
only when the command is accepted. -/
theorem PubSub.subscribeTo_effect (deps : PubSubDeps M) (s : PubSub) (kind : TargetKind)
    (name : Text) : ∃ pushed,
      JoinEffect s (s.subscribeTo deps kind name).1 (s.subscribeTo deps kind name).2 pushed := by
  cases hname : deps.keyBuilder.applyNamespace name with
  | error e =>
      refine ⟨[], ?_⟩
      simp only [subscribeTo, hname]
      exact ⟨(List.append_nil _).symm, by simp, fun _ _ hj => Or.inl hj, rfl, fun _ _ => rfl,
        Or.inl rfl, by simp [PubSubOutput.quiet], by simp [Unsubscribed]⟩
  | ok fullName =>
      cases hr : s.service.refs ⟨kind, fullName⟩ with
      | some r =>
          obtain ⟨pushed, hjoin⟩ := JoinEffect.join (M := M) s ⟨kind, fullName⟩ r
          refine ⟨pushed, ?_⟩
          simpa [subscribeTo, hname, ensureRef, hr] using hjoin
      | none =>
          have heq : s.subscribeTo deps kind name =
              ((s.ensureRef (M := M) ⟨kind, fullName⟩).1.joinRef ⟨kind, fullName⟩
                s.connection.sent, [.sent ⟨.subscribe, ⟨kind, fullName⟩⟩]) := by
            simp [subscribeTo, hname, ensureRef, hr]
          obtain ⟨pushed, hjoin⟩ := JoinEffect.join (M := M)
            (s.ensureRef (M := M) ⟨kind, fullName⟩).1 ⟨kind, fullName⟩ s.connection.sent
          rw [heq]
          simp only [ensureRef, hr] at hjoin ⊢
          refine ⟨pushed, ⟨hjoin.queue, hjoin.pushed, ?_, hjoin.listeners, hjoin.callers,
            hjoin.fresh, by simp [PubSubOutput.quiet], by simp [Unsubscribed]⟩⟩
          intro r j hj
          rcases hjoin.reactions r j hj with hold | hearly
          · simp only [SubscriberConnection.send, Function.update_apply] at hold
            split at hold
            · rw [List.mem_singleton.mp hold]
              exact Or.inr ⟨rfl, rfl⟩
            · exact Or.inl hold
          · exact Or.inr hearly

/-! ## What the jobs of a step leave behind -/

/-- The caller's `Unsubscribe` function was called. -/
def PubSub.Released (s : PubSub) (c : Nat) : Prop := (s.service.callers c).released = true

/-- The jobs a step runs and queues respect the unsubscriptions: deliveries are
queued for listeners only, and the end of an unsubscription shows only through
its job. -/
structure UnsubLaws (s s' : PubSub) (out : List (PubSubOutput M)) (ran pushed : List Job) :
    Prop where
  delivers : ∀ c event, .deliver c event ∈ pushed → c ∈ s.listeners
  separate : ∀ j ∈ pushed, ∀ c, j.unsubscriber = some c →
    s'.Released c ∧ ∀ event, .deliver c event ∉ pushed
  reactions : ∀ r, ∀ j ∈ s'.connection.reactions r, j ∈ s.connection.reactions r ∨
    j.quiet = true ∧ ∀ c, j.unsubscriber = some c → s'.Released c
  released : ∀ c, s.Released c → s'.Released c
  observed : ∀ c, Unsubscribed c out → ∃ j ∈ ran, j.unsubscriber = some c

/-- Unsubscriptions in a state reached with the given trace. -/
structure UnsubInv (out : List (PubSubOutput M)) (s : PubSub) : Prop where
  reactions : ∀ r, ∀ j ∈ s.connection.reactions r,
    j.quiet = true ∧ ∀ c, j.unsubscriber = some c → s.Released c
  queue : ∀ j ∈ s.queue, ∀ c, j.unsubscriber = some c → s.Released c
  order : s.queue.Pairwise fun j k =>
    ∀ c event, j.unsubscriber = some c → k ≠ .deliver c event
  silent : ∀ c, Unsubscribed c out → s.Released c ∧ ∀ event, .deliver c event ∉ s.queue

/-- The invariant of unsubscriptions follows from the laws of a step. A
caller that is released has no listener, and deliveries are queued for
listeners only. -/
theorem UnsubInv.step {out more : List (PubSubOutput M)} {s s' : PubSub} {ran pushed : List Job}
    (h : UnsubInv out s) (hlisteners : ListenerInv s) (hlaws : UnsubLaws s s' more ran pushed)
    (hqueue : ∃ kept, s.queue = ran ++ kept ∧ s'.queue = kept ++ pushed) :
    UnsubInv (out ++ more) s' := by
  obtain ⟨kept, hold, hnew⟩ := hqueue
  -- a released caller has no listener, so nothing is delivered to it any more
  have hnone : ∀ c, s.Released c → ∀ event, .deliver c event ∉ pushed := by
    intro c hrel event hmem
    have hlive := ((hlisteners.live c).mp (hlaws.delivers c event hmem)).2
    rw [hrel] at hlive
    cases hlive
  have hkept : ∀ j ∈ kept, ∀ c, j.unsubscriber = some c → s.Released c :=
    fun j hj => h.queue j (by rw [hold]; exact List.mem_append_right _ hj)
  have horder := h.order
  rw [hold, List.pairwise_append] at horder
  obtain ⟨-, horder, hcross⟩ := horder
  refine ⟨?_, ?_, ?_, ?_⟩
  · intro r j hj
    rcases hlaws.reactions r j hj with hmem | hlaw
    · obtain ⟨hquiet, hrel⟩ := h.reactions r j hmem
      exact ⟨hquiet, fun c hc => hlaws.released c (hrel c hc)⟩
    · exact hlaw
  · intro j hj c hc
    rw [hnew] at hj
    rcases List.mem_append.mp hj with hj | hj
    · exact hlaws.released c (hkept j hj c hc)
    · exact (hlaws.separate j hj c hc).1
  · rw [hnew]
    refine List.pairwise_append.mpr ⟨horder, ?_, ?_⟩
    · refine List.pairwise_of_forall_mem_list fun j hj k hk c event hc => ?_
      rintro rfl
      exact (hlaws.separate j hj c hc).2 event hk
    · rintro j hj k hk c event hc rfl
      exact hnone c (hkept j hj c hc) event hk
  · intro c hc
    have hcases : Unsubscribed c out ∨ Unsubscribed c more := by
      simp only [Unsubscribed, List.mem_append] at hc ⊢
      grind
    rw [hnew]
    rcases hcases with hbefore | hnow
    · obtain ⟨hrel, hempty⟩ := h.silent c hbefore
      rw [hold] at hempty
      refine ⟨hlaws.released c hrel, fun event hmem => ?_⟩
      rcases List.mem_append.mp hmem with hmem | hmem
      · exact hempty event (List.mem_append_right _ hmem)
      · exact hnone c hrel event hmem
    · -- the job that shows it stood before whatever is left in the queue
      obtain ⟨j, hj, hjc⟩ := hlaws.observed c hnow
      have hrel : s.Released c := h.queue j (by rw [hold]; exact List.mem_append_left _ hj) c hjc
      refine ⟨hlaws.released c hrel, fun event hmem => ?_⟩
      rcases List.mem_append.mp hmem with hmem | hmem
      · exact hcross j hj _ hmem c event hjc rfl
      · exact hnone c hrel event hmem

end NestCache
