import NestCache.DeliveryTrace

/-!
# The effect of every step on deliveries

One lemma for each piece of work of the Pub/Sub service: which job it runs,
which jobs it queues, and that both obey the laws (`StepEffect`).
-/

namespace NestCache

variable {M : Type}

/-- Everything the runs need to know about a step. -/
structure StepEffect (deps : PubSubDeps M) (s s' : PubSub) (out : List (PubSubOutput M))
    (ran pushed : List Job) : Prop where
  jobs : JobLaws deps s s' out ran pushed
  unsub : UnsubLaws s s' out ran pushed
  listeners : ListenerInv s'

/-- A step that leaves callers and listeners alone and runs and queues quiet
jobs. -/
theorem StepEffect.quiet {deps : PubSubDeps M} {s s' : PubSub} {out : List (PubSubOutput M)}
    {ran pushed kept : List Job} (hlisteners : ListenerInv s)
    (hcallers : s'.service.callers = s.service.callers) (hsame : s'.listeners = s.listeners)
    (hqueue : s.queue = ran ++ kept) (hqueue' : s'.queue = kept ++ pushed)
    (hran : ∀ j ∈ ran, j.quiet = true)
    (hpushed : ∀ j ∈ pushed, j.quiet = true ∧ ∀ c, j.unsubscriber = some c → s.Released c)
    (hout : ∀ o ∈ out, o.quiet = true)
    (hreactions : ∀ r, ∀ j ∈ s'.connection.reactions r, j ∈ s.connection.reactions r)
    (hobserved : ∀ c, Unsubscribed c out → ∃ j ∈ ran, j.unsubscriber = some c) :
    StepEffect deps s s' out ran pushed := by
  have hreleased : ∀ c, s'.Released c ↔ s.Released c := by
    intro c
    rw [PubSub.Released, hcallers]
    rfl
  refine ⟨JobLaws.quiet hqueue hqueue' ?_ hran (fun j hj => (hpushed j hj).1) hout, ?_,
    hlisteners.frame hcallers hsame⟩
  · intro c
    rw [PubSub.attached, hcallers, hsame]
    rfl
  · refine ⟨?_, ?_, fun r j hj => Or.inl (hreactions r j hj), fun c => (hreleased c).mpr,
      hobserved⟩
    · intro c event hmem
      have hquiet := (hpushed _ hmem).1
      cases hquiet
    · intro j hj c hc
      refine ⟨(hreleased c).mpr ((hpushed j hj).2 c hc), fun event hmem => ?_⟩
      have hquiet := (hpushed _ hmem).1
      cases hquiet

/-- A call that joins. Its caller has no listener yet, so it hears nothing, and
its jobs are early ones that deliver nothing. -/
theorem StepEffect.join {deps : PubSubDeps M} {s s' : PubSub} {out : List (PubSubOutput M)}
    {pushed : List Job} (hlisteners : ListenerInv s) (hinv : SubscriptionInv s)
    (h : JoinEffect s s' out pushed) : StepEffect deps s s' out [] pushed := by
  -- the new caller neither listens nor has unsubscribed
  have hnew : ¬ (s.service.callers s.service.callerCount).phase = .listening := by
    intro hlistening
    have := hinv.refs.known _ (by rw [hlistening]; decide)
    omega
  have hnew' : ¬ (s'.service.callers s.service.callerCount).phase = .listening := by
    rcases h.fresh with hfresh | hfresh
    · rwa [hfresh]
    · rw [hfresh]
      decide
  have hne : ∀ c, c ∈ s.listeners → c ≠ s.service.callerCount := by
    rintro c hc rfl
    exact hnew ((hlisteners.live _).mp hc).1
  have hpushed : ∀ c event, .deliver c event ∉ pushed := by
    intro c event hmem
    have hquiet := (h.pushed _ hmem).1
    cases hquiet
  refine ⟨JobLaws.quiet rfl h.queue ?_ (by simp) (fun j hj => (h.pushed j hj).1) h.quiet,
    ⟨?_, ?_, ?_, ?_, ?_⟩, ⟨?_, ?_⟩⟩
  · intro c
    simp only [PubSub.attached, h.listeners]
    by_cases hc : c ∈ s.listeners
    · rw [if_pos hc, if_pos hc, h.callers c (hne c hc)]
    · rw [if_neg hc, if_neg hc]
  · exact fun c event hmem => absurd hmem (hpushed c event)
  · intro j hj c hc
    rw [(h.pushed j hj).2] at hc
    cases hc
  · intro r j hj
    rcases h.reactions r j hj with hold | ⟨hquiet, hnone⟩
    · exact Or.inl hold
    · refine Or.inr ⟨hquiet, fun c hc => ?_⟩
      rw [hnone] at hc
      cases hc
  · intro c hc
    have hcne : c ≠ s.service.callerCount := by
      rintro rfl
      exact hnew (hinv.refs.released _ hc)
    rw [PubSub.Released, h.callers c hcne]
    exact hc
  · exact fun c hc => absurd hc (h.silent c)
  · rw [h.listeners]
    exact hlisteners.nodup
  · intro c
    rw [h.listeners]
    by_cases hc : c = s.service.callerCount
    · subst hc
      exact ⟨fun hmem => absurd rfl (hne _ hmem), fun hlive => absurd hlive.1 hnew'⟩
    · rw [h.callers c hc]
      exact hlisteners.live c

/-- A listener is detached and its caller released. From here on it hears
nothing; the deliveries that are queued for it still run. -/
theorem StepEffect.leave (deps : PubSubDeps M) {s s' : PubSub} {c : Nat}
    {out : List (PubSubOutput M)} {pushed : List Job} (hlisteners : ListenerInv s)
    (hcallers : s'.service.callers = (s.service.release c).callers)
    (herase : s'.listeners = s.listeners.erase c) (hqueue : s'.queue = s.queue ++ pushed)
    (hpushed : ∀ j ∈ pushed, j = .resumeUnsubscribe c true)
    (hreactions : ∀ r, ∀ j ∈ s'.connection.reactions r,
      j ∈ s.connection.reactions r ∨ ∃ command, j = .resumeRelease c command)
    (hout : ∀ o ∈ out, ∃ command, o = .sent command) :
    StepEffect deps s s' (.detached c :: out) [] pushed := by
  have hquiet : ∀ o ∈ out, o.quiet = true := by
    intro o ho
    obtain ⟨command, rfl⟩ := hout o ho
    rfl
  have hjobs : ∀ j ∈ pushed, j.quiet = true := by
    intro j hj
    rw [hpushed j hj]
    rfl
  obtain ⟨hpending, hreports⟩ := pending_quiet hjobs
  have htrace := fun c' => quiet_trace hquiet c'
    (attachedTo (M := M) c' (s.attached c') (.detached c))
  have htarget : ∀ c', (s'.service.callers c').target = (s.service.callers c').target ∧
      (s'.service.callers c').phase = (s.service.callers c').phase := by
    intro c'
    simp only [hcallers, Service.release, Function.update_apply]
    grind
  have hreleased : ∀ c', s'.Released c' ↔ s.Released c' ∨ c' = c := by
    intro c'
    simp only [PubSub.Released, hcallers, Service.release, Function.update_apply]
    grind
  have hmem : ∀ c', c' ∈ s'.listeners ↔ c' ≠ c ∧ c' ∈ s.listeners := by
    intro c'
    rw [herase]
    exact hlisteners.nodup.mem_erase_iff
  refine ⟨⟨⟨s.queue, rfl, hqueue⟩, ?_, ?_, ?_, ?_, ?_, ?_, ?_⟩, ⟨?_, ?_, ?_, ?_, ?_⟩, ⟨?_, ?_⟩⟩
  · intro c'
    rw [List.foldl_cons, (htrace c').1]
    simp only [PubSub.attached, hmem, (htarget c').1, attachedTo]
    grind
  · intro c'
    rw [hpending, heardFrom, (htrace c').2.1]
    rfl
  · intro c'
    rw [startsOf, List.filterMap_cons_none rfl]
    exact (htrace c').2.2.1
  · intro c'
    rw [undecodablesOf, List.filterMap_cons_none rfl]
    exact (htrace c').2.2.2.1
  · rw [hreports, failuresOf, List.filterMap_cons_none rfl]
    exact (htrace 0).2.2.2.2.1.symm
  · rw [reportsOf, List.filterMap_cons_none rfl]
    have hnone := (htrace 0).2.2.2.2.2.1
    rw [reportsOf] at hnone
    simp [hnone, pendingReports]
  · intro e he
    rcases List.mem_cons.mp he with heq | he
    · cases heq
    · exact (htrace 0).2.2.2.2.2.2 e he
  · intro c' event hdeliver
    have heq := hpushed _ hdeliver
    cases heq
  · intro j hj c' hc'
    obtain rfl := hpushed j hj
    obtain rfl : c = c' := by simpa [Job.unsubscriber] using hc'
    refine ⟨(hreleased c).mpr (Or.inr rfl), fun event hdeliver => ?_⟩
    have heq := hpushed _ hdeliver
    cases heq
  · intro r j hj
    rcases hreactions r j hj with hold | ⟨command, rfl⟩
    · exact Or.inl hold
    · refine Or.inr ⟨rfl, fun c' hc' => (hreleased c').mpr (Or.inr ?_)⟩
      simpa [Job.unsubscriber, eq_comm] using hc'
  · exact fun c' hc' => (hreleased c').mpr (Or.inl hc')
  · rintro c' (⟨ok, hsettled⟩ | hobserved)
    · rcases List.mem_cons.mp hsettled with heq | hsettled
      · cases heq
      · obtain ⟨command, heq⟩ := hout _ hsettled
        cases heq
    · rcases List.mem_cons.mp hobserved with heq | hobserved
      · cases heq
      · obtain ⟨command, heq⟩ := hout _ hobserved
        cases heq
  · rw [herase]
    exact hlisteners.nodup.erase c
  · intro c'
    have hrel := hreleased c'
    have hlive := hlisteners.live c'
    rw [hmem, hlive, (htarget c').2]
    simp only [PubSub.Released] at hrel
    grind

/-- A call of the `Unsubscribe` function. The first call detaches and releases;
a later one only queues its own end. -/
theorem StepEffect.unsubscribe (deps : PubSubDeps M) {s : PubSub} (hlisteners : ListenerInv s)
    (c : Nat) : ∃ pushed, StepEffect deps s (s.unsubscribe (M := M) c).1
      (s.unsubscribe (M := M) c).2 [] pushed := by
  by_cases hrel : (s.service.callers c).released = true
  · refine ⟨[.resumeAwait c], ?_⟩
    simp only [PubSub.unsubscribe, if_pos hrel]
    refine StepEffect.quiet hlisteners rfl rfl rfl rfl (by simp) ?_ (by simp [PubSubOutput.quiet])
      (fun _ _ hj => hj) (by simp [Unsubscribed])
    intro j hj
    obtain rfl := List.mem_singleton.mp hj
    refine ⟨rfl, fun c' hc' => ?_⟩
    obtain rfl : c = c' := by simpa [Job.unsubscriber] using hc'
    exact hrel
  · simp only [PubSub.unsubscribe, if_neg hrel, PubSub.releaseSubscription]
    split
    · refine ⟨[], StepEffect.leave deps hlisteners rfl rfl (List.append_nil _).symm (by simp) ?_
        (by simp)⟩
      intro r j hj
      simp only [SubscriberConnection.send, Function.update_apply] at hj
      split at hj
      · exact Or.inr ⟨_, List.mem_singleton.mp hj⟩
      · exact Or.inl hj
    · exact ⟨[.resumeUnsubscribe c true], StepEffect.leave deps hlisteners rfl rfl rfl (by simp)
        (fun _ _ hj => Or.inl hj) (by simp)⟩

/-- The deliveries an event queues for one caller. -/
theorem pendingFor_map_deliver (c : Nat) (event : ServerEvent) {cs : List Nat} (hcs : cs.Nodup) :
    pendingFor c (cs.map (Job.deliver · event)) = if c ∈ cs then [event] else [] := by
  induction cs with
  | nil => rfl
  | cons c' cs ih =>
      obtain ⟨hnot, hnodup⟩ := List.nodup_cons.mp hcs
      rw [List.map_cons, pendingFor_cons, ih hnodup]
      by_cases hc : c' = c
      · subst hc
        simp [Job.deliveryTo, hnot]
      · simp [Job.deliveryTo, hc, Ne.symm hc]

/-- An event is emitted. For every listener of the target a delivery is queued,
in the order of attachment; no handler starts within the emission. -/
theorem StepEffect.emit (deps : PubSubDeps M) {s : PubSub} (hlisteners : ListenerInv s)
    (event : ServerEvent) : ∃ pushed, StepEffect deps s (s.emit event)
      [.emitted event] [] pushed := by
  refine ⟨(s.listeners.filter fun c =>
    (s.service.callers c).target = event.target).map (Job.deliver · event), ?_, ?_,
    hlisteners.frame rfl rfl⟩
  · refine ⟨⟨s.queue, rfl, rfl⟩, fun c => rfl, ?_, fun c => rfl, fun c => rfl, ?_, ?_, by simp⟩
    · intro c
      rw [pendingFor_map_deliver c event (hlisteners.nodup.filter _)]
      simp only [heardFrom, heardIn, PubSub.attached, List.append_nil, List.mem_filter,
        decide_eq_true_eq]
      grind
    · rw [pendingReports, List.filterMap_map]
      exact List.filterMap_eq_nil_iff.mpr fun _ _ => rfl
    · simp [reportsOf, PubSubOutput.report, pendingReports]
  · refine ⟨?_, ?_, fun _ _ hj => Or.inl hj, fun _ hc => hc, by simp [Unsubscribed]⟩
    · intro c event' hmem
      obtain ⟨c', hc', heq⟩ := List.mem_map.mp hmem
      cases heq
      exact (List.mem_filter.mp hc').1
    · intro j hj c hc
      obtain ⟨c', -, rfl⟩ := List.mem_map.mp hj
      cases hc

/-- A handler fails. Its report is queued, with the channel of the event and
the error. -/
theorem StepEffect.fail (deps : PubSubDeps M) {s s' : PubSub} {o : PubSubOutput M} {c : Nat}
    {event : ServerEvent} {error : Thrown} (hlisteners : ListenerInv s)
    (hservice : s'.service = s.service) (hconnection : s'.connection = s.connection)
    (hsame : s'.listeners = s.listeners)
    (hqueue : s'.queue = s.queue ++ [.report event.channel error])
    (ho : o = .handlerThrew c event error ∨ o = .handlerRejected c event error) :
    StepEffect deps s s' [o] [] [.report event.channel error] := by
  have hattached : ∀ c', s'.attached c' = s.attached c' := by
    intro c'
    rw [PubSub.attached, hservice, hsame]
    rfl
  refine ⟨⟨⟨s.queue, rfl, hqueue⟩, ?_, ?_, ?_, ?_, ?_, ?_, ?_⟩, ⟨?_, ?_, ?_, ?_, ?_⟩,
    hlisteners.frame (by rw [hservice]) hsame⟩
  · intro c'
    rw [hattached]
    rcases ho with rfl | rfl <;> rfl
  · intro c'
    rcases ho with rfl | rfl <;> rfl
  · intro c'
    rcases ho with rfl | rfl <;> rfl
  · intro c'
    rcases ho with rfl | rfl <;> rfl
  · rcases ho with rfl | rfl <;> rfl
  · rcases ho with rfl | rfl <;> simp [reportsOf, PubSubOutput.report, pendingReports]
  · rcases ho with rfl | rfl <;> simp
  · simp
  · intro j hj c' hc'
    obtain rfl := List.mem_singleton.mp hj
    cases hc'
  · intro r j hj
    rw [hconnection] at hj
    exact Or.inl hj
  · intro c' hc'
    rw [PubSub.Released, hservice]
    exact hc'
  · rcases ho with rfl | rfl <;> simp [Unsubscribed]

/-- The running handler ends. -/
theorem StepEffect.finish (deps : PubSubDeps M) {s : PubSub} (hlisteners : ListenerInv s)
    (c : Nat) (event : ServerEvent) (outcome : HandlerOutcome) :
    ∃ pushed, StepEffect deps s (s.finish (M := M) c event outcome).1
      (s.finish (M := M) c event outcome).2 [] pushed := by
  cases outcome with
  | returns =>
      exact ⟨[], StepEffect.quiet hlisteners rfl rfl rfl (List.append_nil _).symm (by simp) (by simp)
        (by simp [PubSub.finish]) (fun _ _ hj => hj) (by simp [PubSub.finish, Unsubscribed])⟩
  | returnsPromise =>
      exact ⟨[], StepEffect.quiet hlisteners rfl rfl rfl (List.append_nil _).symm (by simp) (by simp)
        (by simp [PubSub.finish]) (fun _ _ hj => hj) (by simp [PubSub.finish, Unsubscribed])⟩
  | throws error => exact ⟨_, StepEffect.fail deps hlisteners rfl rfl rfl rfl (Or.inl rfl)⟩

/-- The promise a handler returned settles. -/
theorem StepEffect.promiseSettles (deps : PubSubDeps M) {s : PubSub} (hlisteners : ListenerInv s)
    (index c : Nat) (event : ServerEvent) (rejection : Option Thrown) :
    ∃ pushed, StepEffect deps s (s.promiseSettles (M := M) index c event rejection).1
      (s.promiseSettles (M := M) index c event rejection).2 [] pushed := by
  cases rejection with
  | none =>
      exact ⟨[], StepEffect.quiet hlisteners rfl rfl rfl (List.append_nil _).symm (by simp) (by simp)
        (by simp [PubSub.promiseSettles]) (fun _ _ hj => hj)
        (by simp [PubSub.promiseSettles, Unsubscribed])⟩
  | some error => exact ⟨_, StepEffect.fail deps hlisteners rfl rfl rfl rfl (Or.inr rfl)⟩

/-- A caller learns how its `subscribe` call came out. If the command was
accepted its listener is attached, and hears what is emitted from now on;
otherwise the call is rejected. -/
theorem StepEffect.resumeSubscribe (deps : PubSubDeps M) {s : PubSub} {c r : Nat} {rest : List Job}
    (hlisteners : ListenerInv s) (hwaiting : (s.service.callers c).phase = .waiting)
    (hreleased : (s.service.callers c).released = false)
    (hqueue : s.queue = .resumeSubscribe c r :: rest) :
    StepEffect deps s (({ s with queue := rest } : PubSub).resumeSubscribe (M := M) c r).1
      (({ s with queue := rest } : PubSub).resumeSubscribe (M := M) c r).2
      [.resumeSubscribe c r] [] := by
  have hnot : c ∉ s.listeners := by
    intro hmem
    have hlive := ((hlisteners.live c).mp hmem).1
    rw [hwaiting] at hlive
    cases hlive
  have hcaller : ∀ phase c', ((s.service.setPhase c phase).callers c').target =
      (s.service.callers c').target ∧ ((s.service.setPhase c phase).callers c').released =
        (s.service.callers c').released ∧ ((s.service.setPhase c phase).callers c').phase =
        if c' = c then phase else (s.service.callers c').phase := by
    intro phase c'
    simp only [Service.setPhase, Function.update_apply]
    grind
  have hunsub : ∀ {s' : PubSub} {out : List (PubSubOutput M)} {phase},
      s'.service = s.service.setPhase c phase → s'.connection = s.connection →
      (∀ c', ¬ Unsubscribed c' out) → UnsubLaws s s' out [.resumeSubscribe c r] [] := by
    intro s' out phase hservice hconnection hout
    refine ⟨by simp, by simp, ?_, ?_, fun c' hc' => absurd hc' (hout c')⟩
    · intro r' j hj
      rw [hconnection] at hj
      exact Or.inl hj
    · intro c' hc'
      rw [PubSub.Released, hservice, (hcaller phase c').2.1]
      exact hc'
  simp only [PubSub.resumeSubscribe]
  split
  · refine ⟨⟨⟨rest, hqueue, (List.append_nil _).symm⟩, ?_, fun c' => rfl, fun c' => rfl,
      fun c' => rfl, rfl, by simp [reportsOf, PubSubOutput.report, pendingReports, Job.reported],
      by simp⟩, hunsub rfl rfl (by simp [Unsubscribed]), ⟨?_, ?_⟩⟩
    · intro c'
      simp only [PubSub.attached, List.foldl_cons, List.foldl_nil, attachedTo, List.mem_append,
        List.mem_singleton, (hcaller _ c').1]
      grind
    · exact List.nodup_append.mpr ⟨hlisteners.nodup, by simp, by grind⟩
    · intro c'
      have hlive := hlisteners.live c'
      simp only [List.mem_append, List.mem_singleton, (hcaller _ c').2.1, (hcaller _ c').2.2]
      grind
  · refine ⟨JobLaws.quiet hqueue (List.append_nil _).symm ?_
      (by simp [Job.quiet]) (by simp) (by simp [PubSubOutput.quiet]),
      hunsub rfl rfl (by simp [Unsubscribed]), ⟨hlisteners.nodup, ?_⟩⟩
    · intro c'
      simp only [PubSub.attached, (hcaller _ c').1]
    · intro c'
      have hlive := hlisteners.live c'
      simp only [(hcaller _ c').2.1, (hcaller _ c').2.2]
      grind

/-- The first reaction of a listener runs. The payload is decoded and the
handler starts, or the failed decode is shown and its report is queued. -/
theorem StepEffect.deliver (deps : PubSubDeps M) {s : PubSub} {c : Nat} {event : ServerEvent}
    {rest : List Job} (hlisteners : ListenerInv s) (hqueue : s.queue = .deliver c event :: rest) :
    ∃ pushed, StepEffect deps s (({ s with queue := rest } : PubSub).deliver deps c event).1
      (({ s with queue := rest } : PubSub).deliver deps c event).2 [.deliver c event] pushed := by
  simp only [PubSub.deliver]
  cases hdecode : deps.deserialize event.raw with
  | error error =>
      refine ⟨[.report event.channel error], ⟨⟨rest, hqueue, rfl⟩, fun c' => rfl, fun c' => rfl,
        ?_, ?_, rfl, ?_, by simp⟩, ⟨by simp, ?_, fun _ _ hj => Or.inl hj, fun _ hc => hc,
        by simp [Unsubscribed]⟩, hlisteners.frame rfl rfl⟩
      · intro c'
        by_cases hc : c = c' <;>
          simp [startsOf, PubSubOutput.startOf, pendingFor, Job.deliveryTo, decoded, hdecode, hc]
      · intro c'
        by_cases hc : c = c' <;> simp [undecodablesOf, PubSubOutput.undecodableOf, pendingFor,
          Job.deliveryTo, undecoded, hdecode, hc]
      · simp [reportsOf, PubSubOutput.report, pendingReports, Job.reported]
      · intro j hj c' hc'
        obtain rfl := List.mem_singleton.mp hj
        cases hc'
  | ok message =>
      refine ⟨[], ⟨⟨rest, hqueue, (List.append_nil _).symm⟩, fun c' => rfl, fun c' => rfl,
        ?_, ?_, rfl, ?_, by simp⟩, ⟨by simp, by simp, fun _ _ hj => Or.inl hj, fun _ hc => hc,
        by simp [Unsubscribed]⟩, hlisteners.frame rfl rfl⟩
      · intro c'
        by_cases hc : c = c' <;>
          simp [startsOf, PubSubOutput.startOf, pendingFor, Job.deliveryTo, decoded, hdecode, hc]
      · intro c'
        by_cases hc : c = c' <;> simp [undecodablesOf, PubSubOutput.undecodableOf, pendingFor,
          Job.deliveryTo, undecoded, hdecode, hc]
      · simp [reportsOf, PubSubOutput.report, pendingReports, Job.reported]

/-- The second reaction of a listener runs. The consumer is told if there is
one; what it throws is swallowed. -/
theorem StepEffect.report (deps : PubSubDeps M) {s : PubSub} {onEvent : Except Thrown Unit}
    {channel : Text} {error : Thrown} {rest : List Job} (hlisteners : ListenerInv s)
    (hqueue : s.queue = .report channel error :: rest) :
    StepEffect deps s (({ s with queue := rest } : PubSub).report deps onEvent channel error).1
      (({ s with queue := rest } : PubSub).report deps onEvent channel error).2
      [.report channel error] [] := by
  rw [PubSub.report_eq]
  have hout : ∀ o ∈ (if deps.hasOnEvent then
      [PubSubOutput.onEvent (M := M) "error".toList (handlerErrorData channel error)] else []),
      o = .onEvent "error".toList (handlerErrorData channel error) := by
    split <;> simp
  refine ⟨⟨⟨rest, hqueue, (List.append_nil _).symm⟩, ?_, ?_, ?_, ?_, ?_, ?_, ?_⟩,
    ⟨by simp, by simp, fun _ _ hj => Or.inl hj, fun _ hc => hc, ?_⟩, hlisteners.frame rfl rfl⟩
  · intro c
    split <;> rfl
  · intro c
    split <;> rfl
  · intro c
    split <;> rfl
  · intro c
    split <;> rfl
  · split <;> rfl
  · split <;> rfl
  · intro e he
    cases hout _ he
  · rintro c (⟨ok, hmem⟩ | hmem)
    · cases hout _ hmem
    · cases hout _ hmem

/-- A promise job runs. The cases are the kinds of jobs, each with the lemma on
the continuation that it runs. -/
theorem StepEffect.runJob (deps : PubSubDeps M) {s : PubSub} {seen : List (PubSubOutput M)}
    {job : Job} {rest : List Job} (onEvent : Except Thrown Unit) (hlisteners : ListenerInv s)
    (hinv : SubscriptionInv s) (hunsub : UnsubInv seen s) (hqueue : s.queue = job :: rest) :
    ∃ pushed, StepEffect deps s (({ s with queue := rest } : PubSub).runJob deps onEvent job).1
      (({ s with queue := rest } : PubSub).runJob deps onEvent job).2 [job] pushed := by
  have hreleased : ∀ c, job.unsubscriber = some c → s.Released c :=
    hunsub.queue job (by simp [hqueue])
  cases job with
  | dropEntry r =>
      refine ⟨[], ?_⟩
      simp only [PubSub.runJob]
      split <;> exact StepEffect.quiet hlisteners rfl rfl hqueue (List.append_nil _).symm
        (by simp [Job.quiet]) (by simp) (by simp) (fun _ _ hj => hj) (by simp [Unsubscribed])
  | resumeRetain c r =>
      exact ⟨[.resumeSubscribe c r], StepEffect.quiet hlisteners rfl rfl hqueue rfl
        (by simp [Job.quiet]) (by simp [Job.quiet, Job.unsubscriber]) (by simp [PubSub.runJob])
        (fun _ _ hj => hj) (by simp [PubSub.runJob, Unsubscribed])⟩
  | resumeSubscribe c r =>
      have hjobs := hinv.jobs
      rw [PubSub.joinJobs_cons hqueue rfl] at hjobs
      obtain ⟨⟨-, hwaiting, -⟩, -⟩ := hjobs.subscribe_job c r (by simp)
      have hrel : (s.service.callers c).released = false := by
        by_contra hne
        have hphase := hinv.refs.released c (by simpa using hne)
        rw [hwaiting] at hphase
        cases hphase
      exact ⟨[], StepEffect.resumeSubscribe deps hlisteners hwaiting hrel hqueue⟩
  | resumeRelease c command =>
      refine ⟨[.resumeUnsubscribe c (s.connection.accepted command)], StepEffect.quiet hlisteners
        rfl rfl hqueue rfl (by simp [Job.quiet]) ?_ (by simp [PubSub.runJob]) (fun _ _ hj => hj)
        (by simp [PubSub.runJob, Unsubscribed])⟩
      intro j hj
      obtain rfl := List.mem_singleton.mp hj
      exact ⟨rfl, hreleased⟩
  | resumeUnsubscribe c ok =>
      refine ⟨[.resumeAwait c], StepEffect.quiet hlisteners rfl rfl hqueue rfl
        (by simp [Job.quiet]) ?_ (by simp [PubSub.runJob, PubSubOutput.quiet]) (fun _ _ hj => hj)
        ?_⟩
      · intro j hj
        obtain rfl := List.mem_singleton.mp hj
        exact ⟨rfl, hreleased⟩
      · intro c' hc'
        refine ⟨_, List.mem_singleton_self _, ?_⟩
        simpa [PubSub.runJob, Unsubscribed, Job.unsubscriber, eq_comm] using hc'
  | resumeAwait c =>
      refine ⟨[], StepEffect.quiet hlisteners rfl rfl hqueue (List.append_nil _).symm
        (by simp [Job.quiet]) (by simp) (by simp [PubSub.runJob, PubSubOutput.quiet])
        (fun _ _ hj => hj) ?_⟩
      intro c' hc'
      refine ⟨_, List.mem_singleton_self _, ?_⟩
      simpa [PubSub.runJob, Unsubscribed, Job.unsubscriber, eq_comm] using hc'
  | deliver c event => exact StepEffect.deliver deps hlisteners hqueue
  | report channel error => exact ⟨[], StepEffect.report deps hlisteners hqueue⟩

/-- The action runs a promise job. -/
def PubSubAction.runsJob : PubSubAction → Bool
  | microtask _ => true
  | _ => false

/-- **Step lemma.**  Every piece of work takes its jobs from the front of the
queue and obeys the laws. -/
theorem stepEffect_step {deps : PubSubDeps M} {s s' : PubSub} {a : PubSubAction}
    {seen out : List (PubSubOutput M)} (hlisteners : ListenerInv s) (hinv : SubscriptionInv s)
    (hunsub : UnsubInv seen s) (hstep : pubSubStep deps s a = some (s', out)) :
    ∃ ran pushed, ran.length = [a].countP (·.runsJob) ∧ StepEffect deps s s' out ran pushed := by
  cases pubSubStep_moves hstep with
  | join kind name =>
      obtain ⟨pushed, heffect⟩ := s.subscribeTo_effect deps kind name
      exact ⟨[], pushed, by cases kind <;> rfl, StepEffect.join hlisteners hinv heffect⟩
  | unsubscribe c hlistening =>
      obtain ⟨pushed, heffect⟩ := StepEffect.unsubscribe deps hlisteners c
      exact ⟨[], pushed, rfl, heffect⟩
  | process ok hlt =>
      exact ⟨[], [], rfl, StepEffect.quiet hlisteners rfl rfl rfl (List.append_nil _).symm (by simp)
        (by simp) (by simp) (fun _ _ hj => hj) (by simp [Unsubscribed])⟩
  | settle r hlt hunsettled =>
      exact ⟨[], _, rfl, StepEffect.quiet hlisteners rfl rfl rfl rfl (by simp)
        (hunsub.reactions r) (by simp) (fun _ _ hj => hj) (by simp [Unsubscribed])⟩
  | emit event =>
      obtain ⟨pushed, heffect⟩ := StepEffect.emit deps hlisteners event
      exact ⟨[], pushed, rfl, heffect⟩
  | microtask onEvent job rest hqueue =>
      obtain ⟨pushed, heffect⟩ := StepEffect.runJob deps onEvent hlisteners hinv hunsub hqueue
      exact ⟨[job], pushed, rfl, heffect⟩
  | finish c event outcome =>
      obtain ⟨pushed, heffect⟩ := StepEffect.finish deps hlisteners c event outcome
      exact ⟨[], pushed, rfl, heffect⟩
  | promiseSettles index c event rejection =>
      obtain ⟨pushed, heffect⟩ := StepEffect.promiseSettles deps hlisteners index c event rejection
      exact ⟨[], pushed, rfl, heffect⟩

end NestCache
