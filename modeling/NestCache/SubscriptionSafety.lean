import NestCache.SubscriptionRecord

/-!
# Subscription safety

The reference counts follow the callers, and the commands follow the counts.
What the state knows of callers and commands is what has happened in the run, so
safety is stated of the calls made and of the outcomes seen.

* `subscription_safe` — a live listener's target has an accepted SUBSCRIBE as
  its last command, UNSUBSCRIBE is sent exactly when the last caller leaves, and
  a rejected SUBSCRIBE rejects everyone who joined it and is forgotten first.
-/

namespace NestCache

/-! ## What a step does to the holders -/

/-- A promise job sends nothing and leaves the holders as they are.
Commands are sent by calls; a continuation at most tells a caller how its
call has ended. -/
theorem PubSub.runJob_holders {M : Type} (deps : PubSubDeps M) (onEvent : Except Thrown Unit)
    (s : PubSub) (job : Job) :
    (∀ command, .sent command ∉ (s.runJob deps onEvent job).2) ∧
      ∀ r, (s.runJob deps onEvent job).1.service.holders r = s.service.holders r := by
  cases job with
  | dropEntry r =>
      simp only [runJob]
      split <;> simp
  | resumeRetain c r => simp [runJob, enqueue]
  | resumeSubscribe c r =>
      simp only [runJob, PubSub.resumeSubscribe]
      split <;> simp
  | resumeRelease c r => simp [runJob, enqueue]
  | resumeUnsubscribe c ok => simp [runJob, enqueue]
  | resumeAwait c => simp [runJob]
  | deliver c event =>
      simp only [runJob, deliver]
      split <;> simp [enqueue]
  | report channel error =>
      simp only [runJob, report_eq]
      split <;> simp

/-- Only a first `Unsubscribe` call sends UNSUBSCRIBE or loses a holder. The
cases are the moves of the service: a caller that joins is one holder more, and
only a release takes one away. -/
theorem holders_step {M : Type} {deps : PubSubDeps M} {s s' : PubSub} {a : PubSubAction}
    {out : List (PubSubOutput M)} (hstep : pubSubStep deps s a = some (s', out))
    (hfirst : ∀ c, a = .unsubscribe c → (s.service.callers c).released = true) :
    (∀ t, .sent ⟨.unsubscribe, t⟩ ∉ out) ∧ ∀ r, s.service.holders r ⊆ s'.service.holders r := by
  cases pubSubStep_moves hstep with
  | join kind name =>
      cases hname : deps.keyBuilder.applyNamespace name with
      | error e => simp [PubSub.subscribeTo, hname]
      | ok fullName =>
          rcases s.subscribeTo_cases deps kind hname with ⟨r, -, heq⟩ | ⟨-, t, hservice, -, -, heq⟩
          · rw [heq]
            refine ⟨by simp, fun r' => ?_⟩
            rw [PubSub.joinRef_service, Service.holders_addCaller]
            split <;> simp
          · rw [heq]
            refine ⟨by simp, fun r' => ?_⟩
            rw [hservice, Service.holders_addCaller]
            split <;> simp
  | unsubscribe c hlistening => simp [PubSub.unsubscribe, hfirst c rfl, PubSub.enqueue]
  | process | settle | emit => simp [PubSub.emit]
  | microtask onEvent job rest hqueue =>
      obtain ⟨hsent, hholders⟩ := PubSub.runJob_holders deps onEvent { s with queue := rest } job
      exact ⟨fun t => hsent _, fun r => (hholders r).ge⟩
  | finish c event outcome => cases outcome <;> simp [PubSub.finish, PubSub.enqueue]
  | promiseSettles index c event rejection =>
      cases rejection <;> simp [PubSub.promiseSettles, PubSub.enqueue]

/-- A first `Unsubscribe` call sends UNSUBSCRIBE for its own target, and only
when nobody else holds the subscription. -/
theorem unsubscribe_sends {M : Type} {s : PubSub} (h : SubscriptionInv s) {c : Nat}
    (hlistening : (s.service.callers c).phase = .listening)
    (hrel : (s.service.callers c).released = false) (t : Target) :
    .sent ⟨.unsubscribe, t⟩ ∈ (s.unsubscribe (M := M) c).2 ↔
      (s.service.callers c).target = t ∧
        (s.service.holders (s.service.callers c).ref).erase c = ∅ := by
  have hrefs := h.refs.release hlistening hrel
  have hcount := hrefs.count (s.service.callers c).ref
  rw [Service.holders_release] at hcount
  have hzero : (s.detach c).service.count (s.service.callers c).ref = 0 ↔
      (s.service.holders (s.service.callers c).ref).erase c = ∅ := by
    rw [← Finset.card_eq_zero]
    simp only [PubSub.detach]
    omega
  have hcaller : ((s.detach c).service.callers c).target = (s.service.callers c).target ∧
      ((s.detach c).service.callers c).ref = (s.service.callers c).ref := by
    simp [PubSub.detach, Service.release]
  rw [← hzero]
  by_cases hlast : (s.detach c).service.count (s.service.callers c).ref = 0 <;>
    simp [PubSub.unsubscribe, hrel, PubSub.releaseSubscription, hcaller.1, hcaller.2, hlast,
      eq_comm]

/-- A first `Unsubscribe` call gives up its caller's hold and no other. -/
theorem PubSub.unsubscribe_holders {M : Type} {s : PubSub} {c : Nat}
    (hrel : (s.service.callers c).released = false) (r : Nat) :
    (s.unsubscribe (M := M) c).1.service.holders r = (s.service.holders r).erase c := by
  rw [← Service.holders_release]
  simp only [unsubscribe, hrel, releaseSubscription, Bool.false_eq_true, if_false]
  split <;> rfl

/-! ## Safety -/

/-- The callers that joined the subscription `r` and have not called their
`Unsubscribe` function among the actions `as`. -/
def PubSub.members (s : PubSub) (as : List PubSubAction) (r : Nat) : Set Nat :=
  {c | c < s.service.callerCount ∧ (s.service.callers c).ref = r ∧ .unsubscribe c ∉ as}

/-- What the service promises of a run `as` that ends in `s` with the outputs
`out`. -/
structure SubscriptionSafe {M : Type} (deps : PubSubDeps M) (as : List PubSubAction)
    (out : List (PubSubOutput M)) (s : PubSub) : Prop where
  /-- Callers, `Unsubscribe` calls, commands and answers are those of the run. -/
  record : RecordsRun deps as out s
  /-- A caller's subscription is a SUBSCRIBE sent for its target. -/
  joined : ∀ c < s.service.callerCount, (s.service.callers c).ref < s.connection.sent ∧
    s.connection.commands (s.service.callers c).ref = ⟨.subscribe, (s.service.callers c).target⟩
  /-- A call joins the current subscription of its target. -/
  joins : ∀ kind name fullName, deps.keyBuilder.applyNamespace name = .ok fullName → ∀ s' more,
    pubSubStep deps s (kind.join name) = some (s', more) →
      s'.service.refs ⟨kind, fullName⟩ = some (s'.service.callers s.service.callerCount).ref
  /-- The last command for a live caller's target is an accepted SUBSCRIBE. -/
  live : ∀ c t, .subscribed c t ∈ out → .unsubscribe c ∉ as →
    ∃ r < s.connection.processed, s.connection.commands r = ⟨.subscribe, t⟩ ∧
      s.connection.accepted r = true ∧
      ∀ r', r < r' → r' < s.connection.sent → (s.connection.commands r').target ≠ t
  /-- The members of a current subscription are live or wait for its ack. -/
  members : ∀ t r, s.service.refs t = some r → ∀ c ∈ s.members as r,
    (s.service.callers c).target = t ∧
      ((s.service.callers c).phase = .waiting ∨ .subscribed c t ∈ out)
  /-- UNSUBSCRIBE is sent exactly when the last member of the current
  subscription leaves. -/
  unsubscribed : ∀ a s' more, pubSubStep deps s a = some (s', more) → ∀ t,
    .sent ⟨.unsubscribe, t⟩ ∈ more ↔ ∃ r, s.service.refs t = some r ∧
      (s.members as r).Nonempty ∧ s'.members (as ++ [a]) r = ∅
  /-- No caller of a rejected SUBSCRIBE is told that it is subscribed. -/
  refused : ∀ c < s.service.callerCount, (s.service.callers c).ref < s.connection.processed →
    s.connection.accepted (s.service.callers c).ref = false → ∀ t, .subscribed c t ∉ out
  /-- Every caller of a rejected SUBSCRIBE is told so. -/
  told : ∀ c < s.service.callerCount, s.connection.Refused (s.service.callers c).ref →
    s.queue = [] → .rejected c ∈ out
  /-- Once one of them is told, the next call joins a later SUBSCRIBE, which it
  sends itself when there is none. -/
  forgotten : ∀ c, .rejected c ∈ out → ∀ name,
    deps.keyBuilder.applyNamespace name = .ok (s.service.callers c).target.name → ∀ s' more,
    pubSubStep deps s ((s.service.callers c).target.kind.join name) = some (s', more) →
      (s.service.callers c).ref < (s'.service.callers s.service.callerCount).ref ∧
      (s.service.refs (s.service.callers c).target = none →
        .sent ⟨.subscribe, (s.service.callers c).target⟩ ∈ more)

/-- The members are the holders that the `released` variables tell. -/
theorem RecordsRun.coe_holders {M : Type} {deps : PubSubDeps M} {as : List PubSubAction}
    {out : List (PubSubOutput M)} {s : PubSub} (h : RecordsRun deps as out s) (r : Nat) :
    (s.service.holders r : Set Nat) = s.members as r := by
  ext c
  rw [Finset.mem_coe, Service.mem_holders, ← Bool.not_eq_true, h.released c]
  rfl

/-- A caller that listens and has not unsubscribed finds its subscription. -/
theorem SubscriptionInv.held {s : PubSub} (h : SubscriptionInv s) {c : Nat}
    (hlistening : (s.service.callers c).phase = .listening)
    (hrel : (s.service.callers c).released = false) :
    s.service.refs (s.service.callers c).target = some (s.service.callers c).ref :=
  (h.refs.kept c (h.refs.known c (by simp [hlistening])) hrel).resolve_right
    (h.refs.listening c hlistening).not_dropped

/-- UNSUBSCRIBE is sent exactly when the last holder leaves. The counter of the
code is the number of holders, so it falls to zero exactly then. -/
theorem SubscriptionInv.unsubscribed {M : Type} {deps : PubSubDeps M} {s s' : PubSub}
    (h : SubscriptionInv s) {a : PubSubAction} {more : List (PubSubOutput M)}
    (hstep : pubSubStep deps s a = some (s', more)) (t : Target) :
    .sent ⟨.unsubscribe, t⟩ ∈ more ↔ ∃ r, s.service.refs t = some r ∧
      (s.service.holders r).Nonempty ∧ s'.service.holders r = ∅ := by
  by_cases hfirst : ∃ c, a = .unsubscribe c ∧ (s.service.callers c).released = false
  · obtain ⟨c, rfl, hrel⟩ := hfirst
    simp only [pubSubStep, Option.ite_none_right_eq_some, Option.some.injEq] at hstep
    obtain ⟨hlistening, heq⟩ := hstep
    have hsends := unsubscribe_sends (M := M) h hlistening hrel t
    have hholders := PubSub.unsubscribe_holders (M := M) hrel
    rw [heq] at hsends hholders
    rw [hsends]
    have hlt := h.refs.known c (by simp [hlistening])
    constructor
    · rintro ⟨rfl, hlast⟩
      refine ⟨_, h.held hlistening hrel, ⟨c, Service.mem_holders.mpr ⟨hlt, rfl, hrel⟩⟩, ?_⟩
      rw [hholders, hlast]
    · rintro ⟨r, hr, hsome, hnone⟩
      rw [hholders] at hnone
      have hmem : c ∈ s.service.holders r := by
        by_contra hnot
        rw [Finset.erase_eq_of_notMem hnot] at hnone
        exact hsome.ne_empty hnone
      obtain rfl := (Service.mem_holders.mp hmem).2.1
      have hcommand := (h.refs.joined c hlt).2
      rw [(h.refs.current t _ hr).2.1] at hcommand
      exact ⟨by simpa [eq_comm] using hcommand, hnone⟩
  · have hrepeat : ∀ c, a = .unsubscribe c → (s.service.callers c).released = true := by
      intro c hc
      by_contra hrel
      exact hfirst ⟨c, hc, by simpa using hrel⟩
    obtain ⟨hsent, hholders⟩ := holders_step hstep hrepeat
    refine ⟨fun hmem => absurd hmem (hsent t), ?_⟩
    rintro ⟨r, -, hsome, hnone⟩
    have hsub := hholders r
    rw [hnone, Finset.subset_empty] at hsub
    exact absurd hsub hsome.ne_empty

/-- Whose call was rejected joins a later subscription with the next call. Its
entry was dropped, so the next call for the target sends a SUBSCRIBE again. -/
theorem SubscriptionInv.forgotten {M : Type} {deps : PubSubDeps M} {s s' : PubSub}
    (h : SubscriptionInv s) {c : Nat} (hphase : (s.service.callers c).phase = .rejected)
    {name : Text} {more : List (PubSubOutput M)}
    (hname : deps.keyBuilder.applyNamespace name = .ok (s.service.callers c).target.name)
    (hstep : pubSubStep deps s ((s.service.callers c).target.kind.join name) = some (s', more)) :
    (s.service.callers c).ref < (s'.service.callers s.service.callerCount).ref ∧
      (s.service.refs (s.service.callers c).target = none →
        .sent ⟨.subscribe, (s.service.callers c).target⟩ ∈ more) := by
  have hc := h.refs.known c (by simp [hphase])
  obtain ⟨hlt, hcommand⟩ := h.refs.joined c hc
  rw [pubSubStep_join] at hstep
  have hcall := Option.some.inj hstep
  rcases s.subscribeTo_cases deps _ hname with ⟨r, hr, heq⟩ | ⟨hnone, t, hservice, -, -, heq⟩
  · rw [heq] at hcall
    cases hcall
    obtain ⟨-, -, hlast⟩ := h.refs.current _ r hr
    have hne : r ≠ (s.service.callers c).ref := by
      rintro rfl
      exact h.refs.gone _ _ hr (h.refs.rejected c hphase)
    have hnot : ¬ r < (s.service.callers c).ref := by
      intro hlater
      refine hlast _ hlater hlt ?_
      rw [hcommand]
    refine ⟨?_, fun hnone => ?_⟩
    · simp only [PubSub.joinRef_service, Service.addCaller, Function.update_self]
      omega
    · rw [hr] at hnone
      cases hnone
  · rw [heq] at hcall
    cases hcall
    refine ⟨?_, fun _ => by simp⟩
    simpa [hservice, Service.addCaller, Service.setRef] using hlt

/-- A call leaves its caller with the current subscription of its target. That
is the reference it finds, or the one that it creates. -/
theorem joins_current {M : Type} {deps : PubSubDeps M} {s s' : PubSub} {kind : TargetKind}
    {name fullName : Text} {more : List (PubSubOutput M)}
    (hname : deps.keyBuilder.applyNamespace name = .ok fullName)
    (hstep : pubSubStep deps s (kind.join name) = some (s', more)) :
    s'.service.refs ⟨kind, fullName⟩ = some (s'.service.callers s.service.callerCount).ref := by
  rw [pubSubStep_join] at hstep
  have hcall := Option.some.inj hstep
  rcases s.subscribeTo_cases deps kind hname with ⟨r, hr, heq⟩ | ⟨-, t, hservice, -, -, heq⟩
  · rw [heq] at hcall
    cases hcall
    simp [Service.addCaller, hr]
  · rw [heq] at hcall
    cases hcall
    simp [hservice, Service.addCaller, Service.setRef]

/-- **Subscription safety.**  Every run is safe: what the callers were told and
the `Unsubscribe` calls they made decide which commands are sent. -/
theorem subscription_safe {M : Type} (deps : PubSubDeps M) (as : List PubSubAction) (s : PubSub)
    (out : List (PubSubOutput M)) (hrun : (pubSubMachine deps).run as = some (s, out)) :
    SubscriptionSafe deps as out s := by
  obtain ⟨h, hrecord⟩ := recordsRun_run hrun
  have hstays : ∀ c, .unsubscribe c ∉ as → (s.service.callers c).released = false := by
    intro c hnot
    rw [← Bool.not_eq_true, hrecord.released]
    exact hnot
  refine ⟨hrecord, h.refs.joined, fun _ _ _ hname _ _ hstep => joins_current hname hstep,
    ?_, ?_, ?_, ?_, ?_, ?_⟩
  · intro c t hsubscribed hnot
    obtain ⟨hlistening, rfl⟩ := (hrecord.subscribed c t).mpr hsubscribed
    obtain ⟨-, hcommand, hlast⟩ := h.refs.current _ _ (h.held hlistening (hstays c hnot))
    obtain ⟨hsettled, hacc⟩ := h.refs.listening c hlistening
    exact ⟨_, h.jobs.settled_lt _ hsettled, hcommand, hacc, hlast⟩
  · rintro t r hr c ⟨hlt, rfl, hnot⟩
    have hcommand := (h.refs.joined c hlt).2
    rw [(h.refs.current t _ hr).2.1] at hcommand
    have htarget : (s.service.callers c).target = t := by simpa [eq_comm] using hcommand
    refine ⟨htarget, ?_⟩
    cases hphase : (s.service.callers c).phase with
    | waiting => exact Or.inl rfl
    | listening => exact Or.inr ((hrecord.subscribed c t).mp ⟨hphase, htarget⟩)
    | rejected => exact absurd (h.refs.rejected c hphase) (h.refs.gone t _ hr)
  · intro a s' more hstep t
    have hafter := hrecord.step (recordStep_step h hstep)
    rw [h.unsubscribed hstep]
    simp only [← hrecord.coe_holders, ← hafter.coe_holders, Finset.coe_nonempty,
      Finset.coe_eq_empty]
  · intro c hc hlt hacc t hsubscribed
    have hgranted := h.refs.listening c ((hrecord.subscribed c t).mpr hsubscribed).1
    rw [hgranted.2] at hacc
    cases hacc
  · intro c hc hrefused hqueue
    refine (hrecord.rejected c).mp ?_
    cases hphase : (s.service.callers c).phase with
    | waiting =>
        have hwait := h.jobs.waiting c _ ⟨hc, hphase, rfl⟩
        simp [PubSub.joinJobs, hqueue, hrefused.1] at hwait
    | listening =>
        have hgranted := h.refs.listening c hphase
        have hacc := hrefused.2
        rw [hgranted.2] at hacc
        cases hacc
    | rejected => rfl
  · exact fun c hrejected name hname s' more hstep =>
      h.forgotten ((hrecord.rejected c).mpr hrejected) hname hstep

/-- A service that hands its payloads on as text. -/
def plainDeps : PubSubDeps Text where
  keyBuilder := .ofOptions defaultOptions
  deserialize := .ok
  hasOnEvent := true

/-- A SUBSCRIBE is rejected; the next call sends it again and is accepted, and
one more joins it.  Both leave, each calling `Unsubscribe` twice. -/
def secondAttempt : List PubSubAction :=
  [.subscribe "orders".toList, .process false, .settle 0] ++
    List.replicate 3 (.microtask (.ok ())) ++
    [.subscribe "orders".toList, .subscribe "orders".toList, .process true, .settle 1] ++
    List.replicate 5 (.microtask (.ok ())) ++
    [.unsubscribe 1, .unsubscribe 1, .unsubscribe 2, .unsubscribe 2]

/-- In a run where a rejected SUBSCRIBE is sent again and both callers leave,
each calling `Unsubscribe` twice, there are two SUBSCRIBE and one
UNSUBSCRIBE. -/
theorem subscription_safe_second_attempt :
    ∃ s out, (pubSubMachine plainDeps).run secondAttempt = some (s, out) ∧
      SubscriptionSafe plainDeps secondAttempt out s ∧
      out.filterMap (·.command) =
        [⟨.subscribe, ⟨.channel, "app:orders".toList⟩⟩,
          ⟨.subscribe, ⟨.channel, "app:orders".toList⟩⟩,
          ⟨.unsubscribe, ⟨.channel, "app:orders".toList⟩⟩] :=
  ⟨_, _, rfl, subscription_safe plainDeps secondAttempt _ _ rfl, rfl⟩

end NestCache
