import NestCache.DeliverySteps

/-!
# Pub/Sub delivery

The laws of single steps, added up over runs.

* `delivery_safe` — every event heard starts its handler exactly once, in
  order, with the decoded payload; every failure is reported exactly once; no
  start follows the end of an `Unsubscribe` call;
* `early_unsubscribe_promise` — the promise of a repeated `Unsubscribe` call
  resolves before a delivery that was queued earlier.
-/

namespace NestCache

variable {M : Type}

/-! ## Runs -/

/-- The part of what a caller heard that has been handled, and what came
of it. -/
def Delivered (deps : PubSubDeps M) (c : Nat) (out : List (PubSubOutput M)) (queue : List Job) :
    Prop :=
  ∃ handled, heard c out = handled ++ pendingFor c queue ∧
    startsOf c out = handled.filterMap (decoded deps) ∧
    undecodablesOf c out = handled.filterMap (undecoded deps)

/-- The invariant of deliveries over the trace. -/
structure DeliveryInv (deps : PubSubDeps M) (out : List (PubSubOutput M)) (s : PubSub) : Prop where
  subscriptions : SubscriptionInv s
  listeners : ListenerInv s
  unsub : UnsubInv out s
  attached : ∀ c, s.attached c = out.foldl (attachedTo c) none
  delivered : ∀ c, Delivered deps c out s.queue
  reported : deps.hasOnEvent = true → (failuresOf out).map handlerErrorReport =
    reportsOf out ++ (pendingReports s.queue).map handlerErrorReport
  escaped : ∀ e, .escaped e ∉ out

/-- One step adds what its laws say. What was queued for a caller, and then
started or refused, is in the order in which it heard it. -/
theorem DeliveryInv.step {deps : PubSubDeps M} {s s' : PubSub} {a : PubSubAction}
    {out more : List (PubSubOutput M)} (h : DeliveryInv deps out s)
    (hstep : pubSubStep deps s a = some (s', more)) : DeliveryInv deps (out ++ more) s' := by
  obtain ⟨ran, pushed, -, hjobs, hunsub, hlisteners⟩ :=
    stepEffect_step h.listeners h.subscriptions h.unsub hstep
  obtain ⟨kept, hold, hnew⟩ := hjobs.queue
  refine ⟨subscriptionInv_step h.subscriptions hstep, hlisteners,
    h.unsub.step h.listeners hunsub hjobs.queue, ?_, ?_, ?_, ?_⟩
  · intro c
    rw [List.foldl_append, ← h.attached c]
    exact hjobs.attached c
  · intro c
    obtain ⟨handled, hheard, hstarts, hundec⟩ := h.delivered c
    refine ⟨handled ++ pendingFor c ran, ?_, ?_, ?_⟩
    · calc heard c (out ++ more)
          = heard c out ++ heardFrom c (s.attached c) more := by
            rw [heard, heardFrom_append, ← h.attached c]
            rfl
        _ = handled ++ (pendingFor c ran ++ pendingFor c kept) ++ pendingFor c pushed := by
            rw [hheard, hold, pendingFor_append, hjobs.heard c]
        _ = handled ++ pendingFor c ran ++ pendingFor c s'.queue := by
            rw [hnew, pendingFor_append]
            simp
    · rw [startsOf, List.filterMap_append, List.filterMap_append]
      exact congrArg₂ _ hstarts (hjobs.starts c)
    · rw [undecodablesOf, List.filterMap_append, List.filterMap_append]
      exact congrArg₂ _ hundec (hjobs.undecodables c)
  · intro hon
    have hreports := hjobs.reports
    rw [if_pos hon] at hreports
    calc (failuresOf (out ++ more)).map handlerErrorReport
        = (failuresOf out).map handlerErrorReport ++ (failuresOf more).map handlerErrorReport := by
          rw [failuresOf, List.filterMap_append, List.map_append]
          rfl
      _ = reportsOf out ++ ((pendingReports ran).map handlerErrorReport ++
            (pendingReports kept).map handlerErrorReport) ++
            (pendingReports pushed).map handlerErrorReport := by
          rw [h.reported hon, hold, pendingReports_append, List.map_append, hjobs.failures]
      _ = reportsOf (out ++ more) ++ (pendingReports s'.queue).map handlerErrorReport := by
          rw [← hreports, hnew, pendingReports_append, List.map_append, reportsOf, reportsOf,
            reportsOf, List.filterMap_append]
          simp
  · intro e hmem
    rcases List.mem_append.mp hmem with hmem | hmem
    · exact h.escaped e hmem
    · exact hjobs.escaped e hmem

/-- The invariant holds of every run. By induction on the run, together with
the invariants of subscriptions, listeners and unsubscriptions that the step
needs. -/
theorem deliveryInv_run {deps : PubSubDeps M} {as : List PubSubAction} {s : PubSub}
    {out : List (PubSubOutput M)} (h : (pubSubMachine deps).run as = some (s, out)) :
    DeliveryInv deps out s := by
  refine (pubSubMachine deps).run_induction (I := fun _ out s => DeliveryInv deps out s) ?_
    (fun _ _ _ _ _ _ hinv hstep => hinv.step hstep) h
  refine ⟨@subscriptionInv_run M deps [] _ _ rfl, ⟨List.nodup_nil, ?_⟩, ?_, ?_, ?_, ?_, ?_⟩
  · simp [pubSubMachine]
  · constructor <;> simp [pubSubMachine, Unsubscribed]
  · intro c
    rfl
  · exact fun c => ⟨[], rfl, rfl, rfl⟩
  · intro hon
    rfl
  · simp

/-- From any point of a run on, the jobs that run are those at the front of the
queue, and they are what starts the handlers. -/
theorem jobs_run {deps : PubSubDeps M} {bs : List PubSubAction} {s t : PubSub}
    {seen later : List (PubSubOutput M)} (hinv : DeliveryInv deps seen s)
    (h : (pubSubMachine deps).runFrom s bs = some (t, later)) :
    DeliveryInv deps (seen ++ later) t ∧
    ∃ ran pushed, s.queue ++ pushed = ran ++ t.queue ∧
      ran.length = bs.countP (·.runsJob) ∧
      ∀ c, startsOf c later = (pendingFor c ran).filterMap (decoded deps) := by
  refine (pubSubMachine deps).runFrom_induction (I := fun bs later t =>
    DeliveryInv deps (seen ++ later) t ∧ ∃ ran pushed, s.queue ++ pushed = ran ++ t.queue ∧
      ran.length = bs.countP (·.runsJob) ∧
      ∀ c, startsOf c later = (pendingFor c ran).filterMap (decoded deps)) ?_ ?_ h
  · rw [List.append_nil]
    exact ⟨hinv, [], [], by simp, rfl, fun c => rfl⟩
  · rintro hist out t b t' more ⟨hmid, ran, pushed, hqueue, hlength, hstarts⟩ hb
    obtain ⟨ran', pushed', hlength', hjobs, -, -⟩ :=
      stepEffect_step hmid.listeners hmid.subscriptions hmid.unsub hb
    obtain ⟨kept, hold, hnew⟩ := hjobs.queue
    rw [← List.append_assoc]
    refine ⟨hmid.step hb, ran ++ ran', pushed ++ pushed', ?_, ?_, ?_⟩
    · rw [← List.append_assoc, hqueue, hold, hnew]
      simp
    · rw [List.length_append, List.countP_append, hlength, hlength']
    · intro c
      rw [startsOf, List.filterMap_append, pendingFor_append, List.filterMap_append]
      exact congrArg₂ _ (hstarts c) (hjobs.starts c)

/-! ## Delivery -/

/-- What the service promises about a run `as` that ends in `s` with trace
`out`, and about every continuation. -/
structure DeliverySafe (deps : PubSubDeps M) (as : List PubSubAction) (s : PubSub)
    (out : List (PubSubOutput M)) : Prop where
  /-- A listener is attached for the full name of a call that subscribed to it. -/
  attached : ∀ c t, .subscribed c t ∈ out → ∃ name, t.kind.join name ∈ as ∧
    deps.keyBuilder.applyNamespace name = .ok t.name
  /-- It is detached by its own `Unsubscribe` function only. -/
  detached : ∀ c, .detached c ∈ out → .unsubscribe c ∈ as
  /-- The events heard that are no longer queued started the handler, once each
  and in order, with the decoded payload; an undecodable one started nothing. -/
  delivered : ∀ c, Delivered deps c out s.queue
  /-- The events queued start the handler as soon as as many promise jobs have
  run as are queued. -/
  started : ∀ bs t later, (pubSubMachine deps).runFrom s bs = some (t, later) →
    s.queue.length ≤ bs.countP (·.runsJob) → ∀ c,
    (pendingFor c s.queue).filterMap (decoded deps) <+: startsOf c later
  /-- Every failure is reported exactly once, in order. -/
  reported : deps.hasOnEvent = true → (failuresOf out).map handlerErrorReport =
    reportsOf out ++ (pendingReports s.queue).map handlerErrorReport
  /-- Nothing escapes. -/
  escaped : ∀ e, .escaped e ∉ out
  /-- Runs that agree on the events and on a caller's own listener agree on its
  deliveries, whatever the other handlers do. -/
  independent : ∀ c as' s' out', (pubSubMachine deps).run as' = some (s', out') →
    out'.filter (·.concerns c) = out.filter (·.concerns c) →
    startsOf c out' ++ (pendingFor c s'.queue).filterMap (decoded deps) =
      startsOf c out ++ (pendingFor c s.queue).filterMap (decoded deps)
  /-- Once a caller's first `Unsubscribe` call has settled, or code that awaits
  any of its calls has gone on, its handler is never started. -/
  silent : ∀ c, Unsubscribed c out → ∀ bs t later,
    (pubSubMachine deps).runFrom s bs = some (t, later) → startsOf c later = []

/-- What is heard is what was handled and what is queued. -/
theorem Delivered.starts {deps : PubSubDeps M} {c : Nat} {out : List (PubSubOutput M)}
    {queue : List Job} (h : Delivered deps c out queue) :
    startsOf c out ++ (pendingFor c queue).filterMap (decoded deps) =
      (heard c out).filterMap (decoded deps) := by
  obtain ⟨handled, hheard, hstarts, -⟩ := h
  rw [hheard, hstarts, List.filterMap_append]

/-- A silenced caller stays silent. By induction on the later run: no delivery
is queued for it, and none is queued again. -/
theorem startsOf_silent {deps : PubSubDeps M} {bs : List PubSubAction} {s t : PubSub}
    {seen later : List (PubSubOutput M)} {c : Nat} (hinv : DeliveryInv deps seen s)
    (hsilent : Unsubscribed c seen)
    (h : (pubSubMachine deps).runFrom s bs = some (t, later)) : startsOf c later = [] := by
  refine ((pubSubMachine deps).runFrom_induction (I := fun _ later t =>
    DeliveryInv deps (seen ++ later) t ∧ startsOf c later = []) ?_ ?_ h).2
  · rw [List.append_nil]
    exact ⟨hinv, rfl⟩
  · rintro hist out t b t' more ⟨hmid, hnone⟩ hb
    obtain ⟨ran, pushed, -, hjobs, -, -⟩ :=
      stepEffect_step hmid.listeners hmid.subscriptions hmid.unsub hb
    obtain ⟨kept, hold, -⟩ := hjobs.queue
    have hbefore : Unsubscribed c (seen ++ out) :=
      hsilent.imp (fun ⟨ok, hmem⟩ => ⟨ok, List.mem_append_left _ hmem⟩)
        (List.mem_append_left _)
    have hran : pendingFor c ran = [] := by
      rw [pendingFor_eq_nil]
      intro event hmem
      refine (hmid.unsub.silent c hbefore).2 event ?_
      rw [hold]
      exact List.mem_append_left _ hmem
    have hmore := hjobs.starts c
    rw [hran] at hmore
    rw [← List.append_assoc]
    refine ⟨hmid.step hb, ?_⟩
    rw [startsOf, List.filterMap_append]
    exact List.append_eq_nil_iff.mpr ⟨hnone, hmore⟩

/-- A listener is attached for a call that asked for its target. -/
theorem attached_run {deps : PubSubDeps M} {as : List PubSubAction} {s : PubSub}
    {out : List (PubSubOutput M)} (hrun : (pubSubMachine deps).run as = some (s, out)) {c : Nat}
    {t : Target} (hmem : .subscribed c t ∈ out) :
    ∃ name, t.kind.join name ∈ as ∧ deps.keyBuilder.applyNamespace name = .ok t.name := by
  obtain ⟨hinv, hrecord⟩ := recordsRun_run hrun
  obtain ⟨hlt, rfl⟩ := hrecord.caller_of_subscribed hinv hmem
  exact hrecord.joined_call hlt

/-- **Pub/Sub delivery.** Every run delivers safely. Each part is read off the
invariant of deliveries; that nothing starts after a settled `Unsubscribe` is
the lemma above on later runs. -/
theorem delivery_safe (deps : PubSubDeps M) (as : List PubSubAction) (s : PubSub)
    (out : List (PubSubOutput M)) (hrun : (pubSubMachine deps).run as = some (s, out)) :
    DeliverySafe deps as s out := by
  have hinv := deliveryInv_run hrun
  have hrecord := (recordsRun_run hrun).2
  refine ⟨?_, fun c hmem => (hrecord.detached c).mp hmem, hinv.delivered, ?_, hinv.reported,
    hinv.escaped, ?_, ?_⟩
  · exact fun c t hmem => attached_run hrun hmem
  · intro bs t later hlater hlength c
    obtain ⟨-, ran, pushed, hqueue, hran, hstarts⟩ := jobs_run hinv hlater
    rw [hstarts c]
    have hfront : s.queue <+: ran := by
      refine List.prefix_of_prefix_length_le ⟨pushed, hqueue⟩ ⟨t.queue, rfl⟩ ?_
      omega
    obtain ⟨more, rfl⟩ := hfront
    rw [pendingFor_append, List.filterMap_append]
    exact List.prefix_append _ _
  · intro c as' s' out' hrun' hsame
    rw [((deliveryInv_run hrun').delivered c).starts, (hinv.delivered c).starts]
    congr 1
    rw [heard, heard, ← heardFrom_filter, hsame, heardFrom_filter]
  · intro c hsilent bs t later hlater
    exact startsOf_silent hinv hsilent hlater

/-- A handler that throws on an event, an undecodable payload, and an
`Unsubscribe` call. -/
def noisyRun : List PubSubAction :=
  [.subscribe "news".toList, .process true, .settle 0] ++
    List.replicate 3 (.microtask (.ok ())) ++
    [.emit (.message "app:news".toList "1".toList), .emit (.message "app:news".toList "\x7b".toList),
      .microtask (.ok ()), .finish (.throws (.raw (.error "boom".toList))), .microtask (.ok ()),
      .unsubscribe 0, .microtask (.error (.raw (.error "observer".toList)))]

/-- JSON payloads, as far as this run has any. -/
def jsonDeps : PubSubDeps JsNumber where
  keyBuilder := .ofOptions defaultOptions
  deserialize raw :=
    if raw = "1".toList then .ok 1
    else throwCache .DESERIALIZATION_FAILED
      [detail "error" "stored value is not valid JSON", ("length", .number (.ofNat raw.length))]
  hasOnEvent := true

/-- In this run a handler throws, a payload is refused and the listener
is detached. -/
theorem delivery_safe_noisy :
    ∃ s out, (pubSubMachine jsonDeps).run noisyRun = some (s, out) ∧
      DeliverySafe jsonDeps noisyRun s out :=
  ⟨_, _, rfl, delivery_safe jsonDeps noisyRun _ _ rfl⟩

/-- **An early promise.**  The promise of a second `Unsubscribe` call has
resolved when the call returns; a delivery queued before starts the handler
afterwards. -/
theorem early_unsubscribe_promise :
    ¬ ∀ (as : List PubSubAction) (s : PubSub) (out : List (PubSubOutput JsNumber)),
        (pubSubMachine jsonDeps).run as = some (s, out) → ∀ c first ok,
        .unsubscribeSettled c first ok ∈ out → ∀ bs t later,
        (pubSubMachine jsonDeps).runFrom s bs = some (t, later) → startsOf c later = [] := by
  intro hclaim
  have hstarts := hclaim
    ([.subscribe "news".toList, .process true, .settle 0] ++
      List.replicate 3 (.microtask (.ok ())) ++
      [.emit (.message "app:news".toList "1".toList), .unsubscribe 0, .unsubscribe 0])
    _ _ rfl 0 false true (by decide) [.microtask (.ok ())] _ _ rfl
  revert hstarts
  decide

end NestCache
