import NestCache.LifecycleInvariant

/-!
# Safety of the connection lifecycle

* `lifecycle_safe` — one client of each role, none after shutdown, and every
  client closed once the shutdown promises have resolved;
* `early_pubsub_promise` — a second Pub/Sub shutdown call resolves while the
  `quit()` that the first one awaits is still pending.
-/

namespace NestCache

/-- The flags record exactly which hooks were called. No other piece of code
sets one, and none clears it. -/
theorem lifecycleStep_down {options : ResolvedOptions} {more : List LifecycleEvent}
    {s s' : Lifecycle} {a : LifecycleAction} (hstep : lifecycleStep options s a = some (s', more)) :
    (s'.managerDown = true ↔ s.managerDown = true ∨ a = .managerShutdown) ∧
    (s'.pubsubDown = true ↔ s.pubsubDown = true ∨ a = .pubsubShutdown) := by
  cases a with
  | onModuleInit | getClient =>
      obtain ⟨_, _, hframe⟩ := s.finish_ensureClient_frame _
      rw [Option.some.inj hstep] at hframe
      obtain rfl : s' = _ := hframe
      simp
  | subscribe name | psubscribe name =>
      obtain ⟨_, _, hframe⟩ := s.subscribe_frame (.ofOptions options) name
      rw [Option.some.inj hstep] at hframe
      obtain rfl : s' = _ := hframe
      simp
  | managerShutdown =>
      cases hstep
      simp [Lifecycle.managerShutdown]
  | pubsubShutdown =>
      cases hstep
      simp [Lifecycle.pubsubShutdown]
  | managerQuit | managerTimeout | managerResume | pubsubQuit | pubsubResume =>
      simp only [lifecycleStep] at hstep
      split at hstep <;> cases hstep
      simp

/-- Along a run, a flag is set exactly when its hook was called. -/
theorem down_iff_run {options : ResolvedOptions} {as : List LifecycleAction} {s : Lifecycle}
    {out : List LifecycleEvent} (h : (lifecycleMachine options).run as = some (s, out)) :
    (s.managerDown = true ↔ .managerShutdown ∈ as) ∧
    (s.pubsubDown = true ↔ .pubsubShutdown ∈ as) := by
  refine (lifecycleMachine options).run_induction (I := fun as _ s =>
    (s.managerDown = true ↔ .managerShutdown ∈ as) ∧
    (s.pubsubDown = true ↔ .pubsubShutdown ∈ as)) ?_ ?_ h
  · simp [lifecycleMachine]
  · intro hist seen s a s' out hinv hstep
    obtain ⟨hmanager, hpubsub⟩ := lifecycleStep_down hstep
    rw [hmanager, hpubsub, hinv.1, hinv.2]
    simp [eq_comm]

/-- Events of a step once a flag is set. No client is opened after the
manager's shutdown, and no subscriber after that of the pub/sub service. -/
theorem lifecycleStep_opens {options : ResolvedOptions} {more : List LifecycleEvent}
    {s s' : Lifecycle} {a : LifecycleAction} (hstep : lifecycleStep options s a = some (s', more))
    {role : ClientRole} {client : Nat} (hopen : .opened role client ∈ more) :
    s.managerDown = false ∧ (role = .subscriber → s.pubsubDown = false) := by
  have hsub : ∀ name, .opened role client ∈ (s.subscribe (.ofOptions options) name).2 →
      s.managerDown = false ∧ (role = .subscriber → s.pubsubDown = false) := by
    intro name hmem
    unfold Lifecycle.subscribe at hmem
    cases hns : (KeyBuilder.ofOptions options).applyNamespace name with
    | error e => simp [hns] at hmem
    | ok full =>
        rcases s.ensureSubscriber_cases with ⟨_, -, heq⟩ | ⟨-, -, heq⟩ | ⟨-, hup, hpup, heq⟩
        · simp [hns, heq, Lifecycle.finish] at hmem
        · simp [hns, heq, Lifecycle.finish] at hmem
        · exact ⟨hup, fun _ => hpup⟩
  have hmain : ∀ last : Nat → List LifecycleEvent,
      (∀ c, .opened role client ∉ last c) →
      .opened role client ∈ (s.finish last s.ensureClient).2 →
      s.managerDown = false ∧ (role = .subscriber → s.pubsubDown = false) := by
    intro last hlast hmem
    rcases s.ensureClient_cases with ⟨_, -, heq⟩ | ⟨-, -, heq⟩ | ⟨-, hup, heq⟩
    · simp [heq, Lifecycle.finish, hlast] at hmem
    · simp [heq, Lifecycle.finish] at hmem
    · refine ⟨hup, ?_⟩
      rintro rfl
      simp [heq, Lifecycle.finish, hlast] at hmem
  cases a with
  | onModuleInit =>
      have hmem := hmain (fun _ => []) (by simp)
      rw [Option.some.inj hstep] at hmem
      exact hmem hopen
  | getClient =>
      have hmem := hmain (fun c => [.returned c]) (by simp)
      rw [Option.some.inj hstep] at hmem
      exact hmem hopen
  | subscribe name =>
      have hmem := hsub name
      rw [Option.some.inj hstep] at hmem
      exact hmem hopen
  | psubscribe name =>
      have hmem := hsub name
      rw [Option.some.inj hstep] at hmem
      exact hmem hopen
  | managerShutdown | pubsubShutdown =>
      cases hstep
      cases hopen
  | managerQuit _ ok | managerResume _ | pubsubQuit _ ok | pubsubResume _ | managerTimeout _ =>
      simp only [lifecycleStep, quitEvents] at hstep
      split at hstep <;> cases hstep
      first
        | cases hopen
        | (split at hopen <;> simp at hopen)

/-- Once a flag is set, a later run opens nothing it forbids. The induction is
on the run; a flag that is set stays set. -/
theorem runFrom_opens {options : ResolvedOptions} {bs : List LifecycleAction} {s t : Lifecycle}
    {later : List LifecycleEvent}
    (h : (lifecycleMachine options).runFrom s bs = some (t, later)) :
    (s.managerDown = true → ∀ role client, .opened role client ∉ later) ∧
    (s.pubsubDown = true → ∀ client, .opened .subscriber client ∉ later) := by
  constructor
  · intro hdown role client hmem
    refine (lifecycleMachine options).runFrom_forall (I := fun s => s.managerDown = true)
      (Q := fun o => o ≠ .opened role client) ?_ hdown h _ hmem rfl
    intro s a s' out hs hstep
    refine ⟨(lifecycleStep_down hstep).1.mpr (Or.inl hs), ?_⟩
    rintro o ho rfl
    have hup := (lifecycleStep_opens hstep ho).1
    rw [hs] at hup
    cases hup
  · intro hdown client hmem
    refine (lifecycleMachine options).runFrom_forall (I := fun s => s.pubsubDown = true)
      (Q := fun o => o ≠ .opened .subscriber client) ?_ hdown h _ hmem rfl
    intro s a s' out hs hstep
    refine ⟨(lifecycleStep_down hstep).2.mpr (Or.inl hs), ?_⟩
    rintro o ho rfl
    have hup := (lifecycleStep_opens hstep ho).2 rfl
    rw [hs] at hup
    cases hup

/-- What the two services promise about a run `as` with events `out` that ends
in `s`, and about events `later` of any continuation. -/
structure SafeLifecycle (options : ResolvedOptions) (as : List LifecycleAction) (s : Lifecycle)
    (out later : List LifecycleEvent) : Prop where
  /-- At most one client of each role is ever opened. -/
  once : ∀ role, out.countP (·.opens role) ≤ 1
  /-- Every `getClient` that returns gives the main client. -/
  same : ∀ client, .returned client ∈ out → .opened .main client ∈ out
  /-- Nothing is opened after the manager's shutdown began. -/
  after_manager : .managerShutdown ∈ as → ∀ role client, .opened role client ∉ later
  /-- No subscriber is opened after the Pub/Sub shutdown began. -/
  after_pubsub : .pubsubShutdown ∈ as → ∀ client, .opened .subscriber client ∉ later
  /-- Calls that would open the main client fail with `CONNECTION_LOST`. -/
  main_lost : .managerShutdown ∈ as → s.client = none →
    ∀ a ∈ [LifecycleAction.getClient, .onModuleInit],
      lifecycleStep options s a = some (s, [.threw connectionLost])
  /-- Calls that would open the subscriber fail with `CONNECTION_LOST`. -/
  subscriber_lost : .managerShutdown ∈ as ∨ .pubsubShutdown ∈ as → s.subscriber = none →
    ∀ name ≠ [], ∀ a ∈ [LifecycleAction.subscribe name, .psubscribe name],
      lifecycleStep options s a = some (s, [.threw connectionLost])
  /-- Once the promise of the first Pub/Sub shutdown call and one of the
  manager's have resolved, every client is closed. -/
  closed : (∃ call ∈ s.managerCalls, call.resolved = true) →
    (∃ call, s.pubsubCalls[0]? = some call ∧ call.resolved = true) →
    ∀ role client, .opened role client ∈ out → Closed out client

/-- **Connection lifecycle.** Every run of the two services is safe. The parts
come from the invariant, which knows the clients and the calls, and from what a
run does once a flag is set. -/
theorem lifecycle_safe (options : ResolvedOptions) (as bs : List LifecycleAction)
    (s t : Lifecycle) (out later : List LifecycleEvent)
    (hrun : (lifecycleMachine options).run as = some (s, out))
    (hlater : (lifecycleMachine options).runFrom s bs = some (t, later)) :
    SafeLifecycle options as s out later := by
  have hinv := lifecycleInv_run hrun
  obtain ⟨hmanager, hpubsub⟩ := down_iff_run hrun
  obtain ⟨hopens, hopensSub⟩ := runFrom_opens hlater
  refine ⟨?_, hinv.returned, fun h => hopens (hmanager.mpr h),
    fun h => hopensSub (hpubsub.mpr h), ?_, ?_, ?_⟩
  · intro role
    cases role with
    | main => exact hinv.main_once
    | subscriber => exact hinv.subscriber_once
  · intro hdown hnone a ha
    have hlost : s.ensureClient = .error connectionLost := by
      simp [Lifecycle.ensureClient, hnone, hmanager.mpr hdown]
    simp only [List.mem_cons, List.not_mem_nil, or_false] at ha
    rcases ha with rfl | rfl <;> simp [lifecycleStep, hlost, Lifecycle.finish]
  · intro hdown hnone name hname a ha
    rw [← hmanager, ← hpubsub] at hdown
    have hlost : s.ensureSubscriber = .error connectionLost := by
      rcases s.ensureSubscriber_cases with ⟨_, hheld, -⟩ | ⟨-, -, heq⟩ | ⟨-, hup, hpup, -⟩
      · rw [hnone] at hheld
        cases hheld
      · exact heq
      · simp [hup, hpup] at hdown
    have hfull := (KeyBuilder.ofOptions options).applyNamespace_of_ne_nil hname
    simp only [List.mem_cons, List.not_mem_nil, or_false] at ha
    rcases ha with rfl | rfl <;>
      simp [lifecycleStep, Lifecycle.subscribe, hfull, hlost, Lifecycle.finish]
  · rintro ⟨call, hcall, hres⟩ ⟨first, hfirst, hfres⟩ role client hmem
    have hsub := List.mem_of_getElem? hfirst
    cases role with
    | main => exact (hinv.manager_calls call hcall).resolved hres client hmem
    | subscriber =>
        rcases hinv.subscriber_held client hmem with hheld | ⟨-, taker, htaker, htook⟩
        · rw [(hinv.pubsub_down (List.ne_nil_of_mem hsub)).2] at hheld
          cases hheld
        · obtain rfl : first = taker := Option.some.inj (hfirst.symm.trans htaker)
          exact (hinv.pubsub_calls first hsub).resolved hfres client htook

/-- A run that opens both clients, has the manager's `quit()` time out and the
subscriber's resolve. -/
def orderlyShutdown : List LifecycleAction :=
  [.onModuleInit, .subscribe "news".toList, .managerShutdown, .pubsubShutdown,
    .managerTimeout 0, .managerResume 0, .pubsubQuit 0 true, .pubsubResume 0]

/-- In this run one client is disconnected after its timer and the other
has quit. -/
theorem lifecycle_safe_orderly :
    ∃ s out, (lifecycleMachine defaultOptions).run orderlyShutdown = some (s, out) ∧
      SafeLifecycle defaultOptions orderlyShutdown s out [] :=
  ⟨_, _, rfl, lifecycle_safe defaultOptions orderlyShutdown [] _ _ _ _ rfl rfl⟩

/-- **An early promise.** A second Pub/Sub shutdown call resolves at once
while the `quit()` of the first is pending; with the manager's promise
resolved too, the subscriber is still open. -/
theorem early_pubsub_promise :
    ¬ ∀ (options : ResolvedOptions) (as : List LifecycleAction) (s : Lifecycle)
        (out : List LifecycleEvent), (lifecycleMachine options).run as = some (s, out) →
        (∃ call ∈ s.managerCalls, call.resolved = true) →
        (∃ call ∈ s.pubsubCalls, call.resolved = true) →
        ∀ role client, .opened role client ∈ out → Closed out client := by
  intro hclaim
  have hopen := hclaim defaultOptions
    [.subscribe "news".toList, .pubsubShutdown, .pubsubShutdown, .managerShutdown]
    _ _ rfl (by decide) (by decide) .subscriber 0 (by decide)
  revert hopen
  unfold Closed
  decide

end NestCache
