import NestCache.ConnectionLifecycle

/-!
# The invariant of the connection lifecycle

Whatever the order of calls and resumptions, a client that was opened is still
held by its service, or the call that is to close it is known (`LifecycleInv`).
-/

namespace NestCache

/-- The client's `quit()` has resolved or its `disconnect()` was called. -/
def Closed (out : List LifecycleEvent) (client : Nat) : Prop :=
  .quitResolved client ∈ out ∨ .disconnected client ∈ out

/-- A client that is closed stays closed as the run goes on. -/
theorem Closed.append {out : List LifecycleEvent} {client : Nat} (h : Closed out client)
    (more : List LifecycleEvent) : Closed (out ++ more) client :=
  h.imp (List.mem_append_left more) (List.mem_append_left more)

/-- The event opens a client of the role. -/
def LifecycleEvent.opens (role : ClientRole) : LifecycleEvent → Bool
  | opened role' _ => role' = role
  | _ => false

/-- What holds of a shutdown call: whatever it took to close is a client of its
service, its good outcome means the `quit()` resolved, and when it has resolved
the clients `covered` by it are closed. -/
structure CallInv (role : ClientRole) (out : List LifecycleEvent) (covered : Nat → Prop)
    (call : ShutdownCall) : Prop where
  client : ∀ client, call.client = some client → .opened role client ∈ out
  outcome : call.outcome = some true → ∀ client, call.client = some client → Closed out client
  resolved : call.resolved = true → ∀ client, covered client → Closed out client

/-- The invariant of both services over the events so far. -/
structure LifecycleInv (out : List LifecycleEvent) (s : Lifecycle) : Prop where
  fresh : ∀ role client, .opened role client ∈ out → client < s.nextClient
  main_once : out.countP (·.opens .main) ≤ 1
  subscriber_once : out.countP (·.opens .subscriber) ≤ 1
  main_opened : ∀ client, s.client = some client → .opened .main client ∈ out
  returned : ∀ client, .returned client ∈ out → .opened .main client ∈ out
  subscriber_opened : ∀ client, s.subscriber = some client → .opened .subscriber client ∈ out
  main_held : ∀ client, .opened .main client ∈ out →
    s.client = some client ∨ s.managerDown = true ∧ Closed out client
  subscriber_held : ∀ client, .opened .subscriber client ∈ out →
    s.subscriber = some client ∨
      s.pubsubDown = true ∧ ∃ call, s.pubsubCalls[0]? = some call ∧ call.client = some client
  manager_down : s.managerCalls ≠ [] → s.managerDown = true
  pubsub_down : s.pubsubCalls ≠ [] → s.pubsubDown = true ∧ s.subscriber = none
  manager_calls : ∀ call ∈ s.managerCalls,
    CallInv .main out (fun client => .opened .main client ∈ out) call
  pubsub_calls : ∀ call ∈ s.pubsubCalls,
    CallInv .subscriber out (fun client => call.client = some client) call

/-- Events that open no client and return only the held one. -/
structure Quiet (s : Lifecycle) (more : List LifecycleEvent) : Prop where
  opens : ∀ role client, .opened role client ∉ more
  returned : ∀ client, .returned client ∈ more → s.client = some client

/-- Quiet events add nothing to the clients that were opened. -/
theorem Quiet.mem_opened {s : Lifecycle} {more : List LifecycleEvent} (h : Quiet s more)
    (out : List LifecycleEvent) (role : ClientRole) (client : Nat) :
    .opened role client ∈ out ++ more ↔ .opened role client ∈ out := by
  rw [List.mem_append]
  exact ⟨fun hmem => hmem.resolve_right (h.opens role client), Or.inl⟩

/-- Quiet events leave the number of clients that were opened for a role. -/
theorem Quiet.countP {s : Lifecycle} {more : List LifecycleEvent} (h : Quiet s more)
    (out : List LifecycleEvent) (role : ClientRole) :
    (out ++ more).countP (·.opens role) = out.countP (·.opens role) := by
  have hzero : more.countP (·.opens role) = 0 := by
    rw [List.countP_eq_zero]
    intro event hevent
    cases event with
    | opened role' client => exact absurd hevent (h.opens role' client)
    | _ => simp [LifecycleEvent.opens]
  rw [List.countP_append, hzero, Nat.add_zero]

/-- More events keep what holds of a call, as long as they cover no new
client. -/
theorem CallInv.append {role : ClientRole} {out : List LifecycleEvent}
    {covered covered' : Nat → Prop} {call : ShutdownCall} (h : CallInv role out covered call)
    (more : List LifecycleEvent) (hcovered : call.resolved = true → ∀ client, covered' client →
      covered client) : CallInv role (out ++ more) covered' call where
  client := fun client hclient => List.mem_append_left more (h.client client hclient)
  outcome := fun hok client hclient => (h.outcome hok client hclient).append more
  resolved := fun hres client hclient =>
    (h.resolved hres client (hcovered hres client hclient)).append more

/-- Quiet events change nothing. What was opened is what was opened before, and
the client that is returned is the one that is held. -/
theorem LifecycleInv.quiet {out more : List LifecycleEvent} {s : Lifecycle}
    (h : LifecycleInv out s) (hmore : Quiet s more) : LifecycleInv (out ++ more) s where
  fresh := fun role client hmem => h.fresh role client ((hmore.mem_opened _ _ _).mp hmem)
  main_once := by rw [hmore.countP]; exact h.main_once
  subscriber_once := by rw [hmore.countP]; exact h.subscriber_once
  main_opened := fun client hc => List.mem_append_left more (h.main_opened client hc)
  returned := by
    intro client hmem
    rcases List.mem_append.mp hmem with hmem | hmem
    · exact List.mem_append_left more (h.returned client hmem)
    · exact List.mem_append_left more (h.main_opened client (hmore.returned client hmem))
  subscriber_opened := fun client hc => List.mem_append_left more (h.subscriber_opened client hc)
  main_held := fun client hmem =>
    (h.main_held client ((hmore.mem_opened _ _ _).mp hmem)).imp_right
      (And.imp_right (·.append more))
  subscriber_held := fun client hmem =>
    h.subscriber_held client ((hmore.mem_opened _ _ _).mp hmem)
  manager_down := h.manager_down
  pubsub_down := h.pubsub_down
  manager_calls := fun call hcall => (h.manager_calls call hcall).append more
    fun _ client hclient => (hmore.mem_opened _ _ _).mp hclient
  pubsub_calls := fun call hcall => (h.pubsub_calls call hcall).append more
    fun _ _ hclient => hclient

/-- No client of a role was opened while its service holds none and is up. -/
theorem LifecycleInv.no_main {out : List LifecycleEvent} {s : Lifecycle} (h : LifecycleInv out s)
    (hnone : s.client = none) (hup : s.managerDown = false) (client : Nat) :
    .opened .main client ∉ out := by
  intro hmem
  rcases h.main_held client hmem with hheld | ⟨hdown, -⟩
  · rw [hnone] at hheld
    cases hheld
  · rw [hup] at hdown
    cases hdown

/-- As long as the subscriber connection is neither there nor shut down, none
was ever opened. -/
theorem LifecycleInv.no_subscriber {out : List LifecycleEvent} {s : Lifecycle}
    (h : LifecycleInv out s) (hnone : s.subscriber = none) (hup : s.pubsubDown = false)
    (client : Nat) : .opened .subscriber client ∉ out := by
  intro hmem
  rcases h.subscriber_held client hmem with hheld | ⟨hdown, -⟩
  · rw [hnone] at hheld
    cases hheld
  · rw [hup] at hdown
    cases hdown

/-- A history without a client of the role counts none. -/
theorem countP_opens_eq_zero {out : List LifecycleEvent} {role : ClientRole}
    (h : ∀ client, .opened role client ∉ out) : out.countP (·.opens role) = 0 := by
  rw [List.countP_eq_zero]
  intro event hevent
  cases event with
  | opened role' client =>
      intro hrole
      obtain rfl : role' = role := by simpa [LifecycleEvent.opens] using hrole
      exact h client hevent
  | _ => simp [LifecycleEvent.opens]

/-- Opening the main client. None was opened before, since one that was opened
is held until the shutdown. -/
theorem LifecycleInv.open_main {out : List LifecycleEvent} {s : Lifecycle}
    (h : LifecycleInv out s) (hnone : s.client = none) (hup : s.managerDown = false) :
    LifecycleInv (out ++ [.opened .main s.nextClient])
      { s with nextClient := s.nextClient + 1, client := some s.nextClient } where
  fresh := by
    intro role client hmem
    rcases List.mem_append.mp hmem with hmem | hmem
    · have := h.fresh role client hmem
      simp only
      omega
    · obtain ⟨rfl, rfl⟩ : role = .main ∧ client = s.nextClient := by simpa using hmem
      simp
  main_once := by
    rw [List.countP_append, countP_opens_eq_zero (h.no_main hnone hup)]
    simp [LifecycleEvent.opens]
  subscriber_once := by
    rw [List.countP_append]
    simpa [LifecycleEvent.opens] using h.subscriber_once
  main_opened := by
    rintro client ⟨⟩
    simp
  returned := by
    intro client hmem
    have hold : .returned client ∈ out := by simpa using hmem
    exact List.mem_append_left _ (h.returned client hold)
  subscriber_opened := fun client hc => List.mem_append_left _ (h.subscriber_opened client hc)
  main_held := by
    intro client hmem
    rcases List.mem_append.mp hmem with hmem | hmem
    · exact absurd hmem (h.no_main hnone hup client)
    · left
      simp only [List.mem_singleton, LifecycleEvent.opened.injEq, true_and] at hmem
      rw [hmem]
  subscriber_held := by
    intro client hmem
    exact h.subscriber_held client (by simpa using hmem)
  manager_down := h.manager_down
  pubsub_down := h.pubsub_down
  manager_calls := by
    intro call hcall
    have hdown := h.manager_down (List.ne_nil_of_mem hcall)
    rw [hup] at hdown
    cases hdown
  pubsub_calls := fun call hcall => (h.pubsub_calls call hcall).append _
    fun _ _ hclient => hclient

/-- Opening the subscriber client. The same for the client of the
subscriptions, which the shutdown takes away. -/
theorem LifecycleInv.open_subscriber {out : List LifecycleEvent} {s : Lifecycle}
    (h : LifecycleInv out s) (hnone : s.subscriber = none) (hup : s.pubsubDown = false) :
    LifecycleInv (out ++ [.opened .subscriber s.nextClient])
      { s with nextClient := s.nextClient + 1, subscriber := some s.nextClient } where
  fresh := by
    intro role client hmem
    rcases List.mem_append.mp hmem with hmem | hmem
    · have := h.fresh role client hmem
      simp only
      omega
    · obtain ⟨rfl, rfl⟩ : role = .subscriber ∧ client = s.nextClient := by simpa using hmem
      simp
  main_once := by
    rw [List.countP_append]
    simpa [LifecycleEvent.opens] using h.main_once
  subscriber_once := by
    rw [List.countP_append, countP_opens_eq_zero (h.no_subscriber hnone hup)]
    simp [LifecycleEvent.opens]
  main_opened := fun client hc => List.mem_append_left _ (h.main_opened client hc)
  returned := by
    intro client hmem
    have hold : .returned client ∈ out := by simpa using hmem
    exact List.mem_append_left _ (h.returned client hold)
  subscriber_opened := by
    rintro client ⟨⟩
    simp
  main_held := by
    intro client hmem
    exact (h.main_held client (by simpa using hmem)).imp_right (And.imp_right (·.append _))
  subscriber_held := by
    intro client hmem
    rcases List.mem_append.mp hmem with hmem | hmem
    · exact absurd hmem (h.no_subscriber hnone hup client)
    · left
      simp only [List.mem_singleton, LifecycleEvent.opened.injEq, true_and] at hmem
      rw [hmem]
  manager_down := h.manager_down
  pubsub_down := by
    intro hne
    have hdown := (h.pubsub_down hne).1
    rw [hup] at hdown
    cases hdown
  manager_calls := fun call hcall => (h.manager_calls call hcall).append _
    fun _ _ hclient => by simpa using hclient
  pubsub_calls := fun call hcall => (h.pubsub_calls call hcall).append _
    fun _ _ hclient => hclient

/-- The manager's hook starts. The call takes the client that is held, and the
flag is set whether there is one or not. -/
theorem LifecycleInv.manager_shutdown {out : List LifecycleEvent} {s : Lifecycle}
    (h : LifecycleInv out s) : LifecycleInv out s.managerShutdown where
  fresh := h.fresh
  main_once := h.main_once
  subscriber_once := h.subscriber_once
  main_opened := h.main_opened
  returned := h.returned
  subscriber_opened := h.subscriber_opened
  main_held := fun client hmem => (h.main_held client hmem).imp_right (And.imp_left fun _ => rfl)
  subscriber_held := h.subscriber_held
  manager_down := fun _ => rfl
  pubsub_down := h.pubsub_down
  manager_calls := by
    intro call hcall
    rcases List.mem_append.mp hcall with hcall | hcall
    · exact h.manager_calls call hcall
    · obtain rfl := List.mem_singleton.mp hcall
      refine ⟨h.main_opened, nofun, fun hres client hmem => ?_⟩
      -- a hook that found no client has nothing left to close
      have hnone : s.client = none := Option.isNone_iff_eq_none.mp hres
      rcases h.main_held client hmem with hheld | ⟨-, hclosed⟩
      · rw [hnone] at hheld
        cases hheld
      · exact hclosed
  pubsub_calls := h.pubsub_calls

/-- The Pub/Sub hook starts and takes the client. A second call finds none, so
the first call is the one that closes it. -/
theorem LifecycleInv.pubsub_shutdown {out : List LifecycleEvent} {s : Lifecycle}
    (h : LifecycleInv out s) : LifecycleInv out s.pubsubShutdown where
  fresh := h.fresh
  main_once := h.main_once
  subscriber_once := h.subscriber_once
  main_opened := h.main_opened
  returned := h.returned
  subscriber_opened := fun client hc => nomatch hc
  main_held := h.main_held
  subscriber_held := by
    intro client hmem
    refine Or.inr ⟨rfl, ?_⟩
    rcases h.subscriber_held client hmem with hheld | ⟨-, call, hcall, hclient⟩
    · -- a client still held is taken by the first call
      have hfirst : s.pubsubCalls = [] := by
        by_contra hne
        rw [(h.pubsub_down hne).2] at hheld
        cases hheld
      refine ⟨{ client := s.subscriber, resolved := s.subscriber.isNone }, ?_, hheld⟩
      simp [Lifecycle.pubsubShutdown, hfirst]
    · have hlt : 0 < s.pubsubCalls.length := (List.getElem?_eq_some_iff.mp hcall).1
      exact ⟨call, (List.getElem?_append_left hlt).trans hcall, hclient⟩
  manager_down := h.manager_down
  pubsub_down := fun _ => ⟨rfl, rfl⟩
  manager_calls := h.manager_calls
  pubsub_calls := by
    intro call hcall
    rcases List.mem_append.mp hcall with hcall | hcall
    · exact h.pubsub_calls call hcall
    · obtain rfl := List.mem_singleton.mp hcall
      refine ⟨h.subscriber_opened, nofun, fun hres client hclient => ?_⟩
      rw [Option.isNone_iff_eq_none.mp hres] at hclient
      cases hclient

/-- A shutdown call of the manager moves on; its client field may be cleared
once every main client is closed. -/
theorem LifecycleInv.set_manager {out : List LifecycleEvent} {s : Lifecycle}
    (h : LifecycleInv out s) (i : Nat) {call : ShutdownCall} {client' : Option Nat}
    (hcall : CallInv .main out (fun client => .opened .main client ∈ out) call)
    (hclient : client' = s.client ∨ client' = none ∧ s.managerDown = true ∧
      ∀ client, .opened .main client ∈ out → Closed out client) :
    LifecycleInv out { s with client := client', managerCalls := s.managerCalls.set i call } where
  fresh := h.fresh
  main_once := h.main_once
  subscriber_once := h.subscriber_once
  main_opened := by
    rcases hclient with rfl | ⟨rfl, -, -⟩
    · exact h.main_opened
    · nofun
  returned := h.returned
  subscriber_opened := h.subscriber_opened
  main_held := by
    intro client hmem
    rcases hclient with rfl | ⟨rfl, hdown, hclosed⟩
    · exact h.main_held client hmem
    · exact Or.inr ⟨hdown, hclosed client hmem⟩
  subscriber_held := h.subscriber_held
  manager_down := fun hne => h.manager_down (by simpa using hne)
  pubsub_down := h.pubsub_down
  manager_calls := by
    intro other hother
    rcases List.mem_or_eq_of_mem_set hother with hother | rfl
    · exact h.manager_calls other hother
    · exact hcall
  pubsub_calls := h.pubsub_calls

/-- A shutdown call of the Pub/Sub service moves on, keeping its client. Each
call is looked at on its own, and the first one stays the first. -/
theorem LifecycleInv.set_pubsub {out : List LifecycleEvent} {s : Lifecycle}
    (h : LifecycleInv out s) {i : Nat} {call call' : ShutdownCall}
    (hi : s.pubsubCalls[i]? = some call) (hclient : call'.client = call.client)
    (hcall : CallInv .subscriber out (fun client => call'.client = some client) call') :
    LifecycleInv out { s with pubsubCalls := s.pubsubCalls.set i call' } where
  fresh := h.fresh
  main_once := h.main_once
  subscriber_once := h.subscriber_once
  main_opened := h.main_opened
  returned := h.returned
  subscriber_opened := h.subscriber_opened
  main_held := h.main_held
  subscriber_held := by
    intro client hmem
    refine (h.subscriber_held client hmem).imp_right (And.imp_right ?_)
    rintro ⟨other, hother, hheld⟩
    by_cases hfirst : i = 0
    · subst hfirst
      obtain rfl : call = other := Option.some.inj (hi.symm.trans hother)
      have hlt : 0 < s.pubsubCalls.length := (List.getElem?_eq_some_iff.mp hi).1
      exact ⟨call', List.getElem?_set_self hlt, hclient.trans hheld⟩
    · refine ⟨other, ?_, hheld⟩
      rw [List.getElem?_set_ne hfirst]
      exact hother
  manager_down := h.manager_down
  pubsub_down := fun hne => h.pubsub_down (by simpa using hne)
  manager_calls := h.manager_calls
  pubsub_calls := by
    intro other hother
    rcases List.mem_or_eq_of_mem_set hother with hother | rfl
    · exact h.pubsub_calls other hother
    · exact hcall

/-- Two events that one predicate counts at most once are the same. Otherwise
there would be two places at which it holds. -/
theorem eq_of_countP_le_one {α : Type} {p : α → Bool} {l : List α} (h : l.countP p ≤ 1)
    {a b : α} (ha : a ∈ l) (hb : b ∈ l) (hpa : p a = true) (hpb : p b = true) : a = b := by
  induction l with
  | nil => cases ha
  | cons c l ih =>
      have hpos : ∀ {x}, x ∈ l → p x = true → 0 < l.countP p :=
        fun hx hpx => List.countP_pos_iff.mpr ⟨_, hx, hpx⟩
      rw [List.countP_cons] at h
      rcases List.mem_cons.mp ha with rfl | ha' <;> rcases List.mem_cons.mp hb with rfl | hb'
      · rfl
      · have := hpos hb' hpb
        rw [if_pos hpa] at h
        omega
      · have := hpos ha' hpa
        rw [if_pos hpb] at h
        omega
      · exact ih (by omega) ha' hb'

/-- All main clients are the same one. -/
theorem LifecycleInv.main_unique {out : List LifecycleEvent} {s : Lifecycle}
    (h : LifecycleInv out s) {client client' : Nat} (hc : .opened .main client ∈ out)
    (hc' : .opened .main client' ∈ out) : client = client' := by
  have heq := eq_of_countP_le_one h.main_once hc hc' (by simp [LifecycleEvent.opens])
    (by simp [LifecycleEvent.opens])
  simpa using heq

/-- No events are quiet. -/
theorem quiet_nil (s : Lifecycle) : Quiet s [] := ⟨nofun, nofun⟩

/-- Settling a `quit()` is quiet. -/
theorem quiet_quitEvents (s : Lifecycle) (client : Nat) (ok : Bool) :
    Quiet s (quitEvents client ok) := by
  cases ok <;> constructor <;> simp [quitEvents]

/-- The call of a client that is being closed, one `quit()` later. If it has
resolved, the client is closed by that; if not, the call still has to
disconnect it. -/
theorem CallInv.quit {role : ClientRole} {out : List LifecycleEvent} {covered : Nat → Prop}
    {client : Nat} {outcome : Option Bool} {resolved : Bool} (ok : Bool)
    (h : CallInv role out covered ⟨some client, false, outcome, resolved⟩)
    {covered' : Nat → Prop} (hcovered : ∀ client, covered' client → covered client) :
    CallInv role (out ++ quitEvents client ok) covered'
      (.quit ok ⟨some client, false, outcome, resolved⟩) where
  client := fun c hc => List.mem_append_left _ (h.client c hc)
  outcome := by
    rintro hok c ⟨⟩
    cases outcome with
    | some decided => exact (h.outcome hok client rfl).append _
    | none =>
        obtain rfl : ok = true := by simpa [ShutdownCall.quit] using hok
        exact Or.inl (List.mem_append_right _ (by simp [quitEvents]))
  resolved := fun hres c hc => (h.resolved hres c (hcovered c hc)).append _

/-- A subscribe call opens the subscriber, or changes nothing. -/
theorem LifecycleInv.subscribe {out : List LifecycleEvent} {s : Lifecycle}
    (h : LifecycleInv out s) (kb : KeyBuilder) (name : Text) :
    LifecycleInv (out ++ (s.subscribe kb name).2) (s.subscribe kb name).1 := by
  unfold Lifecycle.subscribe
  cases kb.applyNamespace name with
  | error e => exact h.quiet ⟨by simp, by simp⟩
  | ok full =>
      rcases s.ensureSubscriber_cases with ⟨client, -, heq⟩ | ⟨-, -, heq⟩ | ⟨hnone, -, hup, heq⟩
      · simpa [heq, Lifecycle.finish] using h.quiet (quiet_nil s)
      · simp only [heq, Lifecycle.finish]
        exact h.quiet ⟨by simp, by simp⟩
      · simpa [heq, Lifecycle.finish] using h.open_subscriber hnone hup

/-- A call of `ensureClient` opens the main client, or changes nothing. The
three ways it goes are a client held, a refusal after the shutdown, and a
client opened. -/
theorem LifecycleInv.ensureClient {out : List LifecycleEvent} {s : Lifecycle}
    (h : LifecycleInv out s) {last : Nat → List LifecycleEvent}
    (hlast : ∀ client, last client = [] ∨ last client = [.returned client]) :
    LifecycleInv (out ++ (s.finish last s.ensureClient).2) (s.finish last s.ensureClient).1 := by
  have hquiet : ∀ {t : Lifecycle} {client}, t.client = some client → Quiet t (last client) := by
    intro t client hc
    rcases hlast client with hl | hl
    · rw [hl]
      exact quiet_nil t
    · rw [hl]
      exact ⟨by simp, by simpa using hc⟩
  rcases s.ensureClient_cases with ⟨client, hc, heq⟩ | ⟨-, -, heq⟩ | ⟨hnone, hup, heq⟩
  · simpa [heq, Lifecycle.finish] using h.quiet (hquiet hc)
  · simp only [heq, Lifecycle.finish]
    exact h.quiet ⟨by simp, by simp⟩
  · simp only [heq, Lifecycle.finish, ← List.append_assoc]
    exact (h.open_main hnone hup).quiet (hquiet rfl)

/-- The race of a manager call is decided, or its client closed. A `quit()`
that was lost or overtaken by the timer is followed by a disconnect, so the
client is closed either way. -/
theorem LifecycleInv.manager_resume {options : ResolvedOptions} {out : List LifecycleEvent}
    {s : Lifecycle} (h : LifecycleInv out s) {i client : Nat} {settled ok : Bool}
    (hi : s.managerCalls[i]? = some ⟨some client, settled, some ok, false⟩) :
    LifecycleInv (out ++ if ok then [] else
        [.forcedDisconnect options.shutdownTimeoutMs, .disconnected client])
      { s with
        client := none
        managerCalls := s.managerCalls.set i (.return ⟨some client, settled, some ok, false⟩) } := by
  have hmem := List.mem_of_getElem? hi
  have hcall := h.manager_calls _ hmem
  have hdown := h.manager_down (List.ne_nil_of_mem hmem)
  have hclosed : Closed (out ++ if ok then [] else
      [.forcedDisconnect options.shutdownTimeoutMs, .disconnected client]) client := by
    cases ok with
    | true => exact (hcall.outcome rfl client rfl).append _
    | false => exact Or.inr (List.mem_append_right _ (by simp))
  have hquiet : Quiet s (if ok then [] else
      [.forcedDisconnect options.shutdownTimeoutMs, .disconnected client]) := by
    cases ok <;> constructor <;> simp
  have hinv := h.quiet hquiet
  -- the only main client is the one this call has closed
  have hall : ∀ c, .opened .main c ∈ (out ++ if ok then [] else
      [.forcedDisconnect options.shutdownTimeoutMs, .disconnected client]) →
      Closed (out ++ if ok then [] else
        [.forcedDisconnect options.shutdownTimeoutMs, .disconnected client]) c := by
    intro c hc
    have hsame := h.main_unique ((hquiet.mem_opened _ _ _).mp hc) (hcall.client client rfl)
    rw [hsame]
    exact hclosed
  refine hinv.set_manager i ⟨?_, ?_, fun _ => hall⟩ (Or.inr ⟨rfl, hdown, hall⟩)
  · rintro c ⟨⟩
    exact List.mem_append_left _ (hcall.client client rfl)
  · rintro - c ⟨⟩
    exact hclosed

/-- The Pub/Sub hook returns after its `quit()` or its `disconnect()`. A
`quit()` that failed is followed by a disconnect. -/
theorem LifecycleInv.pubsub_resume {out : List LifecycleEvent} {s : Lifecycle}
    (h : LifecycleInv out s) {i client : Nat} {settled ok : Bool}
    (hi : s.pubsubCalls[i]? = some ⟨some client, settled, some ok, false⟩) :
    LifecycleInv (out ++ if ok then [] else [.disconnected client])
      { s with pubsubCalls :=
          s.pubsubCalls.set i (.return ⟨some client, settled, some ok, false⟩) } := by
  have hcall := h.pubsub_calls _ (List.mem_of_getElem? hi)
  have hclosed : Closed (out ++ if ok then [] else [.disconnected client]) client := by
    cases ok with
    | true => exact (hcall.outcome rfl client rfl).append _
    | false => exact Or.inr (List.mem_append_right _ (by simp))
  have hquiet : Quiet s (if ok then [] else [.disconnected client]) := by
    cases ok <;> constructor <;> simp
  refine (h.quiet hquiet).set_pubsub hi rfl ⟨?_, ?_, ?_⟩
  · rintro c ⟨⟩
    exact List.mem_append_left _ (hcall.client client rfl)
  · rintro - c ⟨⟩
    exact hclosed
  · rintro - c ⟨⟩
    exact hclosed

/-- **Step lemma.** Every synchronous piece of code keeps the invariant. One
case for each action, with the lemma on the function that it runs. -/
theorem lifecycleInv_step {options : ResolvedOptions} {out more : List LifecycleEvent}
    {s s' : Lifecycle} {a : LifecycleAction} (h : LifecycleInv out s)
    (hstep : lifecycleStep options s a = some (s', more)) : LifecycleInv (out ++ more) s' := by
  cases a with
  | onModuleInit =>
      have hinv := @LifecycleInv.ensureClient out s h (fun _ => []) fun _ => Or.inl rfl
      rwa [Option.some.inj hstep] at hinv
  | getClient =>
      have hinv := @LifecycleInv.ensureClient out s h (fun c => [.returned c]) fun _ => Or.inr rfl
      rwa [Option.some.inj hstep] at hinv
  | subscribe channel =>
      have hinv := h.subscribe (.ofOptions options) channel
      rwa [Option.some.inj hstep] at hinv
  | psubscribe pattern =>
      have hinv := h.subscribe (.ofOptions options) pattern
      rwa [Option.some.inj hstep] at hinv
  | managerShutdown =>
      cases hstep
      simpa using h.manager_shutdown
  | pubsubShutdown =>
      cases hstep
      simpa using h.pubsub_shutdown
  | managerQuit i ok =>
      simp only [lifecycleStep] at hstep
      split at hstep
      · rename_i client outcome resolved hi
        cases hstep
        have hcall := h.manager_calls _ (List.mem_of_getElem? hi)
        have hquiet := quiet_quitEvents s client ok
        exact (h.quiet hquiet).set_manager i
          (hcall.quit ok fun c hc => (hquiet.mem_opened _ _ _).mp hc) (Or.inl rfl)
      · cases hstep
  | managerTimeout i =>
      simp only [lifecycleStep] at hstep
      split at hstep
      · rename_i client settled hi
        cases hstep
        have hcall := h.manager_calls _ (List.mem_of_getElem? hi)
        rw [List.append_nil]
        exact h.set_manager i ⟨hcall.client, nofun, hcall.resolved⟩ (Or.inl rfl)
      · cases hstep
  | managerResume i =>
      simp only [lifecycleStep] at hstep
      split at hstep
      · rename_i client settled ok hi
        cases hstep
        exact h.manager_resume hi
      · cases hstep
  | pubsubQuit i ok =>
      simp only [lifecycleStep] at hstep
      split at hstep
      · rename_i client outcome resolved hi
        cases hstep
        have hcall := h.pubsub_calls _ (List.mem_of_getElem? hi)
        exact (h.quiet (quiet_quitEvents s client ok)).set_pubsub hi rfl
          (hcall.quit ok fun _ hc => hc)
      · cases hstep
  | pubsubResume i =>
      simp only [lifecycleStep] at hstep
      split at hstep
      · rename_i client settled ok hi
        cases hstep
        exact h.pubsub_resume hi
      · cases hstep

/-- The invariant holds of every run. -/
theorem lifecycleInv_run {options : ResolvedOptions} {as : List LifecycleAction} {s : Lifecycle}
    {out : List LifecycleEvent} (h : (lifecycleMachine options).run as = some (s, out)) :
    LifecycleInv out s := by
  refine (lifecycleMachine options).run_induction (I := fun _ out s => LifecycleInv out s) ?_ ?_ h
  · constructor <;> simp [lifecycleMachine]
  · exact fun _ _ _ _ _ _ hinv hstep => lifecycleInv_step hinv hstep

end NestCache
