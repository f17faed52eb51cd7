import NestCache.ConnectionEvents

/-!
# When initialization settles

The invariant of the connection machine (`ConnectionInv`): which listeners the
clients have, where each call of `onModuleInit` stands, and that what the
consumer is told is what the clients emit and the manager announces.

* `init_settles` — a call of `onModuleInit` that waits is settled by the first
  `ready` or `error` of the client it waits for, once, and not otherwise;
* `listeners_left` — the listeners left are those of the clients and of the calls
  that wait.
-/

namespace NestCache

open Emitter

/-! ## What an output says -/

/-- The role each client was opened for. -/
def rolesAfter (roles : Nat → Option ClientRole) : List ConnectionEvent → Nat → Option ClientRole
  | [] => roles
  | .lifecycle (.opened role client) :: rest =>
      rolesAfter (Function.update roles client (some role)) rest
  | _ :: rest => rolesAfter roles rest

/-- What there is to tell the consumer: the events of the clients with their
roles, and what `tells` makes of the pieces of the services. -/
def happenings
    (tells : (Nat → Option ClientRole) → LifecycleEvent → Option (CacheEventName × Details))
    (roles : Nat → Option ClientRole) : List ConnectionEvent → List (CacheEventName × Details)
  | [] => []
  | .lifecycle (.opened role client) :: rest =>
      happenings tells (Function.update roles client (some role)) rest
  | .lifecycle e :: rest => (tells roles e).toList ++ happenings tells roles rest
  | .fired client event :: rest =>
      ((roles client).map fun role => (event.name, event.data role)).toList ++
        happenings tells roles rest
  | _ :: rest => happenings tells roles rest

/-- A forced teardown, where it is announced. -/
def announced (_ : Nat → Option ClientRole) : LifecycleEvent → Option (CacheEventName × Details)
  | .forcedDisconnect shutdownTimeoutMs => some (.error, forcedDisconnectData shutdownTimeoutMs)
  | _ => none

/-- What the consumer is told. -/
def ConnectionEvent.told? : ConnectionEvent → Option (CacheEventName × Details)
  | told event data => some (event, data)
  | _ => none

/-- How a call is settled. -/
def ConnectionEvent.settled? (call : Nat) : ConnectionEvent → Option (Except Thrown Unit)
  | settled other result => if other = call then some result else none
  | _ => none

/-- What an event means for a call that waits. -/
def SocketEvent.outcome? : SocketEvent → Option (Except Thrown Unit)
  | ready => some (.ok ())
  | error message => some (.error (connectionFailed message))
  | _ => none

/-- What an event of this client means for a call that waits. -/
def ConnectionEvent.outcomeOf (client : Nat) : ConnectionEvent → Option (Except Thrown Unit)
  | fired other event => if other = client then event.outcome? else none
  | _ => none

/-- The first event of a client that decides. -/
def verdict (client : Nat) (out : List ConnectionEvent) : Option (Except Thrown Unit) :=
  out.findSome? (·.outcomeOf client)

/-- The roles after two outputs are those after the second, from those after
the first; the induction is on the first. -/
theorem rolesAfter_append (roles : Nat → Option ClientRole) (out more : List ConnectionEvent) :
    rolesAfter roles (out ++ more) = rolesAfter (rolesAfter roles out) more := by
  induction out generalizing roles with
  | nil => rfl
  | cons e out ih =>
      cases e with
      | lifecycle e => cases e <;> exact ih _
      | _ => exact ih _

/-- What there is to tell in two outputs is told part by part, the second part
with the roles that the first has left. -/
theorem happenings_append
    (tells : (Nat → Option ClientRole) → LifecycleEvent → Option (CacheEventName × Details))
    (roles : Nat → Option ClientRole) (out more : List ConnectionEvent) :
    happenings tells roles (out ++ more) =
      happenings tells roles out ++ happenings tells (rolesAfter roles out) more := by
  induction out generalizing roles with
  | nil => rfl
  | cons e out ih =>
      cases e with
      | lifecycle e =>
          cases e with
          | opened role client => exact ih _
          | _ =>
              simp only [List.cons_append, happenings, rolesAfter, List.append_assoc]
              rw [ih]
      | fired client event =>
          simp only [List.cons_append, happenings, rolesAfter, List.append_assoc]
          rw [ih]
      | _ => exact ih _

/-! ## Pieces of the services -/

/-- At most one client is opened, and first, with the next number. -/
def OpensNext (n : Nat) (happened : List LifecycleEvent) (n' : Nat) : Prop :=
  (n' = n ∧ ∀ role client, .opened role client ∉ happened) ∨
    ∃ role rest, happened = .opened role n :: rest ∧ n' = n + 1 ∧
      ∀ role client, .opened role client ∉ rest

/-- `ensureClient` opens at most one client, under the next number, and the
main client it leaves is the one it had or one that is open now. -/
theorem Lifecycle.opens_ensureClient {s life : Lifecycle} {client : Nat}
    {happened : List LifecycleEvent} (h : s.ensureClient = .ok (life, client, happened)) :
    OpensNext s.nextClient happened life.nextClient ∧ life.client = some client ∧
      (s.client = some client ∨ client < life.nextClient) := by
  rcases s.ensureClient_cases with ⟨c, hc, heq⟩ | ⟨-, -, heq⟩ | ⟨-, -, heq⟩
  · rw [h] at heq
    obtain ⟨rfl, rfl, rfl⟩ : life = s ∧ client = c ∧ happened = [] := by simpa using heq
    exact ⟨.inl ⟨rfl, by simp⟩, hc, .inl hc⟩
  · rw [h] at heq
    cases heq
  · rw [h] at heq
    obtain ⟨rfl, rfl, rfl⟩ := by simpa only [Except.ok.injEq, Prod.mk.injEq] using heq
    exact ⟨.inr ⟨.main, [], rfl, rfl, by simp⟩, rfl, .inr (Nat.lt_succ_self _)⟩

/-- Settling a `quit()` opens no client. -/
theorem opens_quitEvents (client : Nat) (ok : Bool) (role : ClientRole) (other : Nat) :
    .opened role other ∉ quitEvents client ok := by
  cases ok <;> simp [quitEvents]

/-- **A piece of a service** opens the next client or none. The manager and the
pub/sub service share the numbering, so the next number is never one that is in
use. -/
theorem opens_lifecycleStep {options : ResolvedOptions} {s life : Lifecycle} {a : LifecycleAction}
    {happened : List LifecycleEvent} (h : lifecycleStep options s a = some (life, happened)) :
    OpensNext s.nextClient happened life.nextClient := by
  have hsub : ∀ name, OpensNext s.nextClient (s.subscribe (.ofOptions options) name).2
      (s.subscribe (.ofOptions options) name).1.nextClient := by
    intro name
    unfold Lifecycle.subscribe
    cases (KeyBuilder.ofOptions options).applyNamespace name with
    | error e => exact .inl ⟨rfl, by simp⟩
    | ok full =>
        rcases s.ensureSubscriber_cases with ⟨c, -, heq⟩ | ⟨-, -, heq⟩ | ⟨-, -, -, heq⟩
        · simp [heq, Lifecycle.finish, OpensNext]
        · simp [heq, Lifecycle.finish, OpensNext]
        · simp [heq, Lifecycle.finish, OpensNext]
  have hmain : ∀ last : Nat → List LifecycleEvent,
      (∀ c role other, .opened role other ∉ last c) →
      OpensNext s.nextClient (s.finish last s.ensureClient).2
        (s.finish last s.ensureClient).1.nextClient := by
    intro last hlast
    rcases s.ensureClient_cases with ⟨c, -, heq⟩ | ⟨-, -, heq⟩ | ⟨-, -, heq⟩
    · simp [heq, Lifecycle.finish, OpensNext, hlast]
    · simp [heq, Lifecycle.finish, OpensNext]
    · simp [heq, Lifecycle.finish, OpensNext, hlast]
  cases a with
  | onModuleInit =>
      have hopens := hmain (fun _ => []) (by simp)
      rwa [Option.some.inj h] at hopens
  | getClient =>
      have hopens := hmain (fun c => [.returned c]) (by simp)
      rwa [Option.some.inj h] at hopens
  | subscribe name =>
      have hopens := hsub name
      rwa [Option.some.inj h] at hopens
  | psubscribe name =>
      have hopens := hsub name
      rwa [Option.some.inj h] at hopens
  | managerShutdown | pubsubShutdown =>
      cases h
      exact .inl ⟨rfl, by simp⟩
  | managerQuit i ok | pubsubQuit i ok =>
      simp only [lifecycleStep] at h
      split at h <;> cases h
      exact .inl ⟨rfl, opens_quitEvents _ ok⟩
  | managerTimeout i =>
      simp only [lifecycleStep] at h
      split at h <;> cases h
      exact .inl ⟨rfl, by simp⟩
  | managerResume i | pubsubResume i =>
      simp only [lifecycleStep] at h
      split at h <;> cases h
      refine .inl ⟨rfl, fun role client hmem => ?_⟩
      split at hmem <;> simp at hmem

/-- The main client of a later state is the one before or the client
just opened. -/
theorem client_lifecycleStep {options : ResolvedOptions} {s life : Lifecycle} {a : LifecycleAction}
    {happened : List LifecycleEvent} (h : lifecycleStep options s a = some (life, happened))
    {client : Nat} (hclient : life.client = some client) :
    s.client = some client ∨ client < life.nextClient := by
  have hsub : ∀ name, (s.subscribe (.ofOptions options) name).1.client = some client →
      s.client = some client := by
    intro name hname
    obtain ⟨subscriber, nextClient, heq⟩ := s.subscribe_frame (.ofOptions options) name
    rwa [heq] at hname
  have hmain : ∀ last : Nat → List LifecycleEvent,
      (s.finish last s.ensureClient).1.client = some client →
      s.client = some client ∨ client < (s.finish last s.ensureClient).1.nextClient := by
    intro last hlast
    rcases s.ensureClient_cases with ⟨c, -, heq⟩ | ⟨-, -, heq⟩ | ⟨-, -, heq⟩
    · rw [heq] at hlast
      exact .inl hlast
    · rw [heq] at hlast
      exact .inl hlast
    · rw [heq] at hlast ⊢
      obtain rfl := Option.some.inj hlast
      exact .inr (Nat.lt_succ_self _)
  cases a with
  | onModuleInit =>
      have hopens := hmain (fun _ => [])
      rw [Option.some.inj h] at hopens
      exact hopens hclient
  | getClient =>
      have hopens := hmain (fun c => [.returned c])
      rw [Option.some.inj h] at hopens
      exact hopens hclient
  | subscribe name =>
      have hopens := hsub name
      rw [Option.some.inj h] at hopens
      exact .inl (hopens hclient)
  | psubscribe name =>
      have hopens := hsub name
      rw [Option.some.inj h] at hopens
      exact .inl (hopens hclient)
  | managerShutdown | pubsubShutdown =>
      cases h
      exact .inl hclient
  | managerQuit i ok | pubsubQuit i ok | managerTimeout i | pubsubResume i =>
      simp only [lifecycleStep] at h
      split at h <;> cases h
      exact .inl hclient
  | managerResume i =>
      simp only [lifecycleStep] at h
      split at h <;> cases h
      cases hclient

/-! ## The invariant -/

/-- The listener of a waiting call that an emission calls. -/
def waitFor (event : SocketEvent) (call : Nat) : List ClientListener :=
  called event.name (waitListeners call)

/-- Where a call that waits stands: pending, with an event that decides only
if the emission under way has still to reach it, or settled by the first
such event. -/
def Tracked (out : List ConnectionEvent) (pending : Nat → List Nat) (due : List Nat)
    (decided : Option (Except Thrown Unit)) (call client : Nat) (since : List ConnectionEvent) :
    Prop :=
  (call ∈ pending client ∧ out.filterMap (·.settled? call) = [] ∧
      verdict client since = if call ∈ due then decided else none) ∨
    (∀ other, call ∉ pending other) ∧ ∃ result, verdict client since = some result ∧
      out.filterMap (·.settled? call) = [result]

/-- The invariant: `pending` are the calls that wait for each client, `due`
those the emission under way has still to reach. -/
structure ConnectionInv (events : Option OnEvent) (out : List ConnectionEvent) (s : Connections)
    (pending : Nat → List Nat) (due : List Nat) : Prop where
  listeners : ∀ client, s.listeners client =
    ((rolesAfter (fun _ => none) out client).map registerListeners).getD [] ++
      (pending client).flatMap waitListeners
  opened : ∀ client, (rolesAfter (fun _ => none) out client).isSome ↔ client < s.life.nextClient
  main : ∀ client, s.life.client = some client → client < s.life.nextClient
  unopened : ∀ client call, call ∈ pending client → client < s.life.nextClient
  nodup : ∀ client, (pending client).Nodup
  waits : ∀ client call, call ∈ pending client → .waiting call client ∈ out
  promise : ∀ client call, call ∈ pending client → s.inits[call]? = some none
  apart : ∀ client other call, call ∈ pending client → call ∈ pending other → client = other
  emission : match s.emitting with
    | none => due = []
    | some ⟨client, event, rest⟩ => rest ≠ [] ∧ rest = due.flatMap (waitFor event) ∧
        ∃ new, pending client = due ++ new
  told : out.filterMap ConnectionEvent.told? =
    if events.isSome then happenings announced (fun _ => none) out else []
  tracked : ∀ before call client since, out = before ++ .waiting call client :: since →
    Tracked out pending due (s.emitting.bind (·.event.outcome?)) call client since
  waited : ∀ call client, .waiting call client ∈ out → call < s.inits.length
  answered : ∀ call result, .settled call result ∈ out → call < s.inits.length

/-- The verdict of two outputs is that of the first, or that of the second if
the first has none. -/
theorem verdict_append (client : Nat) (out more : List ConnectionEvent) :
    verdict client (out ++ more) = (verdict client out).or (verdict client more) :=
  List.findSome?_append

section Steps

variable {events : Option OnEvent} {out more : List ConnectionEvent} {s s' : Connections}
  {pending pending' : Nat → List Nat} {due due' : List Nat}

/-- Outputs that neither settle a call nor decide one nor make one wait. -/
structure Calm (more : List ConnectionEvent) : Prop where
  settled : ∀ call result, .settled call result ∉ more
  fired : ∀ client event, .fired client event ∉ more
  waiting : ∀ call client, .waiting call client ∉ more

/-- Outputs of this kind settle no call. -/
theorem Calm.settlements (h : Calm more) (call : Nat) :
    more.filterMap (·.settled? call) = [] := by
  refine List.filterMap_eq_nil_iff.mpr fun e he => ?_
  cases e with
  | settled other result => exact absurd he (h.settled other result)
  | _ => rfl

/-- Outputs of this kind decide no client. -/
theorem Calm.undecided (h : Calm more) (client : Nat) : verdict client more = none := by
  refine List.findSome?_eq_none_iff.mpr fun e he => ?_
  cases e with
  | fired other event => exact absurd he (h.fired other event)
  | _ => rfl

/-- In front of such outputs, the verdict is that of the one event that fired,
if it is of this client. -/
theorem Calm.decided (h : Calm more) (client other : Nat) (event : SocketEvent) :
    verdict other (.fired client event :: more) =
      if client = other then event.outcome? else none := by
  have hrest := h.undecided other
  unfold verdict at hrest ⊢
  rw [List.findSome?_cons, hrest, ConnectionEvent.outcomeOf]
  split
  · next heq => exact heq.symm
  · next heq => exact heq.symm

/-- Calm outputs keep track of every call. -/
theorem ConnectionInv.tracked_calm (h : ConnectionInv events out s pending due) (hmore : Calm more)
    (hemitting : s'.emitting = s.emitting) :
    ∀ before call client since, out ++ more = before ++ .waiting call client :: since →
      Tracked (out ++ more) pending due (s'.emitting.bind (·.event.outcome?)) call client since := by
  intro before call client since hcut
  rcases Machine.cut_append hcut with ⟨rest, hout, rfl⟩ | ⟨start, hin, -⟩
  · have htracked := h.tracked before call client rest hout
    unfold Tracked at htracked ⊢
    rw [List.filterMap_append, hmore.settlements, List.append_nil, verdict_append, hmore.undecided,
      Option.or_none, hemitting]
    exact htracked
  · exact absurd (hin ▸ List.mem_append_right _ List.mem_cons_self) (hmore.waiting call client)

/-! ### Pieces of the services -/

/-- An output of announcing a piece of a service is the piece, or one telling
of the consumer. -/
theorem announce_cases (events : Option OnEvent) (e : LifecycleEvent) {x : ConnectionEvent}
    (hx : x ∈ Connections.announce events e) :
    x = .lifecycle e ∨ ∃ event data, x = .told event data := by
  rcases List.mem_cons.mp hx with rfl | hx
  · exact .inl rfl
  · cases e with
    | forcedDisconnect ms =>
        refine .inr ?_
        simp only [emitEvent] at hx
        split at hx
        · cases hx
        · split at hx <;> exact ⟨_, _, List.mem_singleton.mp hx⟩
    | _ => cases hx

/-- Announcing the pieces of the services settles no call and decides none. -/
theorem calm_announce (events : Option OnEvent) (happened : List LifecycleEvent) :
    Calm (happened.flatMap (Connections.announce events)) := by
  refine ⟨fun call result hmem => ?_, fun client event hmem => ?_, fun call client hmem => ?_⟩ <;>
    obtain ⟨e, -, he⟩ := List.mem_flatMap.mp hmem <;>
    rcases announce_cases events e he with h | ⟨_, _, h⟩ <;> cases h

/-- What is told of a piece is what there is to tell. Only a forced teardown is
announced; the other pieces concern the roles of clients, which are followed on
both sides. -/
theorem told_announce (roles : Nat → Option ClientRole) (happened : List LifecycleEvent) :
    (happened.flatMap (Connections.announce events)).filterMap ConnectionEvent.told? =
      if events.isSome then happenings announced roles (happened.flatMap (Connections.announce events))
      else [] := by
  induction happened generalizing roles with
  | nil => simp [happenings]
  | cons e happened ih =>
      rw [List.flatMap_cons, List.filterMap_append, happenings_append]
      cases hevents : events with
      | none =>
          subst hevents
          have hrest := ih roles
          simp only [Option.isSome_none, Bool.false_eq_true, if_false] at hrest ⊢
          rw [hrest, List.append_nil]
          cases e <;> rfl
      | some onEvent =>
          subst hevents
          simp only [Option.isSome_some, if_true] at ih ⊢
          rw [ih]
          congr 1
          cases e with
          | forcedDisconnect ms =>
              simp only [Connections.announce, emitEvent, happenings]
              cases onEvent .error (forcedDisconnectData ms) <;> rfl
          | _ => rfl

/-- Pieces that open no client leave the roles as they are. -/
theorem rolesAfter_quiet (roles : Nat → Option ClientRole) {happened : List LifecycleEvent}
    (h : ∀ role client, .opened role client ∉ happened) :
    rolesAfter roles (happened.flatMap (Connections.announce events)) = roles := by
  induction happened with
  | nil => rfl
  | cons e happened ih =>
      have hrest := ih fun role client hmem => h role client (List.mem_cons_of_mem _ hmem)
      rw [List.flatMap_cons, rolesAfter_append]
      have hfirst : rolesAfter roles (Connections.announce events e) = roles := by
        cases e with
        | opened role client => exact absurd List.mem_cons_self (h role client)
        | forcedDisconnect ms =>
            simp only [Connections.announce, rolesAfter, emitEvent]
            split
            · rfl
            · split <;> rfl
        | _ => rfl
      rw [hfirst, hrest]

/-- Pieces that open no client register no listeners. -/
theorem register_quiet (listeners : Nat → List ClientListener) {happened : List LifecycleEvent}
    (h : ∀ role client, .opened role client ∉ happened) :
    happened.foldl Connections.register listeners = listeners := by
  induction happened generalizing listeners with
  | nil => rfl
  | cons e happened ih =>
      have hfirst : Connections.register listeners e = listeners := by
        cases e with
        | opened role client => exact absurd List.mem_cons_self (h role client)
        | _ => rfl
      rw [List.foldl_cons, hfirst]
      exact ih _ fun role client hmem => h role client (List.mem_cons_of_mem _ hmem)

/-- Nothing is registered with a client that was not opened. So the number that
is opened next starts with an empty list. -/
theorem ConnectionInv.listeners_unopened (h : ConnectionInv events out s pending due) {client : Nat}
    (hclient : s.life.nextClient ≤ client) : rolesAfter (fun _ => none) out client = none ∧
      pending client = [] ∧ s.listeners client = [] := by
  have hrole : rolesAfter (fun _ => none) out client = none := by
    have hiff := h.opened client
    rw [← Option.not_isSome_iff_eq_none, hiff]
    omega
  have hpending : pending client = [] := by
    refine List.eq_nil_iff_forall_not_mem.mpr fun call hcall => ?_
    have hlt := h.unopened client call hcall
    omega
  refine ⟨hrole, hpending, ?_⟩
  rw [h.listeners, hrole, hpending]
  rfl

/-- **A piece of a service** registers the listeners of the client it opens. A
client that is opened gets the listeners of its role; the calls that wait are
untouched, and no event is decided. -/
theorem ConnectionInv.adopt (h : ConnectionInv events out s pending due) {life : Lifecycle}
    {happened : List LifecycleEvent} (hopens : OpensNext s.life.nextClient happened life.nextClient)
    (hmain : ∀ client, life.client = some client →
      s.life.client = some client ∨ client < life.nextClient) :
    ConnectionInv events (out ++ (s.adopt events life happened).2) (s.adopt events life happened).1
      pending due := by
  have hcalm := calm_announce events happened
  have hgrows : s.life.nextClient ≤ life.nextClient := by
    rcases hopens with ⟨heq, -⟩ | ⟨_, _, -, heq, -⟩ <;> omega
  have hregistered : ∀ client, (s.adopt events life happened).1.listeners client =
      ((rolesAfter (fun _ => none) (out ++ (s.adopt events life happened).2) client).map
        registerListeners).getD [] ++ (pending client).flatMap waitListeners := by
    intro client
    simp only [Connections.adopt]
    rw [rolesAfter_append]
    rcases hopens with ⟨-, hquiet⟩ | ⟨role, rest, rfl, -, hquiet⟩
    · rw [rolesAfter_quiet _ hquiet, register_quiet _ hquiet, h.listeners]
    · have hroles : rolesAfter (rolesAfter (fun _ => none) out)
          ((LifecycleEvent.opened role s.life.nextClient :: rest).flatMap
            (Connections.announce events)) = Function.update (rolesAfter (fun _ => none) out)
              s.life.nextClient (some role) := rolesAfter_quiet _ hquiet
      have hlisteners : (LifecycleEvent.opened role s.life.nextClient :: rest).foldl
          Connections.register s.listeners = Function.update s.listeners s.life.nextClient
            (s.listeners s.life.nextClient ++ registerListeners role) := register_quiet _ hquiet
      rw [hroles, hlisteners]
      by_cases hclient : client = s.life.nextClient
      · subst hclient
        obtain ⟨-, hpending, hnone⟩ := h.listeners_unopened (Nat.le_refl _)
        simp [hpending, hnone]
      · rw [Function.update_of_ne hclient, Function.update_of_ne hclient, h.listeners]
  have hopened : ∀ client, (rolesAfter (fun _ => none)
      (out ++ (s.adopt events life happened).2) client).isSome ↔ client < life.nextClient := by
    intro client
    simp only [Connections.adopt]
    rw [rolesAfter_append]
    rcases hopens with ⟨hsame, hquiet⟩ | ⟨role, rest, rfl, hnext, hquiet⟩
    · rw [rolesAfter_quiet _ hquiet, h.opened, hsame]
    · have hroles : rolesAfter (rolesAfter (fun _ => none) out)
          ((LifecycleEvent.opened role s.life.nextClient :: rest).flatMap
            (Connections.announce events)) = Function.update (rolesAfter (fun _ => none) out)
              s.life.nextClient (some role) := rolesAfter_quiet _ hquiet
      rw [hroles, hnext]
      by_cases hclient : client = s.life.nextClient
      · subst hclient
        simp
      · rw [Function.update_of_ne hclient, h.opened]
        omega
  refine ⟨hregistered, hopened, fun client hclient => ?_, fun client call hcall => ?_, h.nodup,
    fun client call hcall => List.mem_append_left _ (h.waits client call hcall), h.promise, h.apart, h.emission, ?_, h.tracked_calm hcalm rfl, fun call client hmem => ?_,
    fun call result hmem => ?_⟩
  · rcases hmain client hclient with hold | hlt
    · exact Nat.lt_of_lt_of_le (h.main client hold) hgrows
    · exact hlt
  · exact Nat.lt_of_lt_of_le (h.unopened client call hcall) hgrows
  · rw [List.filterMap_append, h.told, happenings_append]
    simp only [Connections.adopt]
    rw [told_announce (rolesAfter (fun _ => none) out)]
    split <;> rfl
  · exact h.waited call client ((List.mem_append.mp hmem).resolve_right (hcalm.waiting call client))
  · exact h.answered call result
      ((List.mem_append.mp hmem).resolve_right (hcalm.settled call result))

/-! ### Calls of `onModuleInit` -/

/-- A call whose promise is settled as it is made. It waits for nothing, and no
listener is added for it. -/
theorem ConnectionInv.settled (h : ConnectionInv events out s pending due)
    (result : Except Thrown Unit) : ConnectionInv events (out ++ [.settled s.inits.length result])
      { s with inits := s.inits ++ [some result] } pending due := by
  have hroles : rolesAfter (fun _ => none) (out ++ [.settled s.inits.length result]) =
      rolesAfter (fun _ => none) out := rolesAfter_append _ _ _
  refine ⟨fun client => ?_, fun client => ?_, h.main, h.unopened, h.nodup,
    fun client call hcall => List.mem_append_left _ (h.waits client call hcall),
    fun client call hcall => ?_, h.apart, h.emission, ?_, ?_, fun call client hmem => ?_, fun call other hmem => ?_⟩
  · rw [hroles]
    exact h.listeners client
  · rw [hroles]
    exact h.opened client
  · have hlt := h.promise client call hcall
    rw [List.getElem?_append_left (List.getElem?_eq_some_iff.mp hlt).1]
    exact hlt
  · rw [List.filterMap_append, h.told, happenings_append]
    simp [ConnectionEvent.told?, happenings]
  · intro before call client since hcut
    rcases Machine.cut_append hcut with ⟨rest, hout, rfl⟩ | ⟨start, hin, -⟩
    · have hlt := h.waited call client (hout ▸ by simp)
      have hother : ¬ s.inits.length = call := by omega
      have htracked := h.tracked before call client rest hout
      unfold Tracked at htracked ⊢
      rw [List.filterMap_append, verdict_append]
      simpa [ConnectionEvent.settled?, hother, verdict, ConnectionEvent.outcomeOf] using htracked
    · have hmem : .waiting call client ∈ [ConnectionEvent.settled s.inits.length result] :=
        hin ▸ List.mem_append_right _ List.mem_cons_self
      simp at hmem
  · have hlt := h.waited call client (by simpa using hmem)
    simp only [List.length_append, List.length_singleton]
    omega
  · rcases List.mem_append.mp hmem with hmem | hmem
    · have hlt := h.answered call other hmem
      simp only [List.length_append, List.length_singleton]
      omega
    · obtain ⟨rfl, -⟩ := ConnectionEvent.settled.inj (List.mem_singleton.mp hmem)
      simp

/-- A call that is pending has been made. -/
theorem ConnectionInv.pending_lt (h : ConnectionInv events out s pending due) {client call : Nat}
    (hcall : call ∈ pending client) : call < s.inits.length :=
  (List.getElem?_eq_some_iff.mp (h.promise client call hcall)).1

/-- A call that the emission has still to reach has been made. -/
theorem ConnectionInv.due_lt (h : ConnectionInv events out s pending due) {call : Nat}
    (hcall : call ∈ due) : call < s.inits.length := by
  have hemission := h.emission
  split at hemission
  · rw [hemission] at hcall
    cases hcall
  · obtain ⟨-, -, new, hpending⟩ := hemission
    exact h.pending_lt (hpending ▸ List.mem_append_left _ hcall)

/-- Two listeners more for a call that starts to wait. The list of its client
grows at the end, after the listeners of the role and of the calls before; no
event of the client has decided it yet. -/
theorem ConnectionInv.waiting (h : ConnectionInv events out s pending due) {client : Nat}
    (hclient : client < s.life.nextClient) :
    ConnectionInv events (out ++ [.waiting s.inits.length client])
      { s with
        listeners := Function.update s.listeners client
          (s.listeners client ++ waitListeners s.inits.length)
        inits := s.inits ++ [none] }
      (Function.update pending client (pending client ++ [s.inits.length])) due := by
  have hroles : rolesAfter (fun _ => none) (out ++ [.waiting s.inits.length client]) =
      rolesAfter (fun _ => none) out := rolesAfter_append _ _ _
  have hmem : ∀ {other call : Nat},
      call ∈ Function.update pending client (pending client ++ [s.inits.length]) other ↔
        call ∈ pending other ∨ call = s.inits.length ∧ other = client := by
    intro other call
    by_cases hother : other = client
    · subst hother
      simp
    · simp [hother]
  refine ⟨fun other => ?_, fun other => ?_, h.main, fun other call hcall => ?_, fun other => ?_,
    fun other call hcall => ?_, fun other call hcall => ?_, fun one other call hone hother => ?_,
    ?_, ?_, ?_, fun call other hin => ?_, fun call result hin => ?_⟩
  · rw [hroles]
    by_cases hother : other = client
    · subst hother
      simp [h.listeners other]
    · simp only [Function.update_of_ne hother]
      exact h.listeners other
  · rw [hroles]
    exact h.opened other
  · rcases hmem.mp hcall with hcall | ⟨-, rfl⟩
    · exact h.unopened other call hcall
    · exact hclient
  · by_cases hother : other = client
    · subst hother
      rw [Function.update_self]
      refine List.nodup_append.mpr ⟨h.nodup other, by simp, fun call hcall last hlast heq => ?_⟩
      have hlt := h.pending_lt hcall
      rw [heq, List.mem_singleton.mp hlast] at hlt
      exact Nat.lt_irrefl _ hlt
    · rw [Function.update_of_ne hother]
      exact h.nodup other
  · rcases hmem.mp hcall with hcall | ⟨rfl, rfl⟩
    · exact List.mem_append_left _ (h.waits other call hcall)
    · simp
  · rcases hmem.mp hcall with hcall | ⟨rfl, -⟩
    · rw [List.getElem?_append_left (h.pending_lt hcall)]
      exact h.promise other call hcall
    · simp
  · rcases hmem.mp hone with hone | ⟨rfl, rfl⟩
    · rcases hmem.mp hother with hother | ⟨rfl, -⟩
      · exact h.apart one other call hone hother
      · exact absurd (h.pending_lt hone) (Nat.lt_irrefl _)
    · rcases hmem.mp hother with hother | ⟨-, rfl⟩
      · exact absurd (h.pending_lt hother) (Nat.lt_irrefl _)
      · rfl
  · have hemission := h.emission
    split
    · next hnone =>
        rw [hnone] at hemission
        exact hemission
    · next emitter event rest hsome =>
        rw [hsome] at hemission
        obtain ⟨hrest, hdue, new, hpending⟩ := hemission
        refine ⟨hrest, hdue, ?_⟩
        by_cases hother : emitter = client
        · subst hother
          exact ⟨new ++ [s.inits.length], by simp [hpending]⟩
        · exact ⟨new, by rw [Function.update_of_ne hother, hpending]⟩
  · rw [List.filterMap_append, h.told, happenings_append]
    simp [ConnectionEvent.told?, happenings]
  · intro before call other since hcut
    rcases Machine.cut_append hcut with ⟨rest, hout, rfl⟩ | ⟨start, hin, -⟩
    · have hlt := h.waited call other (hout ▸ by simp)
      have hne : call ≠ s.inits.length := Nat.ne_of_lt hlt
      have htracked := h.tracked before call other rest hout
      unfold Tracked at htracked ⊢
      rw [List.filterMap_append, verdict_append]
      simpa [hmem, hne, ConnectionEvent.settled?, verdict, ConnectionEvent.outcomeOf]
        using htracked
    · obtain ⟨rfl, hrest⟩ : start = [] ∧ .waiting call other :: since =
          [ConnectionEvent.waiting s.inits.length client] := by
        cases start with
        | nil => exact ⟨rfl, hin.symm⟩
        | cons e start => simp at hin
      obtain ⟨heq, rfl⟩ := List.cons.inj hrest
      obtain ⟨rfl, rfl⟩ := ConnectionEvent.waiting.inj heq
      refine .inl ⟨hmem.mpr (.inr ⟨rfl, rfl⟩), ?_, ?_⟩
      · refine List.filterMap_eq_nil_iff.mpr fun e he => ?_
        rcases List.mem_append.mp he with he | he
        · cases e with
          | settled call result =>
              have hlt := h.answered call result he
              simp only [ConnectionEvent.settled?]
              rw [if_neg (by omega)]
          | _ => rfl
        · rw [List.mem_singleton.mp he]
          rfl
      · rw [if_neg fun hdue => Nat.lt_irrefl _ (h.due_lt hdue)]
        rfl
  · rcases List.mem_append.mp hin with hin | hin
    · have hlt := h.waited call other hin
      simp only [List.length_append, List.length_singleton]
      omega
    · obtain ⟨rfl, -⟩ := ConnectionEvent.waiting.inj (List.mem_singleton.mp hin)
      simp
  · have hlt := h.answered call result (by simpa using hin)
    simp only [List.length_append, List.length_singleton]
    omega

/-- **`onModuleInit`** opens the main client, if there is none, and
waits for it. -/
theorem ConnectionInv.onModuleInit (h : ConnectionInv events out s pending due)
    (options : ResolvedOptions) : ∃ pending', ConnectionInv events
      (out ++ (s.onModuleInit options events).2) (s.onModuleInit options events).1 pending' due := by
  unfold Connections.onModuleInit
  cases heq : s.life.ensureClient with
  | error e =>
      have hopens : OpensNext s.life.nextClient [LifecycleEvent.threw e] s.life.nextClient :=
        .inl ⟨rfl, by simp⟩
      have hthrew := (h.adopt hopens fun _ => .inl).settled (.error e)
      refine ⟨pending, ?_⟩
      simpa [Connections.adopt, Connections.announce, Connections.register] using hthrew
  | ok p =>
      obtain ⟨life, client, happened⟩ := p
      obtain ⟨hopens, hheld, hnext⟩ := Lifecycle.opens_ensureClient heq
      have hadopt := h.adopt hopens fun other hother => by
        obtain rfl : client = other := Option.some.inj (hheld.symm.trans hother)
        exact hnext
      have hlt := hadopt.main client hheld
      simp only
      split
      · rw [← List.append_assoc]
        exact ⟨pending, hadopt.settled (.ok ())⟩
      · rw [← List.append_assoc]
        unfold Connections.waitUntilReady
        split
        · exact ⟨pending, hadopt.settled (.ok ())⟩
        · exact ⟨_, hadopt.waiting hlt⟩

/-! ### Emissions -/

/-- The listeners of a role that an event calls. -/
theorem called_registerListeners (event : SocketEvent) (role : ClientRole) :
    called event.name (registerListeners role) =
      [{ event := event.name, handler := .forward role }] := by
  cases event <;> rfl

/-- An emission calls the listeners of the waiting calls one by one, in the
order of the calls. -/
theorem called_flatMap_waitListeners (event : SocketEvent) (calls : List Nat) :
    called event.name (calls.flatMap waitListeners) = calls.flatMap (waitFor event) := by
  induction calls with
  | nil => rfl
  | cons call calls ih => rw [List.flatMap_cons, called_append, ih, List.flatMap_cons, waitFor]

/-- A call waits for the events that decide. -/
theorem waitFor_cases (event : SocketEvent) (call : Nat) :
    (event.outcome? = none ∧ waitFor event call = []) ∨
      ∃ result r, event.outcome? = some result ∧ waitFor event call = [r] ∧ r.once = true ∧
        ((event.name = .ready ∧ r.event = .ready ∧ r.handler = .onReady call ∧ result = .ok ()) ∨
          event.name = .error ∧ r.event = .error ∧ r.handler = .onError call ∧
            result = .error (connectionFailed event.message)) := by
  cases event with
  | ready => exact .inr ⟨_, _, rfl, rfl, rfl, .inl ⟨rfl, rfl, rfl, rfl⟩⟩
  | error message => exact .inr ⟨_, _, rfl, rfl, rfl, .inr ⟨rfl, rfl, rfl, rfl⟩⟩
  | _ => exact .inl ⟨rfl, rfl⟩

/-- A decisive event is for every call that waits, any other for none. An
emission of a decisive event calls one listener of each waiting call, the other
of the two is for the other event. -/
theorem flatMap_waitFor_eq_nil (event : SocketEvent) (calls : List Nat) :
    calls.flatMap (waitFor event) = [] ↔ event.outcome? = none ∨ calls = [] := by
  constructor
  · intro hnil
    cases calls with
    | nil => exact .inr rfl
    | cons call calls =>
        rcases waitFor_cases event call with ⟨hnone, -⟩ | ⟨result, r, -, hwait, -⟩
        · exact .inl hnone
        · rw [List.flatMap_cons, hwait] at hnil
          cases hnil
  · rintro (hnone | rfl)
    · refine List.flatMap_eq_nil_iff.mpr fun call _ => ?_
      rcases waitFor_cases event call with ⟨-, hwait⟩ | ⟨result, r, hsome, -⟩
      · exact hwait
      · rw [hnone] at hsome
        cases hsome
    · rfl

/-- The consumer, if there is one, is told once, whether it throws or not. -/
theorem told_emitEvent (events : Option OnEvent) (event : CacheEventName) (data : Details) :
    (emitEvent events event data).filterMap ConnectionEvent.told? =
      if events.isSome then [(event, data)] else [] := by
  unfold emitEvent
  cases events with
  | none => rfl
  | some onEvent =>
      cases hcall : onEvent event data <;> simp [hcall, ConnectionEvent.told?]

/-- Telling the consumer settles no call and decides none. -/
theorem calm_emitEvent (events : Option OnEvent) (event : CacheEventName) (data : Details) :
    Calm (emitEvent events event data) := by
  unfold emitEvent
  refine ⟨fun call result hmem => ?_, fun client event hmem => ?_, fun call client hmem => ?_⟩ <;>
    split at hmem
  all_goals first
    | cases hmem
    | split at hmem <;> cases List.mem_singleton.mp hmem

/-- Telling the consumer opens no client, and is no news to be told itself. -/
theorem quiet_emitEvent (roles : Nat → Option ClientRole) (events : Option OnEvent)
    (event : CacheEventName) (data : Details) :
    rolesAfter roles (emitEvent events event data) = roles ∧
      happenings announced roles (emitEvent events event data) = [] := by
  unfold emitEvent
  split
  · exact ⟨rfl, rfl⟩
  · split <;> exact ⟨rfl, rfl⟩

/-- The listeners that an emission finds, one for the role and one for each
call that waits for the event. -/
theorem ConnectionInv.called_listeners (h : ConnectionInv events out s pending due) {client : Nat}
    {role : ClientRole} (hrole : rolesAfter (fun _ => none) out client = some role)
    (event : SocketEvent) : called event.name (s.listeners client) =
      { event := event.name, handler := .forward role } ::
        (pending client).flatMap (waitFor event) := by
  rw [h.listeners, hrole, Option.map_some, Option.getD_some, called_append,
    called_registerListeners, called_flatMap_waitListeners]
  rfl

/-- **An emission begins.** Its first listener hands the event on. The
listeners that are to be called are fixed now: the one of the role, which
hands the event on, and one for each call that waits, if the event decides. -/
theorem ConnectionInv.fire (h : ConnectionInv events out s pending due) {client : Nat}
    {event : SocketEvent} {role : ClientRole} (hidle : s.emitting = none)
    (hrole : rolesAfter (fun _ => none) out client = some role) :
    ConnectionInv events
      (out ++ .fired client event :: emitEvent events event.name (event.data role))
      { s with
        emitting :=
          if ((pending client).flatMap (waitFor event)).isEmpty then none
          else some ⟨client, event, (pending client).flatMap (waitFor event)⟩ }
      pending (if event.outcome?.isSome then pending client else []) := by
  have hcalm := calm_emitEvent events event.name (event.data role)
  have hdue : due = [] := by
    have hemission := h.emission
    rw [hidle] at hemission
    exact hemission
  obtain ⟨hroles, hhappen⟩ := quiet_emitEvent (rolesAfter (fun _ => none) out) events event.name
    (event.data role)
  have hsame : rolesAfter (fun _ => none)
      (out ++ .fired client event :: emitEvent events event.name (event.data role)) =
        rolesAfter (fun _ => none) out := by
    rw [rolesAfter_append]
    exact hroles
  refine ⟨fun other => ?_, fun other => ?_, h.main, h.unopened, h.nodup,
    fun other call hcall => List.mem_append_left _ (h.waits other call hcall), h.promise, h.apart,
    ?_, ?_, ?_, fun call other hin => ?_, fun call result hin => ?_⟩
  · rw [hsame]
    exact h.listeners other
  · rw [hsame]
    exact h.opened other
  · by_cases hnil : (pending client).flatMap (waitFor event) = []
    · rw [hnil]
      rcases (flatMap_waitFor_eq_nil event _).mp hnil with hnone | hpending
      · simp [hnone]
      · simp [hpending]
    · have hsome : event.outcome?.isSome := by
        rw [Option.isSome_iff_ne_none]
        exact fun hnone => hnil ((flatMap_waitFor_eq_nil event _).mpr (.inl hnone))
      have hne : ¬ ((pending client).flatMap (waitFor event)).isEmpty = true := by
        rwa [List.isEmpty_iff]
      rw [if_neg hne, if_pos hsome]
      exact ⟨hnil, rfl, [], (List.append_nil _).symm⟩
  · have htold := told_emitEvent events event.name (event.data role)
    rw [List.filterMap_append, h.told, happenings_append]
    simp only [List.filterMap_cons, ConnectionEvent.told?, htold, happenings, hrole, hhappen]
    split <;> rfl
  · intro before call other since hcut
    rcases Machine.cut_append hcut with ⟨rest, hout, rfl⟩ | ⟨start, hin, -⟩
    · have htracked := h.tracked before call other rest hout
      have hnone : ConnectionEvent.settled? call (.fired client event) = none := rfl
      unfold Tracked at htracked ⊢
      rw [List.filterMap_append, List.filterMap_cons_none hnone, hcalm.settlements,
        List.append_nil, verdict_append]
      rcases htracked with ⟨hcall, hunsettled, hverdict⟩ | ⟨hcall, result, hverdict, hsettled⟩
      · refine .inl ⟨hcall, hunsettled, ?_⟩
        rw [hverdict, if_neg (by simp [hdue]), Option.none_or, hcalm.decided]
        by_cases hother : client = other
        · subst hother
          rw [if_pos rfl]
          cases houtcome : event.outcome? with
          | none => simp
          | some result =>
              have hne : ¬ ((pending client).flatMap (waitFor event)).isEmpty = true := by
                rw [List.isEmpty_iff, flatMap_waitFor_eq_nil, houtcome]
                rintro (hnone | hnil)
                · cases hnone
                · rw [hnil] at hcall
                  cases hcall
              rw [if_neg hne, Option.isSome_some, if_pos rfl, if_pos hcall]
              exact houtcome.symm
        · rw [if_neg hother]
          symm
          refine if_neg fun hin => hother ?_
          split at hin
          · exact h.apart client other call hin hcall
          · cases hin
      · exact .inr ⟨hcall, result, by rw [hverdict]; rfl, hsettled⟩
    · have hmem : .waiting call other ∈ ConnectionEvent.fired client event ::
          emitEvent events event.name (event.data role) :=
        hin ▸ List.mem_append_right _ List.mem_cons_self
      rcases List.mem_cons.mp hmem with hmem | hmem
      · cases hmem
      · exact absurd hmem (hcalm.waiting call other)
  · rcases List.mem_append.mp hin with hin | hin
    · exact h.waited call other hin
    · rcases List.mem_cons.mp hin with hin | hin
      · cases hin
      · exact absurd hin (hcalm.waiting call other)
  · rcases List.mem_append.mp hin with hin | hin
    · exact h.answered call result hin
    · rcases List.mem_cons.mp hin with hin | hin
      · cases hin
      · exact absurd hin (hcalm.settled call result)

/-- No listener of another call or of a role is one of this call. -/
theorem is_waitListeners_of_ne {call other : Nat} (hne : other ≠ call) {r : ClientListener}
    (hr : r ∈ waitListeners other) :
    r.is .ready (.onReady call) = false ∧ r.is .error (.onError call) = false := by
  rcases List.mem_pair.mp hr with rfl | rfl <;> simp [Listener.is, hne]

/-- The listeners that forward events are none of the two that a waiting call
adds, so removing these leaves them. -/
theorem is_registerListeners {call : Nat} {role : ClientRole} {r : ClientListener}
    (hr : r ∈ registerListeners role) :
    r.is .ready (.onReady call) = false ∧ r.is .error (.onError call) = false := by
  simp only [registerListeners, List.mem_cons, List.not_mem_nil, or_false] at hr
  rcases hr with rfl | rfl | rfl | rfl | rfl | rfl <;> exact ⟨rfl, rfl⟩

/-- **`once` and `cleanup`** take the two listeners of the call away and
no other. -/
theorem cleanup_waitListeners {call : Nat} {before after : List ClientListener}
    (hbefore : ∀ r ∈ before,
      r.is .ready (.onReady call) = false ∧ r.is .error (.onError call) = false)
    (hafter : ∀ r ∈ after,
      r.is .ready (.onReady call) = false ∧ r.is .error (.onError call) = false)
    {r : ClientListener} (hr : r ∈ waitListeners call) :
    off .error (.onError call) (off .ready (.onReady call)
      (off r.event r.handler (before ++ waitListeners call ++ after))) = before ++ after := by
  let onReady : ClientListener := { event := .ready, handler := .onReady call, once := true }
  let onError : ClientListener := { event := .error, handler := .onError call, once := true }
  have hready : off .ready (.onReady call) (before ++ onReady :: after) = before ++ after :=
    off_append_cons (by simp [onReady, Listener.is]) fun r hr => (hafter r hr).1
  have herror : off .error (.onError call) (before ++ onError :: after) = before ++ after :=
    off_append_cons (by simp [onError, Listener.is]) fun r hr => (hafter r hr).2
  rw [List.append_assoc]
  rcases List.mem_pair.mp hr with rfl | rfl
  · have hfirst : off .ready (.onReady call) (before ++ onReady :: onError :: after) =
        before ++ onError :: after := by
      refine off_append_cons (by simp [onReady, Listener.is]) fun r hr => ?_
      rcases List.mem_cons.mp hr with rfl | hr
      · rfl
      · exact (hafter r hr).1
    have hagain : off .ready (.onReady call) (before ++ onError :: after) =
        before ++ onError :: after := by
      refine off_of_forall_not fun r hr => ?_
      rcases List.mem_append.mp hr with hr | hr
      · exact (hbefore r hr).1
      · rcases List.mem_cons.mp hr with rfl | hr
        · rfl
        · exact (hafter r hr).1
    exact (congrArg _ ((congrArg _ hfirst).trans hagain)).trans herror
  · have hfirst : off .error (.onError call) ((before ++ [onReady]) ++ onError :: after) =
        (before ++ [onReady]) ++ after :=
      off_append_cons (by simp [onError, Listener.is]) fun r hr => (hafter r hr).2
    rw [List.append_assoc, List.append_assoc] at hfirst
    have hagain : off .error (.onError call) (before ++ after) = before ++ after := by
      refine off_of_forall_not fun r hr => ?_
      rcases List.mem_append.mp hr with hr | hr
      · exact (hbefore r hr).2
      · exact (hafter r hr).2
    exact (congrArg _ ((congrArg _ hfirst).trans hready)).trans hagain

/-- The head of those still to be called, for an event that decides. It is the
first call that waits for the client, since the calls are settled in the order
in which they were made. -/
theorem ConnectionInv.next_due (h : ConnectionInv events out s pending due) {client : Nat}
    {event : SocketEvent} {r : ClientListener} {rest : List ClientListener}
    (hemitting : s.emitting = some ⟨client, event, r :: rest⟩) :
    ∃ call later new result, due = call :: later ∧ pending client = call :: (later ++ new) ∧
      rest = later.flatMap (waitFor event) ∧ event.outcome? = some result ∧
      r ∈ waitListeners call ∧ r.once = true ∧
      (r.handler = .onReady call ∧ result = .ok () ∨
        r.handler = .onError call ∧ result = .error (connectionFailed event.message)) := by
  have hemission := h.emission
  rw [hemitting] at hemission
  obtain ⟨-, hdue, new, hpending⟩ := hemission
  cases due with
  | nil => cases hdue
  | cons call later =>
      rcases waitFor_cases event call with ⟨hnone, -⟩ | ⟨result, r', hsome, hwait, honce, hcase⟩
      · rw [(flatMap_waitFor_eq_nil event _).mpr (.inl hnone)] at hdue
        cases hdue
      · rw [List.flatMap_cons, hwait] at hdue
        obtain ⟨rfl, hrest⟩ := List.cons.inj hdue
        refine ⟨call, later, new, result, rfl, hpending, hrest, hsome, ?_, honce, ?_⟩
        · have hmem : r ∈ waitFor event call := hwait ▸ List.mem_singleton_self r
          exact (List.mem_filter.mp hmem).1
        · rcases hcase with ⟨-, -, hhandler, hresult⟩ | ⟨-, -, hhandler, hresult⟩
          · exact .inl ⟨hhandler, hresult⟩
          · exact .inr ⟨hhandler, hresult⟩

/-- **A waiting call** is settled, and its listeners are gone. Both of its
listeners are removed, the one that was called and the one for the other event,
and the promise is settled with what the event means. -/
theorem ConnectionInv.resolved (h : ConnectionInv events out s pending due) {client : Nat}
    {event : SocketEvent} {r : ClientListener} {rest : List ClientListener}
    (hemitting : s.emitting = some ⟨client, event, r :: rest⟩) {call : Nat} {later new : List Nat}
    {result : Except Thrown Unit} (hdue : due = call :: later)
    (hpending : pending client = call :: (later ++ new))
    (hrest : rest = later.flatMap (waitFor event)) (hresult : event.outcome? = some result) :
    ConnectionInv events (out ++ [.settled call result])
      { s with
        listeners := Function.update s.listeners client
          (((rolesAfter (fun _ => none) out client).map registerListeners).getD [] ++
            (later ++ new).flatMap waitListeners)
        emitting := if rest.isEmpty then none else some ⟨client, event, rest⟩
        inits := s.inits.set call (some result) }
      (Function.update pending client (later ++ new)) later := by
  have hroles : rolesAfter (fun _ => none) (out ++ [.settled call result]) =
      rolesAfter (fun _ => none) out := rolesAfter_append _ _ _
  have hnodup := h.nodup client
  rw [hpending] at hnodup
  have hcall : call ∈ pending client := hpending ▸ List.mem_cons_self
  have hfresh : ∀ other, call ∉ Function.update pending client (later ++ new) other := by
    intro other hin
    by_cases hother : other = client
    · subst hother
      rw [Function.update_self] at hin
      exact (List.nodup_cons.mp hnodup).1 hin
    · rw [Function.update_of_ne hother] at hin
      exact hother (h.apart other client call hin hcall)
  have hmem : ∀ {one other : Nat}, one ≠ call →
      (one ∈ Function.update pending client (later ++ new) other ↔ one ∈ pending other) := by
    intro one other hne
    by_cases hother : other = client
    · subst hother
      rw [Function.update_self, hpending]
      simp [hne]
    · rw [Function.update_of_ne hother]
  have hsub : ∀ {one other : Nat},
      one ∈ Function.update pending client (later ++ new) other → one ≠ call ∧ one ∈ pending other := by
    intro one other hin
    have hne : one ≠ call := fun heq => hfresh other (heq ▸ hin)
    exact ⟨hne, (hmem hne).mp hin⟩
  refine ⟨fun other => ?_, fun other => ?_, h.main,
    fun other one hin => h.unopened other one (hsub hin).2, fun other => ?_,
    fun other one hin => List.mem_append_left _ (h.waits other one (hsub hin).2),
    fun other one hin => ?_, fun one other third hone hother => ?_, ?_, ?_, ?_,
    fun one other hin => ?_, fun one other hin => ?_⟩
  · rw [hroles]
    by_cases hother : other = client
    · subst hother
      simp only [Function.update_self]
    · simp only [Function.update_of_ne hother]
      exact h.listeners other
  · rw [hroles]
    exact h.opened other
  · by_cases hother : other = client
    · subst hother
      rw [Function.update_self]
      exact (List.nodup_cons.mp hnodup).2
    · rw [Function.update_of_ne hother]
      exact h.nodup other
  · rw [List.getElem?_set_ne (hsub hin).1.symm]
    exact h.promise other one (hsub hin).2
  · exact h.apart one other third (hsub hone).2 (hsub hother).2
  · by_cases hnil : rest = []
    · have hlater : later = [] := by
        rw [hrest, flatMap_waitFor_eq_nil, hresult] at hnil
        exact hnil.resolve_left (by simp)
      simp [hnil, hlater]
    · have hne : ¬ rest.isEmpty = true := by rwa [List.isEmpty_iff]
      rw [if_neg hne]
      exact ⟨hnil, hrest, new, Function.update_self ..⟩
  · rw [List.filterMap_append, h.told, happenings_append]
    simp [ConnectionEvent.told?, happenings]
  · intro before one other since hcut
    rcases Machine.cut_append hcut with ⟨since, hout, rfl⟩ | ⟨start, hin, -⟩
    · have htracked := h.tracked before one other since hout
      unfold Tracked at htracked ⊢
      rw [List.filterMap_append, verdict_append]
      by_cases hone : one = call
      · subst hone
        have hsettled : [ConnectionEvent.settled one result].filterMap (·.settled? one) =
            [result] := by
          simp [ConnectionEvent.settled?]
        rcases htracked with ⟨-, hunsettled, hverdict⟩ | ⟨hnever, -⟩
        · refine .inr ⟨hfresh, result, ?_, by rw [hunsettled, hsettled]; rfl⟩
          rw [hverdict, hdue, if_pos List.mem_cons_self, hemitting, Option.bind_some, hresult]
          rfl
        · exact absurd hcall (hnever client)
      · have hsettled : [ConnectionEvent.settled call result].filterMap (·.settled? one) = [] := by
          simp [ConnectionEvent.settled?, Ne.symm hone]
        have hundecided : verdict other [.settled call result] = none := rfl
        rw [hsettled, List.append_nil, hundecided, Option.or_none]
        rcases htracked with ⟨hin, hunsettled, hverdict⟩ | ⟨hnever, result', hverdict, hsettled⟩
        · refine .inl ⟨(hmem hone).mpr hin, hunsettled, ?_⟩
          rw [hverdict, hdue, hemitting]
          by_cases hlater : one ∈ later
          · have hne : ¬ rest.isEmpty = true := by
              rw [List.isEmpty_iff, hrest, flatMap_waitFor_eq_nil, hresult]
              rintro (hnone | hnil)
              · cases hnone
              · rw [hnil] at hlater
                cases hlater
            rw [if_pos (List.mem_cons_of_mem _ hlater), if_pos hlater, if_neg hne]
            rfl
          · rw [if_neg hlater, if_neg (by simp [hone, hlater])]
        · exact .inr ⟨fun third hin => hnever third (hsub hin).2, result', hverdict, hsettled⟩
    · have hin' : .waiting one other ∈ [ConnectionEvent.settled call result] :=
        hin ▸ List.mem_append_right _ List.mem_cons_self
      simp at hin'
  · rw [List.length_set]
    exact h.waited one other (by simpa using hin)
  · rw [List.length_set]
    rcases List.mem_append.mp hin with hin | hin
    · exact h.answered one other hin
    · obtain ⟨rfl, -⟩ := ConnectionEvent.settled.inj (List.mem_singleton.mp hin)
      exact h.pending_lt hcall

/-- **The next listener** of an emission settles the call that waits. Both
listeners of that call are gone then, whichever of them was called. -/
theorem ConnectionInv.next (h : ConnectionInv events out s pending due) {client : Nat}
    {event : SocketEvent} {r : ClientListener} {rest : List ClientListener}
    (hemitting : s.emitting = some ⟨client, event, r :: rest⟩) :
    ∃ pending' due', ConnectionInv events
      (out ++ (Connections.callListener events client event r
        { s with emitting := if rest.isEmpty then none else some ⟨client, event, rest⟩ }).2)
      (Connections.callListener events client event r
        { s with emitting := if rest.isEmpty then none else some ⟨client, event, rest⟩ }).1
      pending' due' := by
  obtain ⟨call, later, new, result, hdue, hpending, hrest, hresult, hr, honce, hcase⟩ :=
    h.next_due hemitting
  have hpromise : s.inits[call]? = some none := h.promise client call (hpending ▸ List.mem_cons_self)
  have hnodup := h.nodup client
  rw [hpending] at hnodup
  have hcleanup : off .error (.onError call) (off .ready (.onReady call)
      (off r.event r.handler (s.listeners client))) =
        ((rolesAfter (fun _ => none) out client).map registerListeners).getD [] ++
          (later ++ new).flatMap waitListeners := by
    rw [h.listeners, hpending, List.flatMap_cons, ← List.append_assoc]
    refine cleanup_waitListeners (fun r hr => ?_) (fun r hr => ?_) hr
    · cases hrole : rolesAfter (fun _ => none) out client with
      | none => rw [hrole] at hr; cases hr
      | some role => rw [hrole] at hr; exact is_registerListeners hr
    · obtain ⟨other, hother, hin⟩ := List.mem_flatMap.mp hr
      refine is_waitListeners_of_ne (fun heq => ?_) hin
      subst heq
      exact (List.nodup_cons.mp hnodup).1 hother
  refine ⟨Function.update pending client (later ++ new), later, ?_⟩
  have hresolved := h.resolved hemitting hdue hpending hrest hresult
  rw [← hcleanup] at hresolved
  unfold Connections.callListener
  rcases hcase with ⟨hhandler, rfl⟩ | ⟨hhandler, rfl⟩
  · rw [hhandler] at hresolved ⊢
    simpa [honce, Connections.settle, Connections.cleanup, Connections.drop, hpromise, hhandler]
      using hresolved
  · rw [hhandler] at hresolved ⊢
    simpa [honce, Connections.settle, Connections.cleanup, Connections.drop, hpromise, hhandler]
      using hresolved

/-- Every piece of the services other than `onModuleInit`, which waits, is a
step of the lifecycle with its announcements. -/
theorem connectionStep_service (options : ResolvedOptions) {a : LifecycleAction}
    (ha : a ≠ .onModuleInit) : connectionStep options events s (.service a) =
      (lifecycleStep options s.life a).map fun p => s.adopt events p.1 p.2 := by
  cases a with
  | onModuleInit => exact absurd rfl ha
  | _ => rfl

/-- One step keeps the invariant. One case for each action: a piece of a
service, an initialization, an event that fires, or the next listener of an
emission. -/
theorem connectionInv_step {options : ResolvedOptions} {a : ConnectionAction}
    (h : ConnectionInv events out s pending due)
    (hstep : connectionStep options events s a = some (s', more)) :
    ∃ pending' due', ConnectionInv events (out ++ more) s' pending' due' := by
  cases a with
  | service a =>
      by_cases ha : a = .onModuleInit
      · subst ha
        cases hstep
      · rw [connectionStep_service options ha, Option.map_eq_some_iff] at hstep
        obtain ⟨⟨life, happened⟩, hpiece, heq⟩ := hstep
        obtain ⟨rfl, rfl⟩ := Prod.mk.inj heq
        exact ⟨pending, due, h.adopt (opens_lifecycleStep hpiece) fun _ =>
          client_lifecycleStep hpiece⟩
  | onModuleInit =>
      obtain ⟨rfl, rfl⟩ := Prod.mk.inj (Option.some.inj hstep)
      obtain ⟨pending', hinv⟩ := h.onModuleInit options
      exact ⟨pending', due, hinv⟩
  | status client ready =>
      obtain ⟨rfl, rfl⟩ := Prod.mk.inj (Option.some.inj hstep)
      rw [List.append_nil]
      exact ⟨pending, due, { h with }⟩
  | fire client event =>
      simp only [connectionStep] at hstep
      split at hstep
      · next hguard =>
          obtain ⟨hidle, hlt⟩ : s.emitting = none ∧ client < s.life.nextClient := by
            simpa using hguard
          obtain ⟨role, hrole⟩ := Option.isSome_iff_exists.mp ((h.opened client).mpr hlt)
          rw [h.called_listeners hrole] at hstep
          obtain ⟨rfl, rfl⟩ := Prod.mk.inj (Option.some.inj hstep)
          exact ⟨_, _, h.fire hidle hrole⟩
      · cases hstep
  | next =>
      simp only [connectionStep, Connections.next] at hstep
      split at hstep
      · next hemitting =>
          have hnext := h.next hemitting
          rw [Option.some.inj hstep] at hnext
          exact hnext
      · cases hstep

end Steps

/-- At the start no client is open and no call waits. -/
theorem connectionInv_init (events : Option OnEvent) :
    ConnectionInv events [] {} (fun _ => []) [] where
  listeners _ := rfl
  opened _ := by simp [rolesAfter]
  main _ := by simp
  unopened _ _ := by simp
  nodup _ := .nil
  waits _ _ := by simp
  promise _ _ := by simp
  apart _ _ _ := by simp
  emission := rfl
  told := by simp [happenings]
  tracked before _ _ _ hcut := by cases before <;> cases hcut
  waited _ _ := by simp
  answered _ _ := by simp

/-- The invariant of every run. -/
theorem connectionInv_run {options : ResolvedOptions} {events : Option OnEvent}
    {as : List ConnectionAction} {s : Connections} {out : List ConnectionEvent}
    (h : (connectionMachine options events).run as = some (s, out)) :
    ∃ pending due, ConnectionInv events out s pending due :=
  (connectionMachine options events).run_induction
    (I := fun _ out s => ∃ pending due, ConnectionInv events out s pending due)
    ⟨_, _, connectionInv_init events⟩
    (fun _ _ _ _ _ _ hinv hstep => by
      obtain ⟨pending, due, hinv⟩ := hinv
      exact connectionInv_step hinv hstep) h

/-! ## Main results -/

/-- A consumer that throws at every event. -/
def throwing : OnEvent := fun _ _ => .error (.error "sink is down".toList)

/-- Two calls that wait for one client, which reports an error and then
is ready. -/
def refusedTwice : List ConnectionAction :=
  [.onModuleInit, .onModuleInit, .fire 0 (.error "connect ECONNREFUSED".toList), .next, .next,
    .fire 0 .ready]

/-- **When initialization settles.** A call of `onModuleInit` that waits for a
client is settled by the first `ready` or `error` of that client since, once
and with what that event means, and is pending as long as there is none; no
other client, no later event and no shutdown settles it. -/
theorem init_settles (options : ResolvedOptions) (events : Option OnEvent)
    {as : List ConnectionAction} {s : Connections} {before since : List ConnectionEvent}
    {call client : Nat}
    (hrun : (connectionMachine options events).run as =
      some (s, before ++ .waiting call client :: since))
    (hidle : s.emitting = none) :
    (before ++ .waiting call client :: since).filterMap (·.settled? call) =
      (verdict client since).toList := by
  obtain ⟨pending, due, hinv⟩ := connectionInv_run hrun
  rcases hinv.tracked before call client since rfl with
    ⟨-, hunsettled, hverdict⟩ | ⟨-, result, hverdict, hsettled⟩
  · rw [hunsettled, hverdict, hidle]
    split <;> rfl
  · rw [hsettled, hverdict]
    rfl

/-- Of two calls that wait for one client, the second is settled by the error,
and the `ready` behind it changes nothing. -/
theorem init_settles_twice :
    ∃ s before since, (connectionMachine defaultOptions (some throwing)).run refusedTwice =
        some (s, before ++ .waiting 1 0 :: since) ∧
      (before ++ .waiting 1 0 :: since).filterMap (·.settled? 1) =
        [.error (connectionFailed "connect ECONNREFUSED".toList)] := by
  have hrun : (connectionMachine defaultOptions (some throwing)).run refusedTwice =
      some (_, [_, _] ++ .waiting 1 0 :: _) := rfl
  exact ⟨_, [_, _], _, hrun, (init_settles defaultOptions (some throwing) hrun rfl).trans rfl⟩

/-- **No listener is left behind.**  At every point of every run, also in the
middle of an emission, a client has the listeners of its role and the two of
each call that still waits for it, and no others. -/
theorem listeners_left (options : ResolvedOptions) (events : Option OnEvent)
    {as : List ConnectionAction} {s : Connections} {out : List ConnectionEvent}
    (hrun : (connectionMachine options events).run as = some (s, out)) (client : Nat) :
    ∃ calls : List Nat, calls.Nodup ∧
      s.listeners client =
        ((rolesAfter (fun _ => none) out client).map registerListeners).getD [] ++
          calls.flatMap waitListeners ∧
      ∀ call, call ∈ calls ↔
        .waiting call client ∈ out ∧ out.filterMap (·.settled? call) = [] := by
  obtain ⟨pending, due, hinv⟩ := connectionInv_run hrun
  refine ⟨pending client, hinv.nodup client, hinv.listeners client, fun call => ⟨fun hcall => ?_, ?_⟩⟩
  · have hwaits := hinv.waits client call hcall
    obtain ⟨before, since, hcut⟩ := List.append_of_mem hwaits
    rcases hinv.tracked before call client since hcut with ⟨-, hunsettled, -⟩ | ⟨hnever, -⟩
    · exact ⟨hwaits, hunsettled⟩
    · exact absurd hcall (hnever client)
  · rintro ⟨hwaits, hunsettled⟩
    obtain ⟨before, since, hcut⟩ := List.append_of_mem hwaits
    rcases hinv.tracked before call client since hcut with ⟨hcall, -⟩ | ⟨-, result, -, hsettled⟩
    · exact hcall
    · rw [hunsettled] at hsettled
      cases hsettled

/-- After the first error only the listeners of the role are left. -/
theorem listeners_left_twice :
    ∃ s out, (connectionMachine defaultOptions (some throwing)).run refusedTwice = some (s, out) ∧
      ∃ calls : List Nat, calls.Nodup ∧
        s.listeners 0 = registerListeners .main ++ calls.flatMap waitListeners ∧
        ∀ call, call ∈ calls ↔
          .waiting call 0 ∈ out ∧ out.filterMap (·.settled? call) = [] := by
  have hrun : (connectionMachine defaultOptions (some throwing)).run refusedTwice =
      some (_, _) := rfl
  exact ⟨_, _, hrun, listeners_left defaultOptions (some throwing) hrun 0⟩

end NestCache
