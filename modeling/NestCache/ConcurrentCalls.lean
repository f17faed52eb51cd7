import NestCache.CacheRefinement
import NestCache.CellServer
import NestCache.NamespaceRuns

/-!
# Concurrent calls

Any number of processes call the service at once.  Their commands reach the
server in any order, a call may run into a timeout while its command is still on
its way, and others write keys outside the namespace.

* `service_calls_linearizable` — every call that sends one command takes effect
  at one moment between its invocation and its return, on any server;
* `concurrent_calls_refine` — on a server that answers as documented, these
  effects are those of the cache of `CacheStep`.
-/

namespace NestCache

open Dialogue Linearization

/-- What a caller reads when the client rejects its command. -/
def rejectWith {V : Type} : (c : ServiceCommand) → Reason → Option (ServiceReply V c)
  | .key _, reason => some (.error reason)
  | .ping, reason => some (.error reason)
  | .publish _ _, reason => some (.error reason)
  | _, _ => none

/-! ## One command a call -/

section Single

variable {T V : Type} {service : CacheService T}

/-- A single command with its reading is a program of at most one command. -/
theorem atMostOne_request {α : Type} {c : ServiceCommand}
    (read : ServiceReply V c → Except Thrown α) :
    AtMostOne (.request c read : ServiceDialogue V α) := by
  intro reply
  dsimp only
  cases read reply <;> rfl

/-- Relabelling the result sends no second command. What comes behind the
command has ended, and stays ended under another name. -/
theorem AtMostOne.map {α β : Type} {p : ServiceDialogue V α} (h : AtMostOne p) (f : α → β) :
    AtMostOne (p.map f) := by
  cases p with
  | done a => trivial
  | fail e => trivial
  | send c k =>
      intro reply
      have hend := h reply
      change (outcome? ((k reply).bind (.done ∘ f))).isSome = true
      cases hk : k reply with
      | done a => rfl
      | fail e => rfl
      | send c' k' =>
          rw [hk] at hend
          cases hend

/-- The shape of the calls has at most one command. -/
theorem SingleCommand.atMostOne {α : Type} {p : ServiceDialogue V α}
    (h : SingleCommand service p) : AtMostOne p := by
  induction h with
  | ofExcept x => cases x <;> trivial
  | prepare x _ ih =>
      cases x with
      | error e => trivial
      | ok b => exact ih b rfl
  | request _ _ => exact atMostOne_request _
  | map _ f ih => exact AtMostOne.map ih f

end Single

/-- The calls that send one command at most, each over the connection it
finds. -/
abbrev SingleCall (T : Type) := ConnectionStatus × { call : ServiceCall T // call.isSingle = true }

/-- The service under concurrent calls of that kind. -/
def serviceSystem {T V σ W : Type} (service : CacheService T)
    (server : σ → (c : ServiceCommand) → σ × ServiceReply V c) (world : W → σ → Option σ) :
    System ServiceCommand (ServiceReply V) Thrown (ServiceResult T V) σ (SingleCall T) W Reason where
  server := server
  program call := (service.under call.1).run call.2.1
  reject := rejectWith
  world := world

/-- **Calls are atomic.** In every run of concurrent calls of the values,
counters, TTLs, batches, hashes, sets and publishes, with arbitrary arguments
and on any server, each call takes effect as a whole at one moment between its
invocation and its return: at its command, or nowhere. A call that was
rejected while its command was on its way has no effect, or the one of its
command once and later. -/
theorem service_calls_linearizable {T V σ W : Type} (service : CacheService T)
    (server : σ → (c : ServiceCommand) → σ × ServiceReply V c) (world : W → σ → Option σ) (s₀ : σ)
    {actions : List (Action (SingleCall T) W Reason)}
    {s : State ServiceCommand (ServiceReply V) Thrown (ServiceResult T V) σ}
    {out : List (Event (SingleCall T) (CacheResult T V) W)}
    (hrun : (machine (serviceSystem service server world) s₀).run actions = some (s, out)) :
    ∃ marks, marks.filterMap Mark.event? = out ∧ Placed marks ∧
      Runs (Atomic (serviceSystem service server world)) s₀ (marks.filterMap Mark.effect?)
        s.server :=
  linearizable (fun call => (run_single (service.under call.1) call.2.2).atMostOne) hrun

/-- The empty store. -/
def emptyStore : Nat × RedisStore := (0, fun _ => none)

/-- Two increments of one key; the first is given up, and lands last. It comes
last in the order of the points, too. -/
theorem service_calls_linearizable_late :
    ∃ s marks, (machine (serviceSystem numberService cellServer.answer cellServer.world)
        emptyStore).run
      [.invoke (.connected .redis, ⟨.incr "page".toList "home".toList (.ofInt 1), rfl⟩),
        .invoke (.connected .redis, ⟨.incr "page".toList "home".toList (.ofInt 1), rfl⟩),
        .abandon 0 (.error "Command timed out".toList), .settle 0, .serve 1, .settle 1, .land 0] =
      some (s, marks.filterMap Mark.event?) ∧ Placed marks ∧
    Runs (Atomic (serviceSystem numberService cellServer.answer cellServer.world)) emptyStore
      (marks.filterMap Mark.effect?) s.server := by
  obtain ⟨s, out, hrun⟩ : ∃ s out,
      (machine (serviceSystem numberService cellServer.answer cellServer.world) emptyStore).run
        [.invoke (.connected .redis, ⟨.incr "page".toList "home".toList (.ofInt 1), rfl⟩),
          .invoke (.connected .redis, ⟨.incr "page".toList "home".toList (.ofInt 1), rfl⟩),
          .abandon 0 (.error "Command timed out".toList), .settle 0, .serve 1, .settle 1, .land 0] =
        some (s, out) := ⟨_, _, rfl⟩
  obtain ⟨marks, rfl, hmarks⟩ := service_calls_linearizable numberService _ _ _ hrun
  exact ⟨s, marks, hrun, hmarks⟩

/-! ## The cache that concurrent calls see -/

/-- An operation over the connection it finds. -/
abbrev CacheCall (separator : Char) (T : Type) := ConnectionStatus × CacheOp separator T

/-- The service under concurrent operations. -/
def cacheSystem {T V σ W : Type} (separator : Char) (service : CacheService T)
    (server : RedisServer V σ W) :
    System ServiceCommand (ServiceReply V) Thrown (ServiceResult T V) σ (CacheCall separator T) W
      Reason where
  server := server.answer
  program call := (service.under call.1).run call.2.toCall
  reject := rejectWith
  world := server.world

/-- The cache that a state of the server is. -/
def RedisServer.cacheState {T V σ W : Type} (server : RedisServer V σ W) (separator : Char)
    (service : CacheService T) (s : σ) : CacheState separator :=
  ⟨server.now s, server.cells s ∘ CacheKey.name service.keyBuilder⟩

/-- Every operation of the cache is one of the calls with a single command. -/
theorem CacheOp.isSingle_toCall {separator : Char} {T : Type} (op : CacheOp separator T) :
    op.toCall.isSingle = true := by
  cases op <;> rfl

section Refinement

variable {T V σ W : Type} {separator : Char} {service : CacheService T}
  {server : RedisServer V σ W}

/-- An operation has nothing to do, is ready, or is kept from it. What can keep
it is the connection, a value that does not encode, or a list longer than the
engine takes. -/
theorem idle_ready_or_unready (service : CacheService T) (connection : ConnectionStatus)
    (op : CacheOp separator T) : op.isIdle = true ∨
      (∃ raw, Ready service.serializer service.argumentLimit connection op raw) ∨
      op.isIdle = false ∧ ∃ thrown,
        Unready service.serializer service.argumentLimit connection op thrown := by
  cases hidle : op.isIdle with
  | true => exact .inl rfl
  | false =>
      right
      cases hclient : connection.getClient with
      | error thrown => exact .inr ⟨rfl, thrown, .disconnected hclient⟩
      | ok client =>
          cases hencoded : op.encoded service.serializer with
          | error thrown => exact .inr ⟨rfl, thrown, .unencoded hencoded⟩
          | ok raw =>
              rcases Nat.lt_or_ge service.argumentLimit op.spreadCount with hover | hfits
              · exact .inr ⟨rfl, argumentRangeError, .overlong hover⟩
              · exact .inl ⟨raw, hidle, ⟨client, hclient⟩, hencoded, hfits⟩

variable (hdoc : server.Documented) (hsep : service.keyBuilder.separator = [separator])

include hdoc hsep

/-- A ready operation sends a command that does what the operation does or is
refused. -/
theorem ready_command {connection : ConnectionStatus} {op : CacheOp separator T}
    {raw : CacheOp separator Text}
    (hready : Ready service.serializer service.argumentLimit connection op raw) :
    ∃ (c : KeyCommand) (read : KeyReply c → CacheResult T V),
      ((service.under connection).run op.toCall : ServiceDialogue V (ServiceResult T V)) =
        .request (.key c) (fun reply => (awaitReply reply).bind read) ∧
      ∀ s, (server.cacheState separator service (server.answer s (.key c)).1 =
            ⟨server.now s, (raw.does (V := V) service.serializer.deserialize (server.now s)
              (server.cacheState separator service s).cells).1⟩ ∧
          (raw.does service.serializer.deserialize (server.now s)
              (server.cacheState separator service s).cells).2
            ((awaitReply (server.answer s (.key c)).2).bind read)) ∨
        (server.cacheState separator service (server.answer s (.key c)).1 =
            server.cacheState separator service s ∧
          ∃ reason, (server.answer s (.key c)).2 = .error reason) := by
  obtain ⟨c, read, hprogram, hdoes⟩ :=
    realises_run (service.under connection) hdoc (name_injective hsep) hready
  refine ⟨c, read, hprogram, fun s => ?_⟩
  obtain ⟨cells, replies, ⟨hnow, hdone | ⟨hcells, hreason⟩⟩, hcomp, hreplies⟩ := hdoes s
  · refine .inl ⟨?_, hreplies _ hdone.2⟩
    rw [RedisServer.cacheState, hnow, hdone.1]
    exact congrArg (CacheState.mk _) hcomp
  · refine .inr ⟨?_, hreason⟩
    rw [RedisServer.cacheState, hnow, hcells]
    rfl

/-- Only a ready operation sends a command; a rejection of it is the result,
and the command does what the operation does or nothing. -/
theorem sent_command {connection : ConnectionStatus} {op : CacheOp separator T}
    {c : ServiceCommand} {k : ServiceReply V c → ServiceDialogue V (ServiceResult T V)}
    (h : (cacheSystem separator service server).program (connection, op) = .send c k) :
    ∃ (raw : CacheOp separator Text)
      (_ : Ready service.serializer service.argumentLimit connection op raw)
      (c' : KeyCommand) (hc : c = .key c'),
      (∀ reason, k (hc ▸ .error reason) = .fail (.raw reason)) ∧
      ∀ s, server.cacheState separator service (server.answer s c).1 =
            ⟨server.now s, (raw.does (V := V) service.serializer.deserialize (server.now s)
              (server.cacheState separator service s).cells).1⟩ ∨
        server.cacheState separator service (server.answer s c).1 =
          server.cacheState separator service s := by
  simp only [cacheSystem] at h
  rcases idle_ready_or_unready service connection op with
    hidle | ⟨raw, hready⟩ | ⟨hbusy, thrown, hthrown⟩
  · rw [run_idle hidle] at h
    cases h
  · obtain ⟨c', read, hprogram, hdoes⟩ := ready_command (V := V) hdoc hsep hready
    rw [hprogram, request] at h
    cases h
    exact ⟨raw, hready, c', rfl, fun reason => rfl,
      fun s => (hdoes s).imp And.left And.left⟩
  · obtain ⟨other, hprogram, -⟩ : FailsUnready (service.under connection) op _ :=
      run_unready hbusy hthrown
    rw [hprogram] at h
    cases h

/-- **One effect** on the server is one step of the cache. An answer, a
rejection and a landing are steps of the operation; whatever else happens to
the server changes other keys only, or the time. -/
theorem cacheStep_of_atomic (hworld : server.KeepsOut service.keyBuilder.FlushRegion) {s s' : σ}
    {e : Effect (CacheCall separator T) (CacheResult T V) W}
    (h : Atomic (cacheSystem separator service server) s e s') :
    CacheStep service.serializer service.argumentLimit server.time
      (server.cacheState separator service s) e
      (server.cacheState separator service s') := by
  cases h with
  | answered i call =>
      obtain ⟨connection, op⟩ := call
      simp only [cacheSystem]
      rcases idle_ready_or_unready service connection op with
        hidle | ⟨raw, hready⟩ | ⟨hbusy, thrown, hthrown⟩
      · rw [run_idle hidle]
        exact .idle hidle
      · obtain ⟨c, read, hprogram, hdoes⟩ := ready_command (V := V) hdoc hsep hready
        rw [hprogram, exec_request]
        rcases hdoes s with ⟨hstate, hresult⟩ | ⟨hstate, reason, hreason⟩
        · dsimp only
          rw [hstate]
          exact .performed hready hresult
        · dsimp only
          rw [hstate, hreason]
          exact .refused hready reason
      · obtain ⟨other, hprogram, hother⟩ : FailsUnready (service.under connection) op _ :=
          run_unready hbusy hthrown
        rw [hprogram]
        exact .invalid hbusy hother
  | @rejected _ call c k rejection reply result hprogram hreject hresult =>
      obtain ⟨connection, op⟩ := call
      obtain ⟨raw, hready, c, rfl, hk, -⟩ := sent_command hdoc hsep hprogram
      obtain rfl := Option.some.inj hreject
      rw [hk] at hresult
      obtain rfl := Option.some.inj hresult
      exact .givenUp hready rejection
  | @landed _ call c k hprogram =>
      obtain ⟨connection, op⟩ := call
      obtain ⟨raw, hready, c, rfl, -, hdoes⟩ := sent_command hdoc hsep hprogram
      rcases hdoes s with hstate | hstate
      · exact hstate ▸ .landed hready
      · exact hstate ▸ .lost hready
  | @world _ w hw =>
      obtain ⟨hle, hnow, hcells⟩ := hworld _ _ _ hw
      have hstate : server.cacheState separator service s' =
          ⟨server.time w, fun key => Cell.alive (server.time w)
            ((server.cacheState separator service s).cells key)⟩ := by
        rw [RedisServer.cacheState, hnow]
        exact congrArg (CacheState.mk _)
          (funext fun key => hcells _ (flushRegion_name service.keyBuilder key))
      rw [hstate]
      exact .passed hle

end Refinement

/-- **The service is a cache under concurrency.** On a server that answers as
documented, with a one-character separator, and while others keep out of the
namespace: every run of concurrent operations on prefixes and ids without the
separator can be explained by points between invocations and returns, at which
the cache of `CacheStep` makes one step, and ends with the cells that the
server holds under the keys of the namespace. -/
theorem concurrent_calls_refine {T V σ W : Type} (separator : Char) (service : CacheService T)
    (hsep : service.keyBuilder.separator = [separator]) (server : RedisServer V σ W)
    (hdoc : server.Documented) (hworld : server.KeepsOut service.keyBuilder.FlushRegion) (s₀ : σ)
    {actions : List (Action (CacheCall separator T) W Reason)}
    {s : State ServiceCommand (ServiceReply V) Thrown (ServiceResult T V) σ}
    {out : List (Event (CacheCall separator T) (CacheResult T V) W)}
    (hrun : (machine (cacheSystem separator service server) s₀).run actions = some (s, out)) :
    ∃ marks, marks.filterMap Mark.event? = out ∧ Placed marks ∧
      Runs (CacheStep service.serializer service.argumentLimit server.time)
        (server.cacheState separator service s₀) (marks.filterMap Mark.effect?)
        (server.cacheState separator service s.server) := by
  obtain ⟨marks, hseen, hplaced, hruns⟩ := linearizable (fun call =>
    (run_single (service.under call.1) call.2.isSingle_toCall).atMostOne) hrun
  exact ⟨marks, hseen, hplaced,
    hruns.map fun _ _ _ hatomic => cacheStep_of_atomic hdoc hsep hworld hatomic⟩

/-! ## A service of numbers -/

/-- A prefix or an id. -/
def numberField (text : String) (h : text.toList ≠ [] ∧ ':' ∉ text.toList) : KeyField ':' :=
  ⟨text.toList, h.1, h.2⟩

/-- A cell of the service of numbers. -/
def visits : CacheKey ':' :=
  ⟨numberField "page" (by decide), numberField "home" (by decide)⟩

/-- An operation over a connection that is there. -/
def online (op : CacheOp ':' Nat) : CacheCall ':' Nat := (.connected .redis, op)

/-- A TTL of one second. -/
def oneSecond : Ttl := ⟨1, by decide, by decide⟩

/-- A step of one. -/
def oneStep : SafeInt := ⟨1, by decide⟩

/-- Runs of the service of numbers, from the empty store. -/
abbrev numberRun (actions : List (Action (CacheCall ':' Nat) Nat Reason)) :
    Option (State ServiceCommand (ServiceReply Unit) Thrown (ServiceResult Nat Unit)
      (Nat × RedisStore) × List (Event (CacheCall ':' Nat) (CacheResult Nat Unit) Nat)) :=
  (machine (cacheSystem ':' numberService cellServer) emptyStore).run actions

/-- Two increments of one cell; the first is given up, and lands last.
The cache goes through the answer of the second and then the landing of
the first. -/
theorem concurrent_calls_refine_late :
    ∃ s marks, numberRun
      [.invoke (online (.incr visits oneStep)), .invoke (online (.incr visits oneStep)),
        .abandon 0 (.error "Command timed out".toList), .settle 0, .serve 1, .settle 1, .land 0] =
      some (s, marks.filterMap Mark.event?) ∧ Placed marks ∧
    Runs (CacheStep numberService.serializer numberService.argumentLimit cellServer.time)
      (cellServer.cacheState ':' numberService emptyStore) (marks.filterMap Mark.effect?)
      (cellServer.cacheState ':' numberService s.server) := by
  obtain ⟨s, out, hrun⟩ : ∃ s out, numberRun
      [.invoke (online (.incr visits oneStep)), .invoke (online (.incr visits oneStep)),
        .abandon 0 (.error "Command timed out".toList), .settle 0, .serve 1, .settle 1, .land 0] =
      some (s, out) := ⟨_, _, rfl⟩
  obtain ⟨marks, rfl, hmarks⟩ := concurrent_calls_refine ':' numberService rfl cellServer
    cellServer_documented (cellServer_keepsOut _) emptyStore hrun
  exact ⟨s, marks, hrun, hmarks⟩

end NestCache
