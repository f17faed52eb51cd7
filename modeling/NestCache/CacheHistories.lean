import NestCache.ConcurrentCalls
import NestCache.Histories

/-!
# What callers can rely on

Consequences of `concurrent_calls_refine` for what callers see of each other,
with times read off the clock of the server at the entries of the history.

* `CacheOp.does_frame` — an operation leaves the cells it does not write alone;
* `CacheHistory.exists_point` — where a call that returned took effect, and when;
* `get_after_set` — a value that was set is read back until it expires, and not
  once it has.
-/

namespace NestCache

open KeyedBatch Linearization

/-! ## What operations write -/

namespace CacheOp

variable {separator : Char} {T V : Type}

/-- The cells an operation may change. -/
def writes : CacheOp separator T → List (CacheKey separator)
  | set key _ _ | setRaw key _ _ | setNx key _ _ | del key | incr key _ | decr key _
  | expire key _ | persist key | hset key _ _ | hdel key _ | sadd key _ | srem key _ => [key]
  | delMany keyPrefix ids => ids.map (CacheKey.mk keyPrefix)
  | mset keyPrefix entries => entries.map fun entry => ⟨keyPrefix, entry.1⟩
  | get _ | getRaw _ | existsKey _ | ttl _ | mget _ _ | hget _ _ | hgetall _ | smembers _
  | sismember _ _ | scard _ => []

/-- Encoding the entries of a batch leaves their keys as they are. -/
theorem keys_encoded {serializer : Serializer T} {A : Type} {entries : List (A × T)}
    {texts : List (A × Text)} (h : entries.mapM (encodeEntry serializer) = .ok texts) :
    texts.map Prod.fst = entries.map Prod.fst := by
  have hall := mapM_eq_ok_iff.mp h
  clear h
  induction hall with
  | nil => rfl
  | cons hentry _ ih =>
      obtain ⟨text, -, rfl⟩ := map_eq_ok hentry
      rw [List.map_cons, List.map_cons, ih]

/-- Encoding keeps what is written. The encoding replaces values by texts and
leaves the keys, so that the frame of an operation can be read off before it is
encoded. -/
theorem writes_encoded {serializer : Serializer T} {op : CacheOp separator T}
    {raw : CacheOp separator Text} (h : op.encoded serializer = .ok raw) :
    raw.writes = op.writes := by
  cases op with
  | set key value ttlSeconds | setNx key value ttlSeconds | hset key field value =>
      obtain ⟨text, -, rfl⟩ := map_eq_ok h
      rfl
  | mset keyPrefix entries =>
      obtain ⟨texts, htexts, rfl⟩ := map_eq_ok h
      have hkeys := congrArg (List.map (CacheKey.mk keyPrefix)) (keys_encoded htexts)
      rw [List.map_map, List.map_map] at hkeys
      exact hkeys
  | _ =>
      obtain rfl := Except.ok.inj h
      rfl

/-- **Frame.** An operation leaves the cells it does not write alone. Each
operation updates one cell or goes through the cells of its batch, and none of
them is this one. -/
theorem does_frame {op : CacheOp separator Text} {key : CacheKey separator} (h : key ∉ op.writes)
    (deserialize : Text → Except Thrown T) (now : Nat) (cells : Cells separator) :
    (op.does (V := V) deserialize now cells).1 key = cells key := by
  cases op with
  | get other | getRaw other | existsKey other | ttl other | hget other field | hgetall other
  | smembers other | sismember other member | scard other =>
      simp [does, atCell]
  | set other text ttlSeconds | setRaw other text ttlSeconds | setNx other text ttlSeconds
  | incr other step | decr other step | expire other seconds | persist other
  | hset other field text | hdel other fields | sadd other members | srem other members =>
      have hne : key ≠ other := by simpa [writes] using h
      simp [does, atCell, hne]
  | del other =>
      have hother : key ∉ [other] := h
      simp only [does, dropAll, if_neg hother]
  | delMany keyPrefix ids =>
      have hids : key ∉ ids.map (CacheKey.mk keyPrefix) := h
      simp only [does, dropAll, if_neg hids]
  | mset keyPrefix entries =>
      have hkeys : key ∉ (entries.map fun entry =>
          ((⟨keyPrefix, entry.1⟩ : CacheKey separator),
            (⟨.string entry.2, none⟩ : Cell))).map Prod.fst := by
        rwa [List.map_map]
      exact writeAll_of_notMem hkeys cells
  | mget keyPrefix ids => rfl

end CacheOp

/-! ## Steps of the cache -/

section Steps

variable {separator : Char} {T V W : Type} {serializer : Serializer T}
  {argumentLimit : Nat} {time : W → Nat}
  {s t : CacheState separator}
  {e : Effect (ConnectionStatus × CacheOp separator T) (CacheResult T V) W}
  {es : List (Effect (ConnectionStatus × CacheOp separator T) (CacheResult T V) W)}

/-- The clock is set by the surroundings alone, and not back. -/
theorem CacheStep.now (h : CacheStep serializer argumentLimit time s e t) :
    t.now = (e.world?.toList).foldl (fun _ w => time w) s.now ∧ s.now ≤ t.now := by
  cases h with
  | passed htime => exact ⟨rfl, htime⟩
  | _ => exact ⟨rfl, Nat.le_refl _⟩

/-- The clock after what the surroundings did. -/
theorem now_of_runs (h : Runs (CacheStep serializer argumentLimit time) s es t) :
    t.now = (es.filterMap Effect.world?).foldl (fun _ w => time w) s.now ∧ s.now ≤ t.now := by
  induction h with
  | nil => exact ⟨rfl, Nat.le_refl _⟩
  | @cons s s' t e es first _ ih =>
      obtain ⟨hnow, hle⟩ := first.now
      refine ⟨?_, hle.trans ih.2⟩
      rw [ih.1, hnow]
      cases hworld : e.world? with
      | none => rw [List.filterMap_cons_none hworld, Option.toList_none, List.foldl_nil]
      | some w =>
          rw [List.filterMap_cons_some hworld, Option.toList_some, List.foldl_cons, List.foldl_cons,
            List.foldl_nil]

/-- A caller that was rejected gets an error. -/
theorem CacheStep.ne_rejected (h : CacheStep serializer argumentLimit time s e t) {i : Nat}
    {call : ConnectionStatus × CacheOp separator T} {r : ServiceResult T V} :
    e ≠ .rejected i call (.ok r) := by
  cases h <;> simp

/-- A cell that a step does not write is what time leaves of it. -/
theorem CacheStep.frame (h : CacheStep serializer argumentLimit time s e t)
    {key : CacheKey separator}
    (hkey : ∀ i call, e.carriedOut? = some (i, call) → key ∉ call.2.writes) :
    (t.now = s.now ∧ t.cells key = s.cells key) ∨
      t.cells key = Cell.alive t.now (s.cells key) := by
  cases h with
  | performed hready hresult | landed hready =>
      refine .inl ⟨rfl, CacheOp.does_frame ?_ _ _ _⟩
      rw [CacheOp.writes_encoded hready.encoded]
      exact hkey _ _ rfl
  | passed htime => exact .inr rfl
  | _ => exact .inl ⟨rfl, rfl⟩

/-- **A cell left alone** only expires. -/
theorem cells_of_runs (h : Runs (CacheStep serializer argumentLimit time) s es t)
    {key : CacheKey separator}
    (hkey : ∀ i call, (i, call) ∈ carriedOut es → key ∉ call.2.writes) {cell : Option Cell}
    (hs : s.cells key = Cell.alive s.now cell) : t.cells key = Cell.alive t.now cell := by
  refine (h.invariant (I := fun u => u.cells key = Cell.alive u.now cell) hs ?_)
  intro u e u' he hu hstep
  have hleft : ∀ i call, e.carriedOut? = some (i, call) → key ∉ call.2.writes := fun i call hcall =>
    hkey i call (List.mem_filterMap.mpr ⟨e, he, hcall⟩)
  have hframe := hstep.frame hleft
  rcases hframe with ⟨hnow, hsame⟩ | halive
  · rw [hsame, hu, hnow]
  · rw [halive, hu, Cell.alive_alive hstep.now.2]

end Steps

/-! ## Histories -/

/-- The clock after what the callers have seen. -/
def clockAfter {O ρ W : Type} (time : W → Nat) (start : Nat) (out : List (Event O ρ W)) : Nat :=
  (out.filterMap Event.world?).foldl (fun _ w => time w) start

/-- A history of the cache with its points. -/
structure CacheHistory {separator : Char} {T V W : Type} (serializer : Serializer T)
    (argumentLimit : Nat) (time : W → Nat) (s t : CacheState separator)
    (out : List (Event (ConnectionStatus × CacheOp separator T) (CacheResult T V) W))
    (marks : List (Mark (ConnectionStatus × CacheOp separator T) (CacheResult T V) W)) : Prop where
  seen : marks.filterMap Mark.event? = out
  placed : Placed marks
  runs : Runs (CacheStep serializer argumentLimit time) s (marks.filterMap Mark.effect?) t

namespace CacheHistory

variable {separator : Char} {T V W : Type} {serializer : Serializer T}
  {argumentLimit : Nat} {time : W → Nat}
  {s t : CacheState separator}
  {out a b c : List (Event (ConnectionStatus × CacheOp separator T) (CacheResult T V) W)}
  {marks before after :
    List (Mark (ConnectionStatus × CacheOp separator T) (CacheResult T V) W)}
  {e : Effect (ConnectionStatus × CacheOp separator T) (CacheResult T V) W}
  {m : Mark (ConnectionStatus × CacheOp separator T) (CacheResult T V) W}

/-- Every run of the service has a history of the cache. -/
theorem exists_of_run {σ : Type} {service : CacheService T} {server : RedisServer V σ W}
    (hsep : service.keyBuilder.separator = [separator]) (hdoc : server.Documented)
    (hworld : server.KeepsOut service.keyBuilder.FlushRegion) {s₀ : σ}
    {actions : List (Action (CacheCall separator T) W Reason)}
    {s : State ServiceCommand (ServiceReply V) Thrown (ServiceResult T V) σ}
    (hrun : (machine (cacheSystem separator service server) s₀).run actions = some (s, out)) :
    ∃ marks, CacheHistory service.serializer service.argumentLimit server.time
      (server.cacheState separator service s₀) (server.cacheState separator service s.server)
      out marks := by
  obtain ⟨marks, hseen, hplaced, hruns⟩ := linearizable (fun call =>
    (run_single (service.under call.1) call.2.isSingle_toCall).atMostOne) hrun
  exact ⟨marks, hseen, hplaced,
    hruns.map fun _ _ _ hatomic => cacheStep_of_atomic hdoc hsep hworld hatomic⟩

/-- The clock at an entry. -/
theorem cut (h : CacheHistory serializer argumentLimit time s t out (before ++ after)) :
    ∃ u, CacheHistory serializer argumentLimit time s u (before.filterMap Mark.event?) before ∧
      Runs (CacheStep serializer argumentLimit time) u (after.filterMap Mark.effect?) t ∧
      u.now = clockAfter time s.now (before.filterMap Mark.event?) := by
  have hruns := h.runs
  rw [List.filterMap_append] at hruns
  obtain ⟨u, hbefore, hafter⟩ := hruns.of_append
  refine ⟨u, ⟨rfl, h.placed.of_append, hbefore⟩, hafter, ?_⟩
  rw [(now_of_runs hbefore).1, worlds_seen]
  rfl

/-- The clock at the end. -/
theorem now_eq (h : CacheHistory serializer argumentLimit time s t out marks) :
    t.now = clockAfter time s.now out := by
  rw [(now_of_runs h.runs).1, worlds_seen, h.seen]
  rfl

/-- The clock does not run back. -/
theorem clockAfter_le (h : CacheHistory serializer argumentLimit time s t (a ++ b) marks) :
    clockAfter time s.now a ≤ t.now := by
  obtain ⟨before, after, rfl, rfl, -⟩ := List.filterMap_eq_append_iff.mp h.seen
  obtain ⟨u, -, hruns, hnow⟩ := h.cut
  exact hnow ▸ (now_of_runs hruns).2

/-- What was answered at a point, between the states around it. -/
theorem at_point
    (h : CacheHistory serializer argumentLimit time s t out (before ++ .effect e :: after)) :
    ∃ u v, CacheHistory serializer argumentLimit time s u (before.filterMap Mark.event?) before ∧
      CacheStep serializer argumentLimit time u e v ∧
      Runs (CacheStep serializer argumentLimit time) v (after.filterMap Mark.effect?) t := by
  obtain ⟨u, hbefore, hruns, -⟩ := h.cut
  obtain ⟨v, hstep, hafter⟩ := Runs.of_cons hruns
  exact ⟨u, v, hbefore, hstep, hafter⟩

/-- **Where a call that succeeded took effect**: at one answer, when the clock
was between its readings at the invocation and at the return. -/
theorem exists_point (h : CacheHistory serializer argumentLimit time s t out marks) {i : Nat}
    {call : ConnectionStatus × CacheOp separator T} {r : ServiceResult T V}
    (hout : out = a ++ .invoked i call :: b ++ .returned i (.ok r) :: c) :
    ∃ before after u v b₁ b₂, marks = before ++ .effect (.answered i call (.ok r)) :: after ∧
      CacheHistory serializer argumentLimit time s u (a ++ .invoked i call :: b₁) before ∧
      CacheStep serializer argumentLimit time u (.answered i call (.ok r)) v ∧
      Runs (CacheStep serializer argumentLimit time) v (after.filterMap Mark.effect?) t ∧
      after.filterMap Mark.event? = b₂ ++ .returned i (.ok r) :: c ∧ b = b₁ ++ b₂ ∧
      clockAfter time s.now a ≤ u.now ∧
      u.now ≤ clockAfter time s.now (a ++ .invoked i call :: b) := by
  have hseen := h.seen
  rw [hout, List.append_assoc, List.cons_append] at hseen
  obtain ⟨first, m, rest, rfl, rfl, hm, hrest⟩ := exists_cut hseen
  obtain rfl := invoked_of_event hm
  obtain ⟨between, m, last, rfl, rfl, hm, rfl⟩ := exists_cut hrest
  obtain rfl := returned_of_event hm
  have hplaced := h.placed
  rw [← List.cons_append, ← List.append_assoc] at hplaced
  obtain ⟨e, x, y, rfl, he⟩ := hplaced.exists_point
  have hcut : first ++ .invoked i call :: (x ++ .effect e :: y ++ .returned i (.ok r) :: last) =
      (first ++ .invoked i call :: x) ++ .effect e :: (y ++ .returned i (.ok r) :: last) := by simp
  rw [hcut] at h
  obtain ⟨u, v, hbefore, hstep, hafter⟩ := h.at_point
  obtain rfl : e = .answered i call (.ok r) := he.resolve_right hstep.ne_rejected
  obtain ⟨w, hwhole, -, hw⟩ : ∃ w, CacheHistory serializer argumentLimit time s w
      ((first ++ .invoked i call :: (x ++ .effect (.answered i call (.ok r)) :: y)).filterMap
        Mark.event?) _ ∧ _ ∧ _ := by
    have hreturned : first ++ .invoked i call :: x ++ .effect (.answered i call (.ok r)) ::
        (y ++ .returned i (.ok r) :: last) = (first ++ .invoked i call ::
          (x ++ .effect (.answered i call (.ok r)) :: y)) ++ .returned i (.ok r) :: last := by simp
    exact (hreturned ▸ h).cut
  have hevents : (first ++ .invoked i call :: (x ++ .effect (.answered i call (.ok r)) ::
      y)).filterMap Mark.event? = (first ++ .invoked i call :: x).filterMap Mark.event? ++
        y.filterMap Mark.event? := by simp [List.filterMap_cons]
  refine ⟨_, _, u, v, x.filterMap Mark.event?, y.filterMap Mark.event?, hcut, ?_, hstep, hafter,
    ?_, ?_, ?_, ?_⟩
  · simpa using hbefore
  · simp
  · simp [List.filterMap_cons]
  · rw [List.filterMap_append] at hbefore
    exact hbefore.clockAfter_le
  · rw [hbefore.now_eq]
    rw [hevents] at hwhole
    have hle := hwhole.clockAfter_le
    rw [hw] at hle
    simpa using hle

/-- A call that succeeded was answered. The value that it returned is the
one of the answer: a call is settled once, and a rejection settles it
with an error. -/
theorem answered_of_returned (h : CacheHistory serializer argumentLimit time s t out marks)
    {i : Nat}
    {call : ConnectionStatus × CacheOp separator T} {r : ServiceResult T V}
    (hinvoked : .invoked i call ∈ out) (hreturned : .returned i (.ok r) ∈ out) :
    .effect (.answered i call (.ok r)) ∈ marks := by
  rw [← h.seen, mem_returned] at hreturned
  obtain ⟨first, rest, rfl⟩ := List.append_of_mem hreturned
  obtain ⟨call', hsettled⟩ := h.placed.allowed
  have hanswered : .effect (.answered i call' (.ok r)) ∈ first := by
    refine hsettled.resolve_right fun hrejected => ?_
    obtain ⟨x, y, rfl⟩ := List.append_of_mem hrejected
    rw [List.append_assoc, List.cons_append] at h
    obtain ⟨u, v, -, hstep, -⟩ := h.at_point
    exact hstep.ne_rejected rfl
  rw [← h.seen, mem_invoked] at hinvoked
  have hinvoked' := h.placed.invoked_of_acts (List.mem_append_left _ hanswered) rfl
  obtain rfl := h.placed.invoked_inj hinvoked hinvoked'
  exact List.mem_append_left _ hanswered

/-- A call that succeeded acts no more. Its command was answered before it
returned, and is neither answered again nor landed. -/
theorem untouched_of_returned
    (h : CacheHistory serializer argumentLimit time s t out (before ++ after)) {i : Nat}
    {r : ServiceResult T V} (hreturned : .returned i (.ok r) ∈ before.filterMap Mark.event?) :
    Untouched i after := by
  intro e he hacts
  obtain ⟨u, hbefore, -, -⟩ := h.cut
  have hinvoked : ∃ call, .invoked i call ∈ before.filterMap Mark.event? := by
    obtain ⟨first, rest, rfl⟩ := List.append_of_mem (mem_returned.mp hreturned)
    obtain ⟨call, hmem | hmem⟩ := hbefore.placed.allowed <;>
      exact ⟨call, mem_invoked.mpr
        (hbefore.placed.invoked_of_acts (List.mem_append_left _ hmem) rfl)⟩
  obtain ⟨call, hcall⟩ := hinvoked
  obtain ⟨x, y, rfl⟩ := List.append_of_mem (hbefore.answered_of_returned hcall hreturned)
  have hplaced := h.placed
  rw [List.append_assoc, List.cons_append] at hplaced
  exact hplaced.answered_alone.2 e (List.mem_append_right _ he) hacts

/-- A call that is invoked later has not acted. -/
theorem untouched_of_invoked
    (h : CacheHistory serializer argumentLimit time s t out (before ++ after)) {i : Nat}
    {call : ConnectionStatus × CacheOp separator T}
    (hinvoked : .invoked i call ∈ after.filterMap Mark.event?) : Untouched i before := by
  obtain ⟨first, rest, rfl⟩ := List.append_of_mem (mem_invoked.mp hinvoked)
  have hplaced := h.placed
  rw [← List.append_assoc] at hplaced
  exact fun e he => hplaced.untouched_before e (List.mem_append_left _ he)

/-- A call that acts was seen to be invoked. -/
theorem seen_of_carriedOut (h : CacheHistory serializer argumentLimit time s t out marks) {i : Nat}
    {call : ConnectionStatus × CacheOp separator T}
    (hcarried : (i, call) ∈ carriedOut (marks.filterMap Mark.effect?)) :
    .invoked i call ∈ out := by
  obtain ⟨e, he, hcall⟩ := mem_carriedOut.mp hcarried
  rw [← h.seen, mem_invoked]
  exact h.placed.invoked_of_acts he (Effect.acts_of_carriedOut hcall)

end CacheHistory

/-! ## Set, then get -/

section SetGet

variable {separator : Char} {T V W : Type} {serializer : Serializer T}
  {argumentLimit : Nat} {time : W → Nat}
  {s t : CacheState separator} {connection : ConnectionStatus} {key : CacheKey separator}

/-- `SET` that is not refused. The three ways it goes: kept back by `NX`,
written without a time to live, or written with one that ends later. -/
theorem assign_ok {now : Nat} {text : Text} {ttlSeconds : Option Ttl} {nx : Bool}
    {cell : Option Cell} {reply : Option Text}
    (h : (Cell.assign now text (ttlSeconds.map fun ttl => (ttl.seconds : Int)) nx cell).2 =
      .ok reply) :
    (reply.isSome = false ∧ nx = true ∧ cell.isSome = true ∧
      (Cell.assign now text (ttlSeconds.map fun ttl => (ttl.seconds : Int)) nx cell).1 = cell) ∨
    (reply.isSome = true ∧ (nx = true → cell = none) ∧
      (Cell.assign now text (ttlSeconds.map fun ttl => (ttl.seconds : Int)) nx cell).1 =
        some ⟨.string text, ttlSeconds.map fun ttl => now + 1000 * ttl.seconds⟩) := by
  unfold Cell.assign at h ⊢
  cases hdeadline : Cell.deadline now (ttlSeconds.map fun ttl => (ttl.seconds : Int)) with
  | error reason =>
      rw [hdeadline] at h
      cases h
  | ok expiresAt =>
      rw [hdeadline] at h
      have hexpires : expiresAt = ttlSeconds.map fun ttl => now + 1000 * ttl.seconds := by
        cases ttlSeconds with
        | none => exact (Except.ok.inj hdeadline).symm
        | some ttl =>
            simp only [Option.map_some, Cell.deadline] at hdeadline
            split at hdeadline
            · obtain rfl := Except.ok.inj hdeadline
              simp only [Option.map_some, Option.some.injEq]
              omega
            · cases hdeadline
      by_cases hkept : (nx && cell.isSome) = true
      · simp only [if_pos hkept] at h ⊢
        obtain rfl := Except.ok.inj h
        obtain ⟨hnx, hsome⟩ := Bool.and_eq_true_iff.mp hkept
        exact .inl ⟨rfl, hnx, hsome, trivial⟩
      · simp only [if_neg hkept] at h ⊢
        obtain rfl := Except.ok.inj h
        refine .inr ⟨rfl, fun hnx => ?_, by rw [hexpires]⟩
        subst hnx
        simpa using hkept

/-- A `set` that succeeds. It has overwritten the cell with the encoded value,
under the deadline that the time to live gives from then on. -/
theorem CacheStep.set_ok {i : Nat} {value : T} {ttlSeconds : Option Ttl} {r : ServiceResult T V}
    (h : CacheStep serializer argumentLimit time s
      (.answered i (connection, .set key value ttlSeconds) (.ok r))
      t) :
    ∃ text, encodeText serializer value = .ok text ∧ t.now = s.now ∧
      t.cells key =
        some ⟨.string text, ttlSeconds.map fun ttl => s.now + 1000 * ttl.seconds⟩ := by
  cases h with
  | performed hready hresult =>
      obtain ⟨text, htext, rfl⟩ := map_eq_ok hready.encoded
      obtain ⟨reply, hreply, hread⟩ := hresult
      refine ⟨text, htext, rfl, ?_⟩
      cases reply with
      | error reason => cases hread
      | ok reply =>
          rcases assign_ok hreply.symm with ⟨-, hnx, -⟩ | ⟨-, -, hcell⟩
          · cases hnx
          · simpa [CacheOp.does, CacheOp.atCell] using hcell
  | idle hidle => cases hidle

/-- A `get` that succeeds. It has read the cell as it was then, and has decoded
the text. -/
theorem CacheStep.get_ok {i : Nat} {r : ServiceResult T V}
    (h : CacheStep serializer argumentLimit time s (.answered i (connection, .get key) (.ok r)) t) :
    ∃ raw value, Cell.text (s.cells key) = .ok raw ∧
      CacheOp.decodeText serializer.deserialize raw = .ok value ∧ r = .value value := by
  cases h with
  | performed hready hresult =>
      obtain rfl := Except.ok.inj hready.encoded
      obtain ⟨reply, hreply, hread⟩ := hresult
      cases reply with
      | error reason => cases hread
      | ok raw =>
          obtain ⟨value, hvalue, rfl⟩ := map_eq_ok hread.symm
          exact ⟨raw, value, hreply.symm, hvalue, rfl⟩
  | idle hidle => cases hidle

/-- What a cell that expires reads as, while it is there and afterwards. -/
theorem text_alive (now : Nat) (text : Text) (expiresAt : Option Nat) :
    Cell.text (Cell.alive now (some ⟨.string text, expiresAt⟩)) =
      .ok (if expiresAt.all (now ≤ ·) then some text else none) := by
  by_cases h : expiresAt.all (now ≤ ·) = true
  · simp [Cell.alive, Option.filter, h, Cell.text]
  · simp [Cell.alive, Option.filter, h, Cell.text]

/-- A `get` that takes effect after a `set`, with nobody writing the cell in
between, reads the value until the TTL has run out, and `null` from then on. -/
theorem get_of_set {i j : Nat} {writer reader : ConnectionStatus} {value : T}
    {ttlSeconds : Option Ttl} {u v w : CacheState separator} {r : ServiceResult T V}
    {es : List (Effect (ConnectionStatus × CacheOp separator T) (CacheResult T V) W)}
    (hset : CacheStep (V := V) serializer argumentLimit time s
      (.answered i (writer, .set key value ttlSeconds) (.ok .done)) u)
    (hruns : Runs (CacheStep serializer argumentLimit time) u es v)
    (halone : ∀ k call, (k, call) ∈ carriedOut es → key ∉ call.2.writes)
    (hget : CacheStep serializer argumentLimit time v (.answered j (reader, .get key) (.ok r)) w)
    (hround : ∀ text, encodeText serializer value = .ok text →
      serializer.deserialize text = .ok value) :
    r = if (ttlSeconds.map fun ttl => s.now + 1000 * ttl.seconds).all (v.now ≤ ·) then
      .value (some value) else .value none := by
  obtain ⟨text, htext, hnow, hcell⟩ := hset.set_ok
  obtain ⟨raw, read, hraw, hread, rfl⟩ := hget.get_ok
  have halive : u.cells key = Cell.alive u.now (some ⟨.string text,
      ttlSeconds.map fun ttl => s.now + 1000 * ttl.seconds⟩) := by
    rw [hcell, hnow]
    cases ttlSeconds <;> simp [Cell.alive, Option.filter]
  rw [cells_of_runs hruns halone halive, text_alive] at hraw
  obtain rfl := Except.ok.inj hraw
  split at hread
  · rename_i hthere
    rw [if_pos hthere]
    simp only [CacheOp.decodeText, hround text htext, Except.map] at hread
    exact congrArg ServiceResult.value (Except.ok.inj hread).symm
  · rename_i hgone
    rw [if_neg hgone]
    exact congrArg ServiceResult.value (Except.ok.inj hread).symm

end SetGet

/-- **A value that was set is read back.** In every run of concurrent
operations, let a `set` succeed and a `get` of the same cell that succeeds be
invoked after it has returned, and let every other operation that writes the
cell have succeeded before the `set` was invoked or be invoked after the `get`
has returned. Then `get` returns the value or `null`: the value as long as,
when `get` returns, the TTL has not run out since `set` was invoked; `null`
when, as `get` is invoked, it has run out since `set` returned. -/
theorem get_after_set {T V σ W : Type} (separator : Char) (service : CacheService T)
    (hsep : service.keyBuilder.separator = [separator]) (server : RedisServer V σ W)
    (hdoc : server.Documented) (hworld : server.KeepsOut service.keyBuilder.FlushRegion) (s₀ : σ)
    {actions : List (Action (CacheCall separator T) W Reason)}
    {s : State ServiceCommand (ServiceReply V) Thrown (ServiceResult T V) σ}
    {out before during between reading after :
      List (Event (CacheCall separator T) (CacheResult T V) W)}
    {i j : Nat} {writer reader : ConnectionStatus} {key : CacheKey separator} {value : T}
    {ttlSeconds : Option Ttl} {r : ServiceResult T V}
    (hrun : (machine (cacheSystem separator service server) s₀).run actions = some (s, out))
    (hout : out = before ++ .invoked i (writer, .set key value ttlSeconds) :: during ++
      .returned i (.ok .done) :: between ++ .invoked j (reader, .get key) :: reading ++
      .returned j (.ok r) :: after)
    (hround : ∀ text, encodeText service.serializer value = .ok text →
      service.serializer.deserialize text = .ok value)
    (hothers : ∀ k call, .invoked k call ∈ out → k ≠ i → key ∈ call.2.writes →
      (∃ r', .returned k (.ok r') ∈ before) ∨ .invoked k call ∈ after) :
    let clock := clockAfter server.time (server.now s₀)
    let written := before ++ .invoked i (writer, .set key value ttlSeconds) :: during
    let asked := written ++ .returned i (.ok .done) :: between
    (r = .value (some value) ∨ r = .value none ∧ ttlSeconds.isSome = true) ∧
      (∀ ttl, ttlSeconds = some ttl →
        clock (asked ++ .invoked j (reader, .get key) :: reading) ≤
          clock before + 1000 * ttl.seconds → r = .value (some value)) ∧
      ∀ ttl, ttlSeconds = some ttl → clock written + 1000 * ttl.seconds < clock asked →
        r = .value none := by
  intro clock written asked
  obtain ⟨marks, h⟩ := CacheHistory.exists_of_run hsep hdoc hworld hrun
  obtain ⟨first, last, v, w, r₁, r₂, rfl, hfirst, hget, -, hlast, -, hlow, hhigh⟩ :=
    h.exists_point hout
  obtain ⟨x, y, p, u, w₁, w₂, rfl, hx, hset, hruns, -, -, hlow', hhigh'⟩ :=
    hfirst.exists_point (List.append_assoc _ (.returned i (.ok .done) :: between) _)
  -- Nobody writes the cell between the points of the two calls.
  have halone : ∀ k call, (k, call) ∈ carriedOut (y.filterMap Mark.effect?) →
      key ∉ call.2.writes := by
    intro k call hcarried hkey
    obtain ⟨e, hmem, hcall⟩ := mem_carriedOut.mp hcarried
    have hacts := Effect.call_of_acts (Effect.acts_of_carriedOut hcall)
    have hne : k ≠ i := fun hki => hfirst.placed.answered_alone.2 e hmem (hki ▸ hacts)
    have hseen : .invoked k call ∈ out :=
      h.seen_of_carriedOut (mem_carriedOut.mpr ⟨e, by simp [hmem], hcall⟩)
    rcases hothers k call hseen hne hkey with ⟨r', hreturned⟩ | hinvoked
    · have hbefore : .returned k (.ok r') ∈ x.filterMap Mark.event? := by
        rw [hx.seen]
        exact List.mem_append_left _ hreturned
      exact hfirst.untouched_of_returned hbefore e (List.mem_cons_of_mem _ hmem) hacts
    · have hlater : .invoked k call ∈
          (.effect (.answered j (reader, .get key) (.ok r)) :: last).filterMap Mark.event? := by
        rw [List.filterMap_cons_none rfl, hlast]
        simp [hinvoked]
      exact h.untouched_of_invoked hlater e (by simp [hmem]) hacts
  have hr := get_of_set hset hruns halone hget hround
  refine ⟨?_, ?_, ?_⟩
  · split at hr
    · exact .inl hr
    · rename_i hgone
      refine .inr ⟨hr, ?_⟩
      cases ttlSeconds with
      | none => exact absurd rfl hgone
      | some ttl => rfl
  · rintro ttl rfl hle
    have hthere : v.now ≤ p.now + 1000 * ttl.seconds :=
      hhigh.trans (hle.trans (Nat.add_le_add_right hlow' _))
    rw [hr, if_pos (by simpa using hthere)]
  · rintro ttl rfl hlt
    have hgone : p.now + 1000 * ttl.seconds < v.now :=
      Nat.lt_of_le_of_lt (Nat.add_le_add_right hhigh' _) (Nat.lt_of_lt_of_le hlt hlow)
    rw [hr, if_neg (by simpa using hgone)]

/-- A write with a TTL of one second, read 900 milliseconds later. The value is
still there. -/
theorem get_after_set_soon :
    ∃ s r, numberRun [.invoke (online (.set visits 7 (some oneSecond))), .serve 0, .settle 0,
        .world 900, .invoke (online (.get visits)), .serve 1, .settle 1] =
      some (s, [.invoked 0 (online (.set visits 7 (some oneSecond))), .returned 0 (.ok .done),
        .world 900, .invoked 1 (online (.get visits)), .returned 1 (.ok r)]) ∧
      r = .value (some 7) := by
  have hrun : ∃ s, numberRun [.invoke (online (.set visits 7 (some oneSecond))), .serve 0,
        .settle 0, .world 900, .invoke (online (.get visits)), .serve 1, .settle 1] =
      some (s, [] ++ .invoked 0 (online (.set visits 7 (some oneSecond))) :: [] ++
        .returned 0 (.ok .done) :: [.world 900] ++ .invoked 1 (online (.get visits)) :: [] ++
        .returned 1 (.ok (.value (some 7))) :: []) := ⟨_, rfl⟩
  obtain ⟨s, hrun⟩ := hrun
  refine ⟨s, .value (some 7), hrun, ?_⟩
  have hround : ∀ text, encodeText numberService.serializer 7 = .ok text →
      numberService.serializer.deserialize text = .ok 7 := by
    intro text h
    obtain rfl := Except.ok.inj h
    rfl
  refine (get_after_set ':' numberService rfl cellServer cellServer_documented
    (cellServer_keepsOut _) emptyStore hrun rfl hround ?_).2.1 oneSecond rfl (by decide)
  intro k call hmem hne hkey
  simp only [List.nil_append, List.cons_append, List.mem_cons, Event.invoked.injEq, reduceCtorEq,
    List.not_mem_nil, false_or, or_false] at hmem
  rcases hmem with ⟨rfl, rfl⟩ | ⟨rfl, rfl⟩
  · exact absurd rfl hne
  · cases hkey

end NestCache
