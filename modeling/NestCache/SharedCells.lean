import NestCache.CacheHistories

/-!
# Cells that many callers write

What holds between concurrent callers that all write the same cells in one way:
locks and batches.

* `locks_exclude` — a lock taken with `setNx` has no second holder before its
  TTL has run out;
* `mget_untorn` — a batch is read whole or not at all.
-/

namespace NestCache

open KeyedBatch Linearization

/-! ## Locks -/

section Locks

variable {separator : Char} {T V W : Type} {serializer : Serializer T}
  {argumentLimit : Nat} {time : W → Nat}
  {s t : CacheState separator} {connection : ConnectionStatus} {key : CacheKey separator}
  {e : Effect (ConnectionStatus × CacheOp separator T) (CacheResult T V) W}
  {es : List (Effect (ConnectionStatus × CacheOp separator T) (CacheResult T V) W)}

/-- The cell holds this as long as it has not expired. -/
def HoldsUntil (key : CacheKey separator) (c : Cell) (s : CacheState separator) : Prop :=
  Cell.alive s.now (some c) = some c → s.cells key = some c

/-- `SET NX` leaves a cell that is there alone. -/
theorem assign_held (now : Nat) (text : Text) (ex : Option Int) (c : Cell) :
    (Cell.assign now text ex true (some c)).1 = some c := by
  unfold Cell.assign
  cases Cell.deadline now ex <;> rfl

/-- A cell that only `setNx` writes is held until it expires. The cases are the
steps of the cache: a `setNx` on a held cell changes nothing, other operations
write other cells, and time passes. -/
theorem CacheStep.holdsUntil (h : CacheStep serializer argumentLimit time s e t)
    (honly : ∀ i call, e.carriedOut? = some (i, call) → key ∈ call.2.writes →
      ∃ value ttlSeconds, call.2 = .setNx key value ttlSeconds)
    {c : Cell} (hs : HoldsUntil key c s) : HoldsUntil key c t := by
  intro halive
  cases h with
  | @performed i connection op raw _ hready hresult | @landed i connection op raw hready =>
      have hcell := hs halive
      by_cases hkey : key ∈ op.writes
      · obtain ⟨value, ttlSeconds, hop⟩ := honly i _ rfl hkey
        obtain rfl : op = .setNx key value ttlSeconds := hop
        obtain ⟨text, -, rfl⟩ := map_eq_ok hready.encoded
        simp [CacheOp.does, CacheOp.atCell, hcell, assign_held]
      · rw [← CacheOp.writes_encoded hready.encoded] at hkey
        exact (CacheOp.does_frame hkey _ _ _).trans hcell
  | @passed w htime =>
      have hearlier : Cell.alive s.now (some c) = some c := by
        cases hc : Cell.alive s.now (some c) with
        | none =>
            rw [← Cell.alive_alive htime, hc] at halive
            cases halive
        | some c' =>
            obtain ⟨hc', -⟩ := Option.filter_eq_some_iff.mp hc
            exact hc'.symm
      simp only [hs hearlier]
      exact halive
  | _ => exact hs halive

/-- A `setNx` that takes the lock. The cell was empty before, and holds the
value under the deadline of its time to live afterwards. -/
theorem CacheStep.setNx_taken {i : Nat} {value : T} {ttlSeconds : Option Ttl}
    (h : CacheStep (V := V) serializer argumentLimit time s
      (.answered i (connection, .setNx key value ttlSeconds) (.ok (.flag true))) t) :
    s.cells key = none ∧ ∃ text, t.cells key =
      some ⟨.string text, ttlSeconds.map fun ttl => s.now + 1000 * ttl.seconds⟩ := by
  cases h with
  | performed hready hresult =>
      obtain ⟨text, -, rfl⟩ := map_eq_ok hready.encoded
      obtain ⟨reply, hreply, hread⟩ := hresult
      cases reply with
      | error reason => cases hread
      | ok reply =>
          obtain hflag : true = reply.isSome := by
            simpa [awaitReply, Except.bind] using hread
          rcases assign_ok hreply.symm with ⟨hnone, -⟩ | ⟨-, habsent, hcell⟩
          · rw [hnone] at hflag
            cases hflag
          · refine ⟨habsent rfl, text, ?_⟩
            simpa [CacheOp.does, CacheOp.atCell] using hcell

/-- A lock is taken again only when its TTL has run out. Between the two the
cell was held until its deadline, so the clock is beyond it. -/
theorem expired_of_taken {i j : Nat} {holder other : ConnectionStatus} {value value' : T}
    {ttlSeconds ttlSeconds' : Option Ttl} {u v w : CacheState separator}
    (hfirst : CacheStep (V := V) serializer argumentLimit time s
      (.answered i (holder, .setNx key value ttlSeconds) (.ok (.flag true))) u)
    (hruns : Runs (CacheStep serializer argumentLimit time) u es v)
    (honly : ∀ k call, (k, call) ∈ carriedOut es → key ∈ call.2.writes →
      ∃ value ttlSeconds, call.2 = .setNx key value ttlSeconds)
    (hsecond : CacheStep (V := V) serializer argumentLimit time v
      (.answered j (other, .setNx key value' ttlSeconds') (.ok (.flag true))) w) :
    ∃ ttl, ttlSeconds = some ttl ∧ s.now + 1000 * ttl.seconds < v.now := by
  obtain ⟨-, text, hcell⟩ := hfirst.setNx_taken
  obtain ⟨habsent, -⟩ := hsecond.setNx_taken
  have hholds := hruns.invariant (I := HoldsUntil key _) (fun _ => hcell)
    fun u e u' he hu hstep => hstep.holdsUntil
      (fun k call hcall => honly k call (List.mem_filterMap.mpr ⟨e, he, hcall⟩)) hu
  have hexpired : ¬ Cell.alive v.now (some ⟨.string text,
      ttlSeconds.map fun ttl => s.now + 1000 * ttl.seconds⟩) = some ⟨.string text,
        ttlSeconds.map fun ttl => s.now + 1000 * ttl.seconds⟩ := by
    intro halive
    rw [hholds halive] at habsent
    cases habsent
  cases ttlSeconds with
  | none => exact absurd rfl hexpired
  | some ttl =>
      refine ⟨ttl, rfl, ?_⟩
      simpa [Cell.alive, Option.filter] using hexpired

/-- Of two calls that both took a lock, the point of the later one is after the
TTL of the earlier one. -/
theorem CacheHistory.apart {i j : Nat} {holder other : ConnectionStatus} {value value' : T}
    {ttlSeconds ttlSeconds' : Option Ttl} {u v w : CacheState separator}
    {seen seen' : List (Event (ConnectionStatus × CacheOp separator T) (CacheResult T V) W)}
    {x z : List (Mark (ConnectionStatus × CacheOp separator T) (CacheResult T V) W)}
    (hx : CacheHistory serializer argumentLimit time s u seen x)
    (hz : CacheHistory serializer argumentLimit time s v seen'
      (x ++ .effect (.answered i (holder, .setNx key value ttlSeconds) (.ok (.flag true))) :: z))
    (honly : ∀ k call, (k, call) ∈ carriedOut (z.filterMap Mark.effect?) →
      key ∈ call.2.writes → ∃ value ttlSeconds, call.2 = .setNx key value ttlSeconds)
    (hsecond : CacheStep (V := V) serializer argumentLimit time v
      (.answered j (other, .setNx key value' ttlSeconds') (.ok (.flag true))) w) :
    ∃ ttl, ttlSeconds = some ttl ∧ u.now + 1000 * ttl.seconds < v.now := by
  obtain ⟨p, q, hp, hfirst, hruns⟩ := hz.at_point
  have hnow : p.now = u.now := by rw [hp.now_eq, hx.now_eq, hx.seen]
  rw [← hnow]
  exact expired_of_taken hfirst hruns honly hsecond

end Locks

/-- **Locks exclude each other.** In every run of concurrent operations where
a cell is written by `setNx` alone, two calls that both took it are apart:
when the later one returns, the TTL of the earlier one has run out since that
was invoked. -/
theorem locks_exclude {T V σ W : Type} (separator : Char) (service : CacheService T)
    (hsep : service.keyBuilder.separator = [separator]) (server : RedisServer V σ W)
    (hdoc : server.Documented) (hworld : server.KeepsOut service.keyBuilder.FlushRegion) (s₀ : σ)
    {actions : List (Action (CacheCall separator T) W Reason)}
    {s : State ServiceCommand (ServiceReply V) Thrown (ServiceResult T V) σ}
    {out before during after before' during' after' :
      List (Event (CacheCall separator T) (CacheResult T V) W)}
    {i j : Nat} {holder other : ConnectionStatus} {key : CacheKey separator} {value value' : T}
    {ttlSeconds ttlSeconds' : Option Ttl}
    (hrun : (machine (cacheSystem separator service server) s₀).run actions = some (s, out))
    (hi : out = before ++ .invoked i (holder, .setNx key value ttlSeconds) :: during ++
      .returned i (.ok (.flag true)) :: after)
    (hj : out = before' ++ .invoked j (other, .setNx key value' ttlSeconds') :: during' ++
      .returned j (.ok (.flag true)) :: after')
    (hne : i ≠ j)
    (honly : ∀ k call, .invoked k call ∈ out → key ∈ call.2.writes →
      ∃ value ttlSeconds, call.2 = .setNx key value ttlSeconds) :
    let clock := clockAfter server.time (server.now s₀)
    (∃ ttl, ttlSeconds = some ttl ∧ clock before + 1000 * ttl.seconds <
        clock (before' ++ .invoked j (other, .setNx key value' ttlSeconds') :: during')) ∨
      ∃ ttl, ttlSeconds' = some ttl ∧ clock before' + 1000 * ttl.seconds <
        clock (before ++ .invoked i (holder, .setNx key value ttlSeconds) :: during) := by
  intro clock
  obtain ⟨marks, h⟩ := CacheHistory.exists_of_run hsep hdoc hworld hrun
  obtain ⟨x, y, p, q, b, -, rfl, hx, htaken, -, -, -, hlow, hhigh⟩ := h.exists_point hi
  obtain ⟨x', y', p', q', b', -, hcut, hx', htaken', -, -, -, hlow', hhigh'⟩ := h.exists_point hj
  have hsetNx : ∀ k call e, .effect e ∈ x ++ .effect (.answered i (holder,
      .setNx key value ttlSeconds) (.ok (.flag true))) :: y → e.carriedOut? = some (k, call) →
      key ∈ call.2.writes → ∃ value ttlSeconds, call.2 = .setNx key value ttlSeconds :=
    fun k call e he hcall => honly k call (h.seen_of_carriedOut (mem_carriedOut.mpr ⟨e, he, hcall⟩))
  rcases two_cuts hcut (by simp [hne]) with ⟨z, rfl, rfl⟩ | ⟨z, rfl, rfl⟩
  · obtain ⟨ttl, httl, hlt⟩ := hx.apart hx' (fun k call hcarried => by
      obtain ⟨e, he, hcall⟩ := mem_carriedOut.mp hcarried
      exact hsetNx k call e (by simp [he]) hcall) htaken'
    exact .inl ⟨ttl, httl, Nat.lt_of_le_of_lt (Nat.add_le_add_right hlow _)
      (Nat.lt_of_lt_of_le hlt hhigh')⟩
  · obtain ⟨ttl, httl, hlt⟩ := hx'.apart hx (fun k call hcarried => by
      obtain ⟨e, he, hcall⟩ := mem_carriedOut.mp hcarried
      exact hsetNx k call e (by simp [he]) hcall) htaken
    exact .inr ⟨ttl, httl, Nat.lt_of_le_of_lt (Nat.add_le_add_right hlow' _)
      (Nat.lt_of_lt_of_le hlt hhigh)⟩

/-- A lock of one second, taken again a millisecond after that. The clock is
past the deadline by then. -/
theorem locks_exclude_again :
    ∃ s, numberRun [.invoke (online (.setNx visits 1 (some oneSecond))), .serve 0, .settle 0,
        .world 1001, .invoke (online (.setNx visits 2 none)), .serve 1, .settle 1] =
      some (s, [.invoked 0 (online (.setNx visits 1 (some oneSecond))),
        .returned 0 (.ok (.flag true)), .world 1001,
        .invoked 1 (online (.setNx visits 2 none)), .returned 1 (.ok (.flag true))]) ∧
      ((∃ ttl, some oneSecond = some ttl ∧ 0 + 1000 * ttl.seconds < 1001) ∨
        ∃ ttl, (none : Option Ttl) = some ttl ∧ 1001 + 1000 * ttl.seconds < 0) := by
  have hrun : ∃ s, numberRun [.invoke (online (.setNx visits 1 (some oneSecond))), .serve 0,
        .settle 0, .world 1001, .invoke (online (.setNx visits 2 none)), .serve 1, .settle 1] =
      some (s, [] ++ .invoked 0 (online (.setNx visits 1 (some oneSecond))) :: [] ++
        .returned 0 (.ok (.flag true)) :: [.world 1001,
          .invoked 1 (online (.setNx visits 2 none)), .returned 1 (.ok (.flag true))]) := ⟨_, rfl⟩
  obtain ⟨s, hrun⟩ := hrun
  have hlater : [] ++ .invoked 0 (online (.setNx visits 1 (some oneSecond))) :: [] ++
      .returned 0 (.ok (.flag true)) :: [.world 1001,
        .invoked 1 (online (.setNx visits 2 none)), .returned 1 (.ok (.flag true))] =
      ([.invoked 0 (online (.setNx visits 1 (some oneSecond))), .returned 0 (.ok (.flag true)),
        .world 1001] ++ .invoked 1 (online (.setNx visits 2 none)) :: [] ++
        .returned 1 (.ok (.flag true)) :: [] :
        List (Event (CacheCall ':' Nat) (CacheResult Nat Unit) Nat)) := rfl
  refine ⟨s, hrun, locks_exclude ':' numberService rfl cellServer cellServer_documented
    (cellServer_keepsOut _) emptyStore hrun rfl hlater (by decide) ?_⟩
  intro k call hmem _
  simp only [List.nil_append, List.cons_append, List.mem_cons, Event.invoked.injEq, reduceCtorEq,
    List.not_mem_nil, false_or, or_false] at hmem
  rcases hmem with ⟨rfl, rfl⟩ | ⟨rfl, rfl⟩
  · exact ⟨1, some oneSecond, rfl⟩
  · exact ⟨2, none, rfl⟩

/-! ## Batches -/

/-- The cells of a batch all hold one text, without a deadline, or are
absent. -/
def Uniform {separator : Char} (keyPrefix : KeyField separator) (ids : List (KeyField separator))
    (s : CacheState separator) : Prop :=
  ∃ text : Option Text, ∀ id ∈ ids,
    s.cells ⟨keyPrefix, id⟩ = text.map fun text => ⟨.string text, none⟩

/-- The operation gives one value to all of a batch. -/
def CacheOp.SetsAll {separator : Char} {T : Type} (keyPrefix : KeyField separator)
    (ids : List (KeyField separator)) (op : CacheOp separator T) : Prop :=
  ∃ entries value, op = .mset keyPrefix entries ∧ (∀ id ∈ ids, id ∈ entries.map Prod.fst) ∧
    ∀ entry ∈ entries, entry.1 ∈ ids → entry.2 = value

section Batches

variable {separator : Char} {T V W : Type} {serializer : Serializer T}
  {argumentLimit : Nat} {time : W → Nat}
  {s t : CacheState separator} {connection : ConnectionStatus} {keyPrefix : KeyField separator}
  {ids : List (KeyField separator)}
  {e : Effect (ConnectionStatus × CacheOp separator T) (CacheResult T V) W}

/-- One value for all is one text for all. The encoder is a function of the
value, whichever entry it stands in. -/
theorem texts_of_value {entries : List (KeyField separator × T)}
    {texts : List (KeyField separator × Text)} {value : T}
    (h : entries.mapM (encodeEntry serializer) = .ok texts)
    (hvalue : ∀ entry ∈ entries, entry.1 ∈ ids → entry.2 = value) :
    ∀ entry ∈ texts, entry.1 ∈ ids → encodeText serializer value = .ok entry.2 := by
  have hall := mapM_eq_ok_iff.mp h
  clear h
  induction hall with
  | nil => exact fun _ hmem => absurd hmem List.not_mem_nil
  | @cons entry written entries texts hentry _ ih =>
      intro other hmem hid
      rcases List.mem_cons.mp hmem with rfl | hmem
      · obtain ⟨text, htext, rfl⟩ := map_eq_ok hentry
        rwa [← hvalue entry List.mem_cons_self hid]
      · exact ih (fun entry hin => hvalue entry (List.mem_cons_of_mem _ hin)) other hmem hid

/-- A batch that is written as a whole is uniform. Each id of the batch
is among the entries, and the last entry of its key has the same text as
the others. -/
theorem Uniform.of_mset {entries : List (KeyField separator × T)}
    {texts : List (KeyField separator × Text)} {value : T}
    (h : entries.mapM (encodeEntry serializer) = .ok texts)
    (hids : ∀ id ∈ ids, id ∈ entries.map Prod.fst)
    (hvalue : ∀ entry ∈ entries, entry.1 ∈ ids → entry.2 = value)
    (deserialize : Text → Except Thrown T) :
    Uniform keyPrefix ids
      ⟨s.now, ((CacheOp.mset keyPrefix texts).does (V := V) deserialize s.now s.cells).1⟩ := by
  refine ⟨(encodeText serializer value).toOption, fun id hid => ?_⟩
  have hmem := hids id hid
  rw [← CacheOp.keys_encoded h] at hmem
  obtain ⟨entry, hentry, rfl⟩ := List.mem_map.mp hmem
  have htext := texts_of_value h hvalue
  rw [htext entry hentry hid]
  have hkey : CacheKey.mk keyPrefix entry.1 ∈ (texts.map fun entry =>
      (CacheKey.mk keyPrefix entry.1, (⟨.string entry.2, none⟩ : Cell))).map Prod.fst := by
    rw [List.map_map]
    exact List.mem_map_of_mem hentry
  refine writeAll_of_const hkey ?_ s.cells
  intro written hwritten hsame
  obtain ⟨other, hother, rfl⟩ := List.mem_map.mp hwritten
  have hid' : other.1 = entry.1 := (CacheKey.mk.inj hsame).2
  have hencoded := (htext other hother (hid' ▸ hid)).symm.trans (htext entry hentry hid)
  rw [Except.ok.inj hencoded]

/-- Whether a batch is uniform is a matter of its own cells. -/
theorem Uniform.of_cells (hs : Uniform keyPrefix ids s)
    (h : ∀ id ∈ ids, t.cells ⟨keyPrefix, id⟩ = s.cells ⟨keyPrefix, id⟩) :
    Uniform keyPrefix ids t := by
  obtain ⟨text, htext⟩ := hs
  exact ⟨text, fun id hid => (h id hid).trans (htext id hid)⟩

/-- **One step** keeps a batch uniform that is only written as a whole. An
operation that gives one value to all leaves it uniform, and any other leaves
its cells alone. -/
theorem CacheStep.uniform (h : CacheStep serializer argumentLimit time s e t)
    (honly : ∀ i call, e.carriedOut? = some (i, call) →
      (∃ id ∈ ids, CacheKey.mk keyPrefix id ∈ call.2.writes) → call.2.SetsAll keyPrefix ids)
    (hs : Uniform keyPrefix ids s) : Uniform keyPrefix ids t := by
  cases h with
  | @performed i connection op raw _ hready hresult | @landed i connection op raw hready =>
      by_cases hkey : ∃ id ∈ ids, CacheKey.mk keyPrefix id ∈ op.writes
      · obtain ⟨entries, value, hop, hids, hvalue⟩ := honly i _ rfl hkey
        obtain rfl : op = .mset keyPrefix entries := hop
        obtain ⟨texts, htexts, rfl⟩ := map_eq_ok hready.encoded
        exact Uniform.of_mset htexts hids hvalue _
      · refine hs.of_cells fun id hid => CacheOp.does_frame ?_ _ _ _
        rw [CacheOp.writes_encoded hready.encoded]
        exact fun hmem => hkey ⟨id, hid, hmem⟩
  | @passed w htime =>
      obtain ⟨text, htext⟩ := hs
      refine ⟨text, fun id hid => ?_⟩
      simp only [htext id hid]
      exact Cell.alive_of_stays (by cases text <;> rfl) _
  | _ => exact hs

/-- Reads that are all the same have the same results. The induction is on the
list; the first failure ends both. -/
theorem mapM_uniform {ε α β : Type} {f : α → Except ε (Option β)} {l : List α}
    {bs : List (Option β)} {x : Except ε (Option β)} (h : l.mapM f = .ok bs)
    (hsame : ∀ a ∈ l, f a = x) : ∃ b, bs = List.replicate l.length b := by
  cases x with
  | error e =>
      cases l with
      | nil => exact ⟨none, (Except.ok.inj h).symm⟩
      | cons a l =>
          rw [List.mapM_cons, hsame a List.mem_cons_self] at h
          cases h
  | ok b =>
      have hall : List.Forall₂ (fun a b => f a = .ok b) l (List.replicate l.length b) := by
        rw [List.forall₂_iff_get]
        refine ⟨by simp, fun i hi hi' => ?_⟩
        simpa using hsame _ (List.getElem_mem hi)
      exact ⟨b, Except.ok.inj (h.symm.trans (mapM_eq_ok_iff.mpr hall))⟩

/-- A successful `mget` of a uniform batch. So no part of one write is seen
beside a part of another. -/
theorem CacheStep.mget_ok {i : Nat} {values : List (Option T)} (hs : Uniform keyPrefix ids s)
    (h : CacheStep (V := V) serializer argumentLimit time s
      (.answered i (connection, .mget keyPrefix ids) (.ok (.values values))) t) :
    ∃ value, values = List.replicate ids.length value := by
  cases h with
  | performed hready hresult =>
      obtain rfl := Except.ok.inj hready.encoded
      obtain ⟨text, htext⟩ := hs
      have hread : ∀ id ∈ ids, CacheOp.decodeText serializer.deserialize
          (Cell.textOrAbsent (s.cells ⟨keyPrefix, id⟩)) =
            CacheOp.decodeText serializer.deserialize text := by
        intro id hid
        rw [htext id hid]
        cases text <;> rfl
      obtain ⟨read, hvalues, hsame⟩ := map_eq_ok (id hresult : _ = _).symm
      obtain rfl := ServiceResult.values.inj hsame
      exact mapM_uniform hvalues hread
  | idle hidle =>
      obtain rfl : ids = [] := by simpa [CacheOp.isIdle] using hidle
      exact ⟨none, rfl⟩

end Batches

/-- **Batches are not torn.** In every run of concurrent operations where
some ids of a prefix are written only by `mset` calls that give all of them
one value, every `mget` of these ids that succeeds returns one value for
all of them. -/
theorem mget_untorn {T V σ W : Type} (separator : Char) (service : CacheService T)
    (hsep : service.keyBuilder.separator = [separator]) (server : RedisServer V σ W)
    (hdoc : server.Documented) (hworld : server.KeepsOut service.keyBuilder.FlushRegion) (s₀ : σ)
    {actions : List (Action (CacheCall separator T) W Reason)}
    {s : State ServiceCommand (ServiceReply V) Thrown (ServiceResult T V) σ}
    {out : List (Event (CacheCall separator T) (CacheResult T V) W)}
    {keyPrefix : KeyField separator} {ids : List (KeyField separator)} {i : Nat}
    {connection : ConnectionStatus} {values : List (Option T)}
    (hrun : (machine (cacheSystem separator service server) s₀).run actions = some (s, out))
    (hstart : Uniform keyPrefix ids (server.cacheState separator service s₀))
    (honly : ∀ k call, .invoked k call ∈ out →
      (∃ id ∈ ids, CacheKey.mk keyPrefix id ∈ call.2.writes) → call.2.SetsAll keyPrefix ids)
    (hinvoked : .invoked i (connection, .mget keyPrefix ids) ∈ out)
    (hreturned : .returned i (.ok (.values values)) ∈ out) :
    ∃ value, values = List.replicate ids.length value := by
  obtain ⟨marks, h⟩ := CacheHistory.exists_of_run hsep hdoc hworld hrun
  obtain ⟨before, after, hcut⟩ := List.append_of_mem (h.answered_of_returned hinvoked hreturned)
  rw [hcut] at h
  obtain ⟨u, v, hbefore, hstep, -⟩ := h.at_point
  refine hstep.mget_ok (hbefore.runs.invariant hstart fun _ e _ he hu hstep' =>
    hstep'.uniform (fun k call hcall => honly k call (h.seen_of_carriedOut
      (mem_carriedOut.mpr ⟨e, List.mem_append_left _ (mem_effect.mp he), hcall⟩))) hu)

/-- A batch that is read while it is written again. It is read behind the
write, and both values are the same. -/
theorem mget_untorn_during :
    ∃ s values, numberRun
      [.invoke (online (.mset visits.keyPrefix [(visits.id, 5), (visits.keyPrefix, 5)])),
        .invoke (online (.mget visits.keyPrefix [visits.id, visits.keyPrefix])), .serve 0, .serve 1,
        .settle 1, .settle 0] =
      some (s, [.invoked 0 (online (.mset visits.keyPrefix [(visits.id, 5), (visits.keyPrefix, 5)])),
        .invoked 1 (online (.mget visits.keyPrefix [visits.id, visits.keyPrefix])),
        .returned 1 (.ok (.values values)), .returned 0 (.ok .done)]) ∧
      ∃ value, values = List.replicate 2 value := by
  obtain ⟨s, hrun⟩ : ∃ s, numberRun
      [.invoke (online (.mset visits.keyPrefix [(visits.id, 5), (visits.keyPrefix, 5)])),
        .invoke (online (.mget visits.keyPrefix [visits.id, visits.keyPrefix])), .serve 0, .serve 1,
        .settle 1, .settle 0] =
      some (s, [.invoked 0 (online (.mset visits.keyPrefix [(visits.id, 5), (visits.keyPrefix, 5)])),
        .invoked 1 (online (.mget visits.keyPrefix [visits.id, visits.keyPrefix])),
        .returned 1 (.ok (.values [some 5, some 5])), .returned 0 (.ok .done)]) := ⟨_, rfl⟩
  have hstart : Uniform visits.keyPrefix [visits.id, visits.keyPrefix]
      (cellServer.cacheState ':' numberService emptyStore) := ⟨none, fun _ _ => rfl⟩
  refine ⟨s, _, hrun, mget_untorn ':' numberService rfl cellServer cellServer_documented
    (cellServer_keepsOut _) emptyStore hrun hstart (fun k call hmem hkey => ?_)
    (.tail _ List.mem_cons_self) (.tail _ (.tail _ List.mem_cons_self))⟩
  simp only [List.mem_cons, Event.invoked.injEq, reduceCtorEq, List.not_mem_nil,
    or_false] at hmem
  rcases hmem with ⟨rfl, rfl⟩ | ⟨rfl, rfl⟩
  · exact ⟨_, 5, rfl, by simp, by simp⟩
  · obtain ⟨id, -, hwrites⟩ := hkey
    cases hwrites

end NestCache
