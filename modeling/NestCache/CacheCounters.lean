import Mathlib.Algebra.Order.BigOperators.Group.List
import NestCache.CacheHistories

/-!
# Counters under concurrency

What holds of a cell that is written by `incr` and `decr` alone, whatever the
order in which the calls of many callers are served, given up or land.

* `CacheStep.counts` — one step counts by what it carries out, or leaves the
  total;
* `counter_total` — a counter loses no step, and every reply is the total at
  its point;
* `counter_distinct` — counting up hands out no number twice, and larger ones
  later.
-/

namespace NestCache

open KeyedBatch Linearization

/-! ## Steps -/

/-- The step by which an operation counts a cell. -/
def CacheOp.countBy {separator : Char} {T : Type} (key : CacheKey separator) :
    CacheOp separator T → Option Int
  | incr other step => if other = key then some step.value else none
  | decr other step => if other = key then some (-step.value) else none
  | _ => none

/-- The cell counts this, and does not expire. -/
structure Counts {separator : Char} (key : CacheKey separator) (n : Int)
    (s : CacheState separator) : Prop where
  total : Cell.integer (s.cells key) = .ok n
  stays : (s.cells key).bind Cell.expiresAt = none

/-- What a counting step returns: an exact total if it is a safe integer. -/
def RepliesTotal {T V : Type} (n : Int) (r : ServiceResult T V) : Prop :=
  ∃ m, r = .number m ∧ (IsSafe n → m = n)

section Counters

variable {separator : Char} {T V W : Type} {serializer : Serializer T}
  {argumentLimit : Nat} {time : W → Nat}
  {s t : CacheState separator} {connection : ConnectionStatus} {key : CacheKey separator}
  {e : Effect (ConnectionStatus × CacheOp separator T) (CacheResult T V) W}
  {es : List (Effect (ConnectionStatus × CacheOp separator T) (CacheResult T V) W)}

/-- Encoding keeps the step. -/
theorem CacheOp.countBy_encoded {op : CacheOp separator T} {raw : CacheOp separator Text}
    (h : op.encoded serializer = .ok raw) : raw.countBy key = op.countBy key := by
  cases op with
  | set other value ttlSeconds | setNx other value ttlSeconds | hset other field value =>
      obtain ⟨text, -, rfl⟩ := map_eq_ok h
      rfl
  | mset keyPrefix entries =>
      obtain ⟨texts, -, rfl⟩ := map_eq_ok h
      rfl
  | _ =>
      obtain rfl := Except.ok.inj h
      rfl

/-- What counting does to the cell. Counting up and down, by one or by a step,
is one definition with the signed step as its argument. -/
theorem CacheOp.does_countBy {op : CacheOp separator Text} {step : Int}
    (h : op.countBy key = some step) (deserialize : Text → Except Thrown T) (now : Nat)
    (cells : Cells separator) :
    (op.does (V := V) deserialize now cells) = atCell key (fun cell =>
      (Cell.incremented step cell, reads (RepliesInteger (Cell.increment step cell))
        fun n => .ok (.number n))) cells := by
  cases op with
  | incr other by_ | decr other by_ =>
      simp only [countBy] at h
      split at h
      · rename_i hkey
        subst hkey
        obtain rfl := Option.some.inj h
        rfl
      · cases h
  | _ => cases h

/-- A cell that counts is counted on, or stays when the total would
overflow. -/
theorem incremented_counts {n step : Int} {cell : Option Cell} (htotal : Cell.integer cell = .ok n)
    (hstays : cell.bind Cell.expiresAt = none) :
    (Cell.increment step cell = .ok (n + step) ∧
      Cell.integer (Cell.incremented step cell) = .ok (n + step) ∧
      (Cell.incremented step cell).bind Cell.expiresAt = none) ∨
    ((∃ reason, Cell.increment step cell = .error reason) ∧
      Cell.incremented step cell = cell) := by
  have hincrement : Cell.increment step cell =
      if IsInt64 (n + step) then .ok (n + step) else .error WOULD_OVERFLOW := by
    simp only [Cell.increment, htotal]
    rfl
  unfold Cell.incremented
  rw [hincrement]
  by_cases hint : IsInt64 (n + step)
  · rw [if_pos hint]
    refine .inl ⟨rfl, ?_, ?_⟩
    · simp [Cell.hold, Cell.integer, parseInteger_decimal hint]
    · simpa [Cell.hold] using hstays
  · rw [if_neg hint]
    exact .inr ⟨⟨_, rfl⟩, rfl⟩

/-- Whether a cell counts is a matter of that cell alone: other cells and the
clock may change. -/
theorem Counts.of_cell {n : Int} (hs : Counts key n s) (h : t.cells key = s.cells key) :
    Counts key n t := by
  refine ⟨?_, ?_⟩
  · rw [h]
    exact hs.total
  · rw [h]
    exact hs.stays

/-- **A counting operation** moves the total by its step and tells the new
total, or it fails, as at the bounds of a 64-bit integer, and leaves the total
as it was. -/
theorem Counts.update {n step : Int} (hs : Counts key n s) {op : CacheOp separator Text}
    (hcount : op.countBy key = some step) (deserialize : Text → Except Thrown T) :
    (Counts key (n + step) ⟨s.now, (op.does (V := V) deserialize s.now s.cells).1⟩ ∧
      ∀ r, (op.does (V := V) deserialize s.now s.cells).2 (.ok r) → RepliesTotal (n + step) r) ∨
    (Counts key n ⟨s.now, (op.does (V := V) deserialize s.now s.cells).1⟩ ∧
      ∀ r, ¬ (op.does (V := V) deserialize s.now s.cells).2 (.ok r)) := by
  rw [CacheOp.does_countBy hcount]
  rcases incremented_counts hs.total hs.stays with ⟨hok, htotal, hstays⟩ | ⟨⟨reason, herror⟩, hsame⟩
  · refine .inl ⟨⟨by simpa [CacheOp.atCell] using htotal, by simpa [CacheOp.atCell] using hstays⟩, ?_⟩
    rintro r ⟨reply, hreply, hread⟩
    simp only [hok, RepliesInteger] at hreply
    obtain ⟨m, rfl, hm⟩ := hreply
    exact ⟨m, (Except.ok.inj hread), hm⟩
  · refine .inr ⟨?_, ?_⟩
    · have hcells : (CacheOp.atCell (V := V) (T := T) key (fun cell => (Cell.incremented step cell,
          CacheOp.reads (RepliesInteger (Cell.increment step cell)) fun n => .ok (.number n)))
          s.cells).1 = s.cells := by
        simp [CacheOp.atCell, hsame]
      rw [hcells]
      exact hs
    · rintro r ⟨reply, hreply, hread⟩
      simp only [herror, RepliesInteger] at hreply
      subst hreply
      cases hread

/-- An operation that counts writes the cell it counts in, and never runs
without a command. -/
theorem CacheOp.writes_of_countBy {op : CacheOp separator T} {step : Int}
    (h : op.countBy key = some step) : key ∈ op.writes ∧ op.isIdle = false := by
  cases op with
  | incr other by_ | decr other by_ =>
      simp only [countBy] at h
      split at h
      · rename_i hkey
        exact ⟨hkey ▸ List.mem_singleton_self other, rfl⟩
      · cases h
  | _ => cases h

/-- An effect that does not succeed in counting leaves the total. -/
def Idles (key : CacheKey separator)
    (e : Effect (ConnectionStatus × CacheOp separator T) (CacheResult T V) W) : Prop :=
  ∀ i call r, e = .answered i call (.ok r) → call.2.countBy key = none

/-- An effect that counts by this, and what it returns. -/
def CountsBy (key : CacheKey separator) (n step : Int)
    (e : Effect (ConnectionStatus × CacheOp separator T) (CacheResult T V) W) : Prop :=
  ∃ i call, e.carriedOut? = some (i, call) ∧ call.2.countBy key = some step ∧
    ∀ r, e = .answered i call (.ok r) → RepliesTotal (n + step) r

/-- **One step** counts by what it carries out, or leaves the total. The cases
are the steps of the cache; in those that carry out an operation, the operation
either does not write the cell or counts in it. -/
theorem CacheStep.counts (h : CacheStep serializer argumentLimit time s e t)
    (honly : ∀ i call, e.carriedOut? = some (i, call) → key ∈ call.2.writes →
      (call.2.countBy key).isSome) {n : Int} (hs : Counts key n s) :
    (Counts key n t ∧ Idles key e) ∨
      ∃ step, Counts key (n + step) t ∧ CountsBy key n step e := by
  cases h with
  | @performed i connection op raw result hready hresult =>
      by_cases hkey : key ∈ op.writes
      · obtain ⟨step, hstep⟩ := Option.isSome_iff_exists.mp (honly i _ rfl hkey)
        have hraw := (CacheOp.countBy_encoded hready.encoded).trans hstep
        rcases hs.update (V := V) hraw serializer.deserialize with ⟨hcounts, hreplies⟩ | ⟨hsame, hnone⟩
        · refine .inr ⟨step, hcounts, i, _, rfl, hstep, fun r hr => hreplies r ?_⟩
          obtain ⟨-, -, rfl⟩ := Effect.answered.inj hr
          exact hresult
        · refine .inl ⟨hsame, fun i' call r hr => absurd hresult ?_⟩
          obtain ⟨-, -, rfl⟩ := Effect.answered.inj hr
          exact hnone r
      · have hframe := CacheOp.does_frame (V := V)
          (CacheOp.writes_encoded hready.encoded ▸ hkey) serializer.deserialize s.now s.cells
        refine .inl ⟨hs.of_cell hframe, fun i' call r hr => ?_⟩
        obtain ⟨-, rfl, -⟩ := Effect.answered.inj hr
        cases hcount : op.countBy key with
        | none => rfl
        | some step => exact absurd (CacheOp.writes_of_countBy hcount).1 hkey
  | @landed i connection op raw hready =>
      by_cases hkey : key ∈ op.writes
      · obtain ⟨step, hstep⟩ := Option.isSome_iff_exists.mp (honly i _ rfl hkey)
        have hraw := (CacheOp.countBy_encoded hready.encoded).trans hstep
        rcases hs.update (V := V) hraw serializer.deserialize with ⟨hcounts, -⟩ | ⟨hsame, -⟩
        · exact .inr ⟨step, hcounts, i, _, rfl, hstep, fun r hr => by cases hr⟩
        · exact .inl ⟨hsame, fun i call r hr => by cases hr⟩
      · have hframe := CacheOp.does_frame (V := V)
          (CacheOp.writes_encoded hready.encoded ▸ hkey) serializer.deserialize s.now s.cells
        exact .inl ⟨hs.of_cell hframe, fun i call r hr => by cases hr⟩
  | @idle i connection op hidle =>
      refine .inl ⟨hs, fun i' call r hr => ?_⟩
      obtain ⟨-, rfl, -⟩ := Effect.answered.inj hr
      cases hcount : op.countBy key with
      | none => rfl
      | some step =>
          rw [(CacheOp.writes_of_countBy hcount).2] at hidle
          cases hidle
  | @passed w htime =>
      exact .inl ⟨hs.of_cell (Cell.alive_of_stays hs.stays (time w)), fun i call r hr => by cases hr⟩
  | refused | invalid =>
      refine .inl ⟨hs, fun i' call r hr => ?_⟩
      obtain ⟨-, -, hresult⟩ := Effect.answered.inj hr
      cases hresult
  | givenUp | lost => exact .inl ⟨hs, fun i call r hr => by cases hr⟩

/-- The steps that were carried out, in their order, explain the total and what
was returned. -/
structure Tally (key : CacheKey separator) (n : Int)
    (es : List (Effect (ConnectionStatus × CacheOp separator T) (CacheResult T V) W))
    (done : List (Nat × Int)) (s : CacheState separator) : Prop where
  total : Counts key (n + (done.map Prod.snd).sum) s
  once : (done.map Prod.fst).Sublist ((carriedOut es).map Prod.fst)
  asked : ∀ i step, (i, step) ∈ done →
    ∃ call, (i, call) ∈ carriedOut es ∧ call.2.countBy key = some step
  told : ∀ i call step r, .answered i call (.ok r) ∈ es → call.2.countBy key = some step →
    ∃ earlier later, done = earlier ++ (i, step) :: later ∧
      RepliesTotal (n + (earlier.map Prod.snd).sum + step) r

/-- One more effect adds at most one call to those carried out. -/
theorem carriedOut_snoc {O ρ W : Type} (es : List (Effect O ρ W)) (e : Effect O ρ W) :
    carriedOut (es ++ [e]) = carriedOut es ++ e.carriedOut?.toList := by
  rw [carriedOut, List.filterMap_append]
  cases h : e.carriedOut? <;> simp [carriedOut, h]

/-- An effect that leaves the total. Nothing is added to the list of steps, and
nothing was told of a total. -/
theorem Tally.idle {n : Int} {done : List (Nat × Int)} (h : Tally key n es done s)
    (hcounts : Counts key (n + (done.map Prod.snd).sum) t) (hidle : Idles key e) :
    Tally key n (es ++ [e]) done t where
  total := hcounts
  once := by
    rw [carriedOut_snoc, List.map_append]
    exact h.once.trans (List.sublist_append_left _ _)
  asked i step hmem := by
    obtain ⟨call, hcall, hstep⟩ := h.asked i step hmem
    exact ⟨call, by simp [carriedOut_snoc, hcall], hstep⟩
  told i call step r hmem hstep := by
    rcases List.mem_append.mp hmem with hin | hin
    · exact h.told i call step r hin hstep
    · rw [hidle i call r (List.mem_singleton.mp hin).symm] at hstep
      cases hstep

/-- An effect that counts. The call and its step are added at the end of the
list, and the total that it was told includes itself. -/
theorem Tally.count {n step : Int} {done : List (Nat × Int)} (h : Tally key n es done s)
    (hcounts : Counts key (n + (done.map Prod.snd).sum + step) t)
    (hcount : CountsBy key (n + (done.map Prod.snd).sum) step e) :
    ∃ i, Tally key n (es ++ [e]) (done ++ [(i, step)]) t := by
  obtain ⟨i, call, hcarried, hstep, hreplies⟩ := hcount
  have hcarriedOut : carriedOut (es ++ [e]) = carriedOut es ++ [(i, call)] := by
    rw [carriedOut_snoc, hcarried]
    rfl
  refine ⟨i, ?_, ?_, ?_, ?_⟩
  · simpa [Int.add_assoc] using hcounts
  · rw [hcarriedOut, List.map_append, List.map_append]
    exact h.once.append (List.Sublist.refl _)
  · intro j step' hmem
    rcases List.mem_append.mp hmem with hin | hin
    · obtain ⟨call', hcall', hstep'⟩ := h.asked j step' hin
      exact ⟨call', by simp [hcarriedOut, hcall'], hstep'⟩
    · obtain ⟨rfl, rfl⟩ := Prod.mk.inj (List.mem_singleton.mp hin)
      exact ⟨call, by simp [hcarriedOut], hstep⟩
  · intro j call' step' r hmem hstep'
    rcases List.mem_append.mp hmem with hin | hin
    · obtain ⟨earlier, later, rfl, hr⟩ := h.told j call' step' r hin hstep'
      exact ⟨earlier, later ++ [(i, step)], by simp, hr⟩
    · obtain rfl := List.mem_singleton.mp hin
      obtain ⟨rfl, rfl⟩ := Prod.mk.inj (Option.some.inj hcarried)
      obtain rfl := Option.some.inj (hstep'.symm.trans hstep)
      exact ⟨done, [], rfl, hreplies r rfl⟩

/-- **A whole run** has a tally. The induction is on the run, with the two
lemmas above for its last effect. -/
theorem exists_tally {n : Int} (h : Runs (CacheStep serializer argumentLimit time) s es t)
    (honly : ∀ i call, (i, call) ∈ carriedOut es → key ∈ call.2.writes →
      (call.2.countBy key).isSome) (hs : Counts key n s) : ∃ done, Tally key n es done t := by
  have hnil : Tally key n ([] : List (Effect (ConnectionStatus × CacheOp separator T)
      (CacheResult T V) W)) [] s := by
    exact ⟨by simpa using hs, List.Sublist.refl _, fun _ _ hmem => absurd hmem List.not_mem_nil,
      fun _ _ _ _ hmem => absurd hmem List.not_mem_nil⟩
  refine h.snoc_induction (P := fun es u => ∃ done, Tally key n es done u) ⟨[], hnil⟩ ?_
  rintro before e after u v rfl ⟨done, htally⟩ hstep
  have honly' : ∀ i call, e.carriedOut? = some (i, call) → key ∈ call.2.writes →
      (call.2.countBy key).isSome :=
    fun i call hcall => honly i call (List.mem_filterMap.mpr ⟨e, by simp, hcall⟩)
  rcases hstep.counts honly' htally.total with ⟨hcounts, hidle⟩ | ⟨step, hcounts, hcount⟩
  · exact ⟨done, htally.idle hcounts hidle⟩
  · obtain ⟨i, hnext⟩ := htally.count hcounts hcount
    exact ⟨_, hnext⟩

end Counters

/-- **Counters lose no step.** In every run of concurrent operations where a
cell is written by `incr` and `decr` alone, there is a list of the steps that
were carried out, each of a call that was invoked and none twice, such that
the cell ends with their total; every call that succeeded is in the list, and
was told the total up to and with its own step. -/
theorem counter_total {T V σ W : Type} (separator : Char) (service : CacheService T)
    (hsep : service.keyBuilder.separator = [separator]) (server : RedisServer V σ W)
    (hdoc : server.Documented) (hworld : server.KeepsOut service.keyBuilder.FlushRegion) (s₀ : σ)
    {actions : List (Action (CacheCall separator T) W Reason)}
    {s : State ServiceCommand (ServiceReply V) Thrown (ServiceResult T V) σ}
    {out : List (Event (CacheCall separator T) (CacheResult T V) W)} {key : CacheKey separator}
    {n : Int}
    (hrun : (machine (cacheSystem separator service server) s₀).run actions = some (s, out))
    (hstart : Counts key n (server.cacheState separator service s₀))
    (honly : ∀ i call, .invoked i call ∈ out → key ∈ call.2.writes →
      (call.2.countBy key).isSome) :
    ∃ done : List (Nat × Int), (done.map Prod.fst).Nodup ∧
      (∀ i step, (i, step) ∈ done →
        ∃ call, .invoked i call ∈ out ∧ call.2.countBy key = some step) ∧
      (∀ i call step r, .invoked i call ∈ out → call.2.countBy key = some step →
        .returned i (.ok r) ∈ out → ∃ earlier later, done = earlier ++ (i, step) :: later ∧
          RepliesTotal (n + (earlier.map Prod.snd).sum + step) r) ∧
      Counts key (n + (done.map Prod.snd).sum) (server.cacheState separator service s.server) := by
  obtain ⟨marks, h⟩ := CacheHistory.exists_of_run hsep hdoc hworld hrun
  obtain ⟨done, htally⟩ := exists_tally h.runs
    (fun i call hcarried => honly i call (h.seen_of_carriedOut hcarried)) hstart
  refine ⟨done, htally.once.nodup h.placed.carriedOut_nodup, fun i step hmem => ?_, ?_,
    htally.total⟩
  · obtain ⟨call, hcarried, hstep⟩ := htally.asked i step hmem
    exact ⟨call, h.seen_of_carriedOut hcarried, hstep⟩
  · intro i call step r hinvoked hstep hreturned
    exact htally.told i call step r
      (mem_effect.mpr (h.answered_of_returned hinvoked hreturned)) hstep

/-- Two increments; the first is given up, and lands last. The second is told
1, and both are counted in the end. -/
theorem counter_total_late :
    ∃ s, numberRun [.invoke (online (.incr visits oneStep)),
        .invoke (online (.incr visits oneStep)), .abandon 0 (.error "Command timed out".toList),
        .settle 0, .serve 1, .settle 1, .land 0] =
      some (s, [.invoked 0 (online (.incr visits oneStep)),
        .invoked 1 (online (.incr visits oneStep)),
        .returned 0 (.error (.raw (.error "Command timed out".toList))),
        .returned 1 (.ok (.number 1))]) ∧
      ∃ done : List (Nat × Int), (done.map Prod.fst).Nodup ∧
        (∃ earlier later, done = earlier ++ (1, 1) :: later) ∧
        Counts visits (0 + (done.map Prod.snd).sum)
          (cellServer.cacheState ':' numberService s.server) := by
  obtain ⟨s, hrun⟩ : ∃ s, numberRun [.invoke (online (.incr visits oneStep)),
        .invoke (online (.incr visits oneStep)), .abandon 0 (.error "Command timed out".toList),
        .settle 0, .serve 1, .settle 1, .land 0] =
      some (s, [.invoked 0 (online (.incr visits oneStep)),
        .invoked 1 (online (.incr visits oneStep)),
        .returned 0 (.error (.raw (.error "Command timed out".toList))),
        .returned 1 (.ok (.number 1))]) := ⟨_, rfl⟩
  have hstart : Counts visits 0 (cellServer.cacheState ':' numberService emptyStore) := ⟨rfl, rfl⟩
  obtain ⟨done, hnodup, -, htold, htotal⟩ := counter_total ':' numberService rfl cellServer
    cellServer_documented (cellServer_keepsOut _) emptyStore hrun hstart (fun k call hmem _ => by
      simp only [List.mem_cons, Event.invoked.injEq, reduceCtorEq, List.not_mem_nil, or_false,
        or_self] at hmem
      rcases hmem with ⟨rfl, rfl⟩ | ⟨rfl, rfl⟩ <;> rfl)
  obtain ⟨earlier, later, hdone, -⟩ :=
    htold 1 (online (.incr visits oneStep)) 1 (.number 1) (by simp) rfl (by simp)
  exact ⟨s, hrun, done, hnodup, ⟨earlier, later, hdone⟩, htotal⟩

section CountingUp

variable {separator : Char} {T V W : Type} {serializer : Serializer T}
  {argumentLimit : Nat} {time : W → Nat}
  {key : CacheKey separator} {n : Int} {s t : CacheState separator}
  {es : List (Effect (ConnectionStatus × CacheOp separator T) (CacheResult T V) W)}
  {done : List (Nat × Int)} {i j : Nat} {call call' : ConnectionStatus × CacheOp separator T}
  {step step' : Int} {r r' : ServiceResult T V}

/-- Steps that all count up have a sum that is not negative. -/
theorem steps_nonneg (hup : ∀ k step, (k, step) ∈ done → 0 < step) :
    0 ≤ (done.map Prod.snd).sum := by
  refine List.sum_nonneg fun step hmem => ?_
  obtain ⟨entry, hentry, rfl⟩ := List.mem_map.mp hmem
  exact Int.le_of_lt (hup entry.1 entry.2 hentry)

/-- Counting up, every total that was told lies between the first and
the last. -/
theorem Tally.told_between (h : Tally key n es done s)
    (hup : ∀ k step, (k, step) ∈ done → 0 < step) (hanswered : .answered i call (.ok r) ∈ es)
    (hstep : call.2.countBy key = some step) :
    ∃ total, RepliesTotal total r ∧ n < total ∧ total ≤ n + (done.map Prod.snd).sum := by
  obtain ⟨earlier, later, rfl, hr⟩ := h.told i call step r hanswered hstep
  have hearlier : 0 ≤ (earlier.map Prod.snd).sum := steps_nonneg fun k step' hmem => hup k step' (by simp [hmem])
  have hlater : 0 ≤ (later.map Prod.snd).sum := steps_nonneg fun k step' hmem => hup k step' (by simp [hmem])
  have hpos := hup i step (by simp)
  refine ⟨_, hr, by omega, ?_⟩
  simp only [List.map_append, List.map_cons, List.sum_append, List.sum_cons]
  omega

/-- Counting up, two calls were told different totals. One of the two calls
comes earlier in the list of steps, so the later total is larger by what lies
between them. -/
theorem Tally.told_apart (h : Tally key n es done s)
    (hup : ∀ k step, (k, step) ∈ done → 0 < step) (hne : i ≠ j)
    (hanswered : .answered i call (.ok r) ∈ es) (hstep : call.2.countBy key = some step)
    (hanswered' : .answered j call' (.ok r') ∈ es) (hstep' : call'.2.countBy key = some step') :
    ∃ total total', RepliesTotal total r ∧ RepliesTotal total' r' ∧ total ≠ total' ∧
      (n ≤ total ∧ total ≤ n + (done.map Prod.snd).sum) ∧
      n ≤ total' ∧ total' ≤ n + (done.map Prod.snd).sum := by
  obtain ⟨earlier, later, hcut, hr⟩ := h.told i call step r hanswered hstep
  obtain ⟨earlier', later', hcut', hr'⟩ := h.told j call' step' r' hanswered' hstep'
  have hnonneg : ∀ l : List (Nat × Int), (∀ entry ∈ l, entry ∈ done) → 0 ≤ (l.map Prod.snd).sum :=
    fun l hl => steps_nonneg fun k step hmem => hup k step (hl _ hmem)
  have hpos := hup i step (by simp [hcut])
  have hpos' := hup j step' (by simp [hcut'])
  refine ⟨_, _, hr, hr', ?_⟩
  rcases two_cuts (hcut.symm.trans hcut') (by simp [hne]) with ⟨z, rfl, rfl⟩ | ⟨z, rfl, rfl⟩
  · have h₁ := hnonneg earlier fun entry hmem => by simp [hcut, hmem]
    have h₂ := hnonneg z fun entry hmem => by simp [hcut, hmem]
    have h₃ := hnonneg later' fun entry hmem => by simp [hcut, hmem]
    simp only [hcut, List.map_append, List.map_cons, List.sum_append, List.sum_cons]
    omega
  · have h₁ := hnonneg earlier' fun entry hmem => by simp [hcut', hmem]
    have h₂ := hnonneg z fun entry hmem => by simp [hcut', hmem]
    have h₃ := hnonneg later fun entry hmem => by simp [hcut', hmem]
    simp only [hcut', List.map_append, List.map_cons, List.sum_append, List.sum_cons]
    omega

/-- The steps of a tally are those of calls that count. -/
theorem Tally.steps_pos (h : Tally key n es done s)
    (hup : ∀ k call, (k, call) ∈ carriedOut es → key ∈ call.2.writes →
      ∃ step, call.2.countBy key = some step ∧ 0 < step) {k : Nat} {step : Int}
    (hmem : (k, step) ∈ done) : 0 < step := by
  obtain ⟨call, hcarried, hstep⟩ := h.asked k step hmem
  obtain ⟨step', hstep', hlt⟩ := hup k call hcarried (CacheOp.writes_of_countBy hstep).1
  obtain rfl := Option.some.inj (hstep.symm.trans hstep')
  exact hlt

end CountingUp

/-- A number between two that are safe is safe. -/
theorem IsSafe.between {low high n : Int} (hlow : IsSafe low) (hhigh : IsSafe high) (h : low ≤ n)
    (h' : n ≤ high) : IsSafe n := by
  unfold IsSafe at *
  omega

/-- **Counting up hands out distinct numbers**, and larger ones later. In
every run of concurrent operations where a cell is written by calls that count
it up alone, from a safe integer to a safe integer, two calls that succeeded
were told different numbers, and a call that was invoked after another had
returned was told the larger one. -/
theorem counter_distinct {T V σ W : Type} (separator : Char) (service : CacheService T)
    (hsep : service.keyBuilder.separator = [separator]) (server : RedisServer V σ W)
    (hdoc : server.Documented) (hworld : server.KeepsOut service.keyBuilder.FlushRegion) (s₀ : σ)
    {actions : List (Action (CacheCall separator T) W Reason)}
    {s : State ServiceCommand (ServiceReply V) Thrown (ServiceResult T V) σ}
    {out : List (Event (CacheCall separator T) (CacheResult T V) W)} {key : CacheKey separator}
    {n : Int}
    (hrun : (machine (cacheSystem separator service server) s₀).run actions = some (s, out))
    (hstart : Counts key n (server.cacheState separator service s₀)) (hsafe : IsSafe n)
    (hup : ∀ k call, .invoked k call ∈ out → key ∈ call.2.writes →
      ∃ step, call.2.countBy key = some step ∧ 0 < step)
    (hend : ∀ total, Counts key total (server.cacheState separator service s.server) → IsSafe total)
    {i j : Nat} {call call' : CacheCall separator T} {r r' : ServiceResult T V} (hne : i ≠ j)
    (hi : .invoked i call ∈ out) (hkey : key ∈ call.2.writes) (hr : .returned i (.ok r) ∈ out)
    (hj : .invoked j call' ∈ out) (hkey' : key ∈ call'.2.writes)
    (hr' : .returned j (.ok r') ∈ out) :
    ∃ m m' : Int, r = .number m ∧ r' = .number m' ∧ m ≠ m' ∧
      ∀ before after, out = before ++ .invoked j call' :: after →
        .returned i (.ok r) ∈ before → m < m' := by
  obtain ⟨marks, h⟩ := CacheHistory.exists_of_run hsep hdoc hworld hrun
  have hup' : ∀ k call e, .effect e ∈ marks → e.carriedOut? = some (k, call) →
      key ∈ call.2.writes → ∃ step, call.2.countBy key = some step ∧ 0 < step :=
    fun k call e he hcall => hup k call (h.seen_of_carriedOut (mem_carriedOut.mpr ⟨e, he, hcall⟩))
  have tally : ∀ (part : List (Mark (CacheCall separator T) (CacheResult T V) W)) {u v n},
      (∀ m ∈ part, m ∈ marks) →
      Runs (CacheStep service.serializer service.argumentLimit server.time) u
        (part.filterMap Mark.effect?) v →
      Counts key n u → ∃ done, Tally key n (part.filterMap Mark.effect?) done v ∧
        ∀ k step, (k, step) ∈ done → 0 < step := by
    intro part u v n hpart hruns hcounts
    have hpos : ∀ k call, (k, call) ∈ carriedOut (part.filterMap Mark.effect?) →
        key ∈ call.2.writes → ∃ step, call.2.countBy key = some step ∧ 0 < step := by
      intro k call hcarried
      obtain ⟨e, he, hcall⟩ := mem_carriedOut.mp hcarried
      exact hup' k call e (hpart _ he) hcall
    obtain ⟨done, htally⟩ := exists_tally hruns (fun k call hcarried hkey => by
      obtain ⟨step, hstep, -⟩ := hpos k call hcarried hkey
      exact hstep ▸ rfl) hcounts
    exact ⟨done, htally, fun k step => htally.steps_pos hpos⟩
  obtain ⟨step, hstep, -⟩ := hup i call hi hkey
  obtain ⟨step', hstep', -⟩ := hup j call' hj hkey'
  have hanswered := h.answered_of_returned hi hr
  have hanswered' := h.answered_of_returned hj hr'
  obtain ⟨done, htally, hpos⟩ := tally marks (fun _ hm => hm) h.runs hstart
  have hlast := hend _ htally.total
  obtain ⟨total, total', ⟨m, rfl, hm⟩, ⟨m', rfl, hm'⟩, hapart, hbounds, hbounds'⟩ :=
    htally.told_apart hpos hne (mem_effect.mpr hanswered) hstep (mem_effect.mpr hanswered') hstep'
  obtain rfl := hm (hsafe.between hlast hbounds.1 hbounds.2)
  obtain rfl := hm' (hsafe.between hlast hbounds'.1 hbounds'.2)
  refine ⟨m, m', rfl, rfl, hapart, fun before after hcut hbefore => ?_⟩
  -- The run is cut where the later call is invoked, and each part has its tally.
  obtain ⟨x, mark, y, rfl, hx, hmark, -⟩ := exists_cut (h.seen.trans hcut)
  obtain rfl := invoked_of_event hmark
  obtain ⟨u, hfirst, hrest, -⟩ := h.cut
  have hin : .effect (.answered i call (.ok (.number m))) ∈ x := by
    refine (List.mem_append.mp hanswered).resolve_right fun hlater => ?_
    exact h.untouched_of_returned (hx ▸ hbefore) _ hlater rfl
  have hin' : .effect (.answered j call' (.ok (.number m'))) ∈ .invoked j call' :: y := by
    refine (List.mem_append.mp hanswered').resolve_left fun hearlier => ?_
    exact h.placed.untouched_before _ hearlier rfl
  obtain ⟨done₁, htally₁, hpos₁⟩ := tally x (fun _ hm => List.mem_append_left _ hm) hfirst.runs hstart
  obtain ⟨done₂, htally₂, hpos₂⟩ :=
    tally _ (fun _ hm => List.mem_append_right _ hm) hrest htally₁.total
  have hlast₂ := hend _ htally₂.total
  obtain ⟨total, ⟨k, hk, hexact⟩, hlow, hhigh⟩ :=
    htally₁.told_between hpos₁ (mem_effect.mpr hin) hstep
  obtain ⟨total', ⟨k', hk', hexact'⟩, hlow', hhigh'⟩ :=
    htally₂.told_between hpos₂ (mem_effect.mpr hin') hstep'
  obtain rfl : m = k := ServiceResult.number.inj hk
  obtain rfl : m' = k' := ServiceResult.number.inj hk'
  obtain rfl := hexact (hsafe.between hlast₂ (by omega) (by omega))
  obtain rfl := hexact' (hsafe.between hlast₂ (by omega) hhigh')
  omega

/-- Two increments, one after the other. They are told 1 and 2. -/
theorem counter_distinct_two :
    ∃ s r r', numberRun [.invoke (online (.incr visits oneStep)), .serve 0, .settle 0,
        .invoke (online (.incr visits oneStep)), .serve 1, .settle 1] =
      some (s, [.invoked 0 (online (.incr visits oneStep)), .returned 0 (.ok r),
        .invoked 1 (online (.incr visits oneStep)), .returned 1 (.ok r')]) ∧
      ∃ m m' : Int, r = .number m ∧ r' = .number m' ∧ m < m' := by
  obtain ⟨s, hrun, hend⟩ : ∃ s, numberRun [.invoke (online (.incr visits oneStep)), .serve 0,
        .settle 0, .invoke (online (.incr visits oneStep)), .serve 1, .settle 1] =
      some (s, [.invoked 0 (online (.incr visits oneStep)), .returned 0 (.ok (.number 1)),
        .invoked 1 (online (.incr visits oneStep)), .returned 1 (.ok (.number 2))]) ∧
      Cell.integer ((cellServer.cacheState ':' numberService s.server).cells visits) = .ok 2 :=
    ⟨_, rfl, rfl⟩
  refine ⟨s, _, _, hrun, ?_⟩
  have hstart : Counts visits 0 (cellServer.cacheState ':' numberService emptyStore) := ⟨rfl, rfl⟩
  have hkey : visits ∈ (online (.incr visits oneStep)).2.writes := List.mem_singleton_self visits
  obtain ⟨m, m', hr, hr', -, hlt⟩ := counter_distinct ':' numberService rfl cellServer
    cellServer_documented (cellServer_keepsOut _) emptyStore hrun hstart (by decide)
    (fun k call hmem _ => by
      simp only [List.mem_cons, Event.invoked.injEq, reduceCtorEq, List.not_mem_nil, or_false,
        false_or] at hmem
      rcases hmem with ⟨rfl, rfl⟩ | ⟨rfl, rfl⟩ <;> exact ⟨1, rfl, by decide⟩)
    (fun total htotal => by
      obtain rfl := Except.ok.inj (htotal.total.symm.trans hend)
      decide)
    (i := 0) (j := 1) (by decide) List.mem_cons_self hkey (.tail _ List.mem_cons_self)
    (.tail _ (.tail _ List.mem_cons_self)) hkey (.tail _ (.tail _ (.tail _ List.mem_cons_self)))
  exact ⟨m, m', hr, hr', hlt [.invoked 0 (online (.incr visits oneStep)),
    .returned 0 (.ok (.number 1))] _ rfl (by simp)⟩

end NestCache
