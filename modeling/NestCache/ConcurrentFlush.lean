import NestCache.NamespaceFlush
import NestCache.ScanStreams

/-!
# A flush among other clients

`flushNamespace` goes through a `ScanStream` and unlinks one chunk after the
other, while other clients write and remove keys, the stream reads ahead, and the
server may reject a command, also one that it carries out.

* `flushNamespace_eq` — the dialogue of a flush begins with the same checks;
* `FlushInv.step` — what one step preserves;
* `flushStep_store` — what one step can do to the store.
-/

namespace NestCache

variable {V : Type}

/-! ## The flush -/

/-- The checks of `flushNamespace` before it opens the stream. -/
def openFlush (nodeEnv : Option Text) (options : ResolvedOptions)
    (getClient : Except Thrown ClientKind) : Except Thrown Unit :=
  if !flushAllowed nodeEnv options then
    .error (.cache ⟨.FLUSH_DISABLED_IN_PRODUCTION, none⟩)
  else do
    let client ← getClient
    if !isScannableClient client then
      .error (.cache ⟨.UNSUPPORTED_IN_CLUSTER, some [detail "operation" "flushNamespace"]⟩)
    else return ()

/-- `MATCH` of the stream. -/
def flushPattern (options : ResolvedOptions) : Text :=
  (KeyBuilder.ofOptions options).getNamespacePrefix ++ ['*']

/-- The dialogue of a flush begins with the same checks. What is sent is a scan
of the namespace and, for each of its batches, an `UNLINK`; the concurrent
machine takes the same steps apart. -/
theorem flushNamespace_eq (nodeEnv : Option Text) (options : ResolvedOptions)
    (getClient : Except Thrown ClientKind) : flushNamespace nodeEnv options getClient =
      (Dialogue.ofExcept (openFlush nodeEnv options getClient)).bind fun _ =>
        (Dialogue.request (.scanStream (flushPattern options) FLUSH_SCAN_COUNT) id).bind
          (unlinkBatches 0) := by
  unfold flushNamespace openFlush
  by_cases hallowed : flushAllowed nodeEnv options = true
  · cases getClient with
    | error e => simp [hallowed, bind, Except.bind, Dialogue.ofExcept, Dialogue.bind]
    | ok client =>
        by_cases hscannable : isScannableClient client = true
        · simp [hallowed, hscannable, bind, Except.bind, Dialogue.ofExcept, Dialogue.bind,
            flushPattern, pure, Except.pure]
        · simp [hallowed, hscannable, bind, Except.bind, Dialogue.ofExcept, Dialogue.bind, throw]
  · simp [hallowed, Dialogue.ofExcept, Dialogue.bind, throw]

/-- Where the loop is: it waits for a chunk, for the server to carry out an
`UNLINK`, or for its reply; or it has ended. -/
inductive FlushPhase
  | reading
  | unlinking (keys : List Text)
  | replying (removed : Nat)
  | returned (total : Nat)
  | threw (e : Thrown)

/-- A flush, and the `UNLINK` that was rejected and is still on its way. -/
structure FlushRun (V : Type) where
  stream : ScanStream V
  phase : FlushPhase
  total : Nat := 0
  late : Option (List Text) := none

/-- What can happen next. -/
inductive FlushAction (V : Type)
  | scan (a : ScanAction V)
  | take
  | unlink
  | reply
  | reject (reason : Reason)
  | land
  | fail
  | finish

/-- The keys that an `UNLINK` has removed, and how the flush ends. -/
inductive FlushEvent
  | unlinked (keys : List Text)
  | returned (total : Nat)
  | threw (e : Thrown)
  deriving DecidableEq

namespace FlushRun

/-- The server carries out `UNLINK`. -/
def unlink (keys : List Text) (run : FlushRun V) : FlushRun V × List FlushEvent :=
  let store := (unlinkAll run.stream.store keys).1
  ({ run with stream := run.stream.become store },
    [.unlinked (removedKeys run.stream.store store)])

/-- The loop throws. -/
def throws (reason : Reason) (run : FlushRun V) : FlushRun V × List FlushEvent :=
  ({ run with phase := .threw (.raw reason) }, [.threw (.raw reason)])

end FlushRun

/-- `for await (const keys of stream) { if (keys.length > 0) total +=
await … }`. -/
def flushStep (pattern : Text) (run : FlushRun V) :
    FlushAction V → Option (FlushRun V × List FlushEvent)
  | .scan a => (run.stream.step pattern a).map fun stream => ({ run with stream }, [])
  | .take =>
      match run.phase, run.stream.iteration.takePage with
      | .reading, some (keys, iteration) =>
          let phase := if keys.length > 0 then FlushPhase.unlinking keys else .reading
          some ({ run with stream := { run.stream with iteration }, phase }, [])
      | _, _ => none
  | .unlink =>
      match run.phase with
      | .unlinking keys =>
          let removed := (unlinkAll run.stream.store keys).2
          some ({ (run.unlink keys).1 with phase := .replying removed }, (run.unlink keys).2)
      | _ => none
  | .reply =>
      match run.phase with
      | .replying removed =>
          some ({ run with phase := .reading, total := run.total + removed }, [])
      | _ => none
  | .reject reason =>
      match run.phase with
      | .unlinking keys => some ({ run with late := some keys }.throws reason)
      | .replying _ => some (run.throws reason)
      | _ => none
  | .land =>
      run.late.map fun keys => { run with late := none }.unlink keys
  | .fail =>
      match run.phase, run.stream.failure with
      | .reading, some reason => some (run.throws reason)
      | _, _ => none
  | .finish =>
      match run.phase with
      | .reading =>
          if run.stream.iteration.isDone then
            some ({ run with phase := .returned run.total }, [.returned run.total])
          else none
      | _ => none

/-- A flush of a server with this store. -/
def flushMachine (nodeEnv : Option Text) (options : ResolvedOptions)
    (getClient : Except Thrown ClientKind) (store : Keyspace V) :
    Machine (FlushRun V) (FlushAction V) FlushEvent where
  init :=
    { stream := .start store (flushPattern options)
      phase := match openFlush nodeEnv options getClient with
        | .ok _ => .reading
        | .error e => .threw e }
  step := flushStep (flushPattern options)

/-! ## The store -/

/-- What is left after an `UNLINK` are the keys that it did not name. -/
theorem mem_unlinkAll {store : Keyspace V} {keys : List Text} {key : Text} :
    key ∈ (unlinkAll store keys).1 ↔ key ∈ store ∧ key ∉ keys := by
  rw [← AList.lookup_isSome, lookup_unlinkAll]
  by_cases hkey : key ∈ keys
  · simp [hkey]
  · simp [hkey, AList.lookup_isSome]

/-- What `UNLINK` counts is what it removes. -/
theorem length_removed (store : Keyspace V) (keys : List Text) :
    (removedKeys store (unlinkAll store keys).1).length = (unlinkAll store keys).2 := by
  have hcount := length_unlinkAll store keys
  rw [length_removedKeys fun key hkey => (mem_unlinkAll.mp hkey).1]
  omega

/-- What an `UNLINK` removes is among the keys that it named. -/
theorem mem_removed {store : Keyspace V} {keys : List Text} {key : Text}
    (h : key ∈ removedKeys store (unlinkAll store keys).1) : key ∈ keys := by
  obtain ⟨hheld, hgone⟩ := List.mem_filter.mp h
  by_contra hkey
  exact of_decide_eq_true hgone (mem_unlinkAll.mpr ⟨AList.mem_keys.mpr hheld, hkey⟩)

/-! ## What a flush has done so far -/

namespace FlushPhase

/-- The keys that an `UNLINK` on its way is about. -/
def inHand : FlushPhase → List Text
  | unlinking keys => keys
  | _ => []

/-- What a reply on its way says. -/
def answered : FlushPhase → Nat
  | replying removed => removed
  | _ => 0

/-- The loop has not thrown. -/
def Calm (phase : FlushPhase) : Prop := ∀ e, phase ≠ .threw e

end FlushPhase

/-- The keys that an event removed. -/
def FlushEvent.removed : FlushEvent → List Text
  | unlinked keys => keys
  | _ => []

/-- What holds of a flush at any time: all it deals with was selected, its
total is what it has removed, and what it has taken is in hand or was
absent since. -/
structure FlushInv (pattern : Text) (out : List FlushEvent) (run : FlushRun V) : Prop where
  matching : ∀ key, key ∈ run.stream.iteration.pages.flatten ∨ key ∈ run.phase.inHand ∨
    key ∈ run.late.getD [] → Glob.stringmatchlen pattern key = true
  unlinked : ∀ key ∈ out.flatMap FlushEvent.removed, Glob.stringmatchlen pattern key = true
  counted : run.phase.Calm → run.late = none ∧
    run.total + run.phase.answered = (out.flatMap FlushEvent.removed).length
  covered : run.phase.Calm → ∃ taken, run.stream.iteration.Covers taken ∧
    ∀ key ∈ taken, key ∈ run.phase.inHand ∨ key ∉ run.stream.iteration.steady
  swept : ∀ total, run.phase = .returned total →
    run.total = total ∧ run.stream.iteration.steady = []
  ended : ∀ total, .returned total ∈ out → run.phase = .returned total

section Steps

variable {pattern : Text} {out : List FlushEvent} {run run' : FlushRun V}

/-- Another store: only the elements that have been there all the time
change. -/
theorem FlushInv.become (h : FlushInv pattern out run) (store : Keyspace V) :
    FlushInv pattern out { run with stream := run.stream.become store } := by
  refine ⟨h.matching, h.unlinked, h.counted, fun hcalm => ?_, fun total htotal => ?_, h.ended⟩
  · obtain ⟨taken, hcovers, htaken⟩ := h.covered hcalm
    refine ⟨taken, hcovers.notice _, fun key hkey => ?_⟩
    rcases htaken key hkey with hhand | habsent
    · exact .inl hhand
    · exact .inr fun hsteady => habsent (List.mem_of_mem_filter hsteady)
  · obtain ⟨hsame, hsteady⟩ := h.swept total htotal
    exact ⟨hsame, by simp [ScanStream.become, Iteration.notice, hsteady]⟩

/-- A step of the scan, or a change by others, keeps the invariant: it touches
only what is still to be taken. -/
theorem FlushInv.scan (h : FlushInv pattern out run) {a : ScanAction V} {stream : ScanStream V}
    (hstep : run.stream.step pattern a = some stream) :
    FlushInv pattern out { run with stream } := by
  rcases ScanStream.step_cases hstep with ⟨keys, last, iteration, -, rfl, hread⟩ | ⟨_, -, rfl⟩ |
    ⟨_, -, rfl⟩
  · obtain ⟨hheld, hsteady, hpages, hcovers⟩ := Iteration.readPage_eq_some hread
    refine ⟨fun key hkey => ?_, h.unlinked, h.counted, fun hcalm => ?_, fun total htotal => ?_,
      h.ended⟩
    · rcases hkey with hkey | hkey
      · rw [hpages, List.flatten_append] at hkey
        rcases List.mem_append.mp hkey with hkey | hkey
        · exact h.matching key (.inl hkey)
        · have hpage := hheld key (by simpa using hkey)
          exact (Bool.and_eq_true _ _ ▸ hpage).2
      · exact h.matching key (.inr hkey)
    · obtain ⟨taken, hbefore, htaken⟩ := h.covered hcalm
      exact ⟨taken, hcovers taken hbefore, fun key hkey => hsteady ▸ htaken key hkey⟩
    · exact ⟨(h.swept total htotal).1, hsteady.trans (h.swept total htotal).2⟩
  · exact ⟨h.matching, h.unlinked, h.counted, h.covered, h.swept, h.ended⟩
  · exact h.become _

/-- A chunk is taken in hand. Its keys were pages of the stream before, so they
were selected, and they count as taken from now on. -/
theorem FlushInv.take (h : FlushInv pattern out run) (hphase : run.phase = .reading)
    {keys : List Text} {iteration : Iteration Text}
    (htake : run.stream.iteration.takePage = some (keys, iteration)) {phase : FlushPhase}
    (hhand : phase.inHand = keys) (hanswered : phase.answered = 0)
    (hopen : ∀ total, phase ≠ .returned total) :
    FlushInv pattern out { run with stream := { run.stream with iteration }, phase } := by
  obtain ⟨hpages, hsteady, hcovers⟩ := Iteration.takePage_eq_some htake
  have hcalm : run.phase.Calm := by simp [FlushPhase.Calm, hphase]
  refine ⟨fun key hkey => ?_, h.unlinked, fun _ => ?_, fun _ => ?_, fun total htotal => ?_,
    fun total htotal => ?_⟩
  · rcases hkey with hkey | hkey | hkey
    · exact h.matching key (.inl (by simp [hpages, hkey]))
    · exact h.matching key (.inl (by simp [hpages, show key ∈ keys from hhand ▸ hkey]))
    · exact h.matching key (.inr (.inr hkey))
  · obtain ⟨hlate, hcount⟩ := h.counted hcalm
    rw [hphase] at hcount
    exact ⟨hlate, hanswered ▸ hcount⟩
  · obtain ⟨taken, hbefore, htaken⟩ := h.covered hcalm
    refine ⟨taken ++ keys, hcovers taken hbefore, fun key hkey => ?_⟩
    rcases List.mem_append.mp hkey with hkey | hkey
    · have habsent := (htaken key hkey).resolve_left (by simp [hphase, FlushPhase.inHand])
      exact .inr (hsteady ▸ habsent)
    · exact .inl (hhand ▸ hkey)
  · exact absurd htotal (hopen total)
  · exact absurd (h.ended total htotal) (by simp [hphase])

/-- What an `UNLINK` removes was selected. -/
theorem FlushInv.unlinked_append (h : FlushInv pattern out run) {keys : List Text}
    (hkeys : ∀ key ∈ keys, Glob.stringmatchlen pattern key = true) :
    ∀ key ∈ (out ++ (run.unlink keys).2).flatMap FlushEvent.removed,
      Glob.stringmatchlen pattern key = true := by
  intro key hkey
  rw [List.flatMap_append] at hkey
  rcases List.mem_append.mp hkey with hkey | hkey
  · exact h.unlinked key hkey
  · have hremoved : key ∈ removedKeys run.stream.store (unlinkAll run.stream.store keys).1 := by
      simpa [FlushRun.unlink, FlushEvent.removed] using hkey
    exact hkeys key (mem_removed hremoved)

/-- The server carries out the `UNLINK` of the loop. What it removes was in
hand, hence selected, and its reply is the number of keys removed. -/
theorem FlushInv.unlink (h : FlushInv pattern out run) {keys : List Text}
    (hphase : run.phase = .unlinking keys) :
    FlushInv pattern (out ++ (run.unlink keys).2) { (run.unlink keys).1 with
      phase := .replying (unlinkAll run.stream.store keys).2 } := by
  have hcalm : run.phase.Calm := by simp [FlushPhase.Calm, hphase]
  have hkeys : ∀ key ∈ keys, Glob.stringmatchlen pattern key = true := fun key hkey =>
    h.matching key (.inr (.inl (by rw [hphase]; exact hkey)))
  have hbecome := h.become (unlinkAll run.stream.store keys).1
  refine ⟨fun key hkey => ?_, h.unlinked_append hkeys, fun _ => ?_, fun _ => ?_,
    fun _ htotal => (by cases htotal), fun total htotal => ?_⟩
  · rcases hkey with hkey | hkey | hkey
    · exact h.matching key (.inl hkey)
    · cases hkey
    · exact h.matching key (.inr (.inr hkey))
  · obtain ⟨hlate, hcount⟩ := h.counted hcalm
    rw [hphase] at hcount
    refine ⟨hlate, ?_⟩
    simp only [List.flatMap_append, List.length_append, FlushRun.unlink, List.flatMap_cons,
      List.flatMap_nil, List.append_nil, FlushEvent.removed, length_removed, ← hcount]
    rfl
  · obtain ⟨taken, hcovers, htaken⟩ := hbecome.covered hcalm
    refine ⟨taken, hcovers, fun key hkey => .inr fun hsteady => ?_⟩
    rcases htaken key hkey with hhand | habsent
    · -- what was in hand is not held any more
      have hheld := of_decide_eq_true (List.mem_filter.mp hsteady).2
      rw [hphase] at hhand
      exact (mem_unlinkAll.mp hheld).2 hhand
    · exact habsent hsteady
  · have hbefore : FlushEvent.returned total ∈ out := by simpa [FlushRun.unlink] using htotal
    exact absurd (h.ended total hbefore) (by simp [hphase])

/-- A rejected `UNLINK` lands after the loop has thrown. Its keys were selected
too, but the total is not told any more. -/
theorem FlushInv.land (h : FlushInv pattern out run) {keys : List Text}
    (hlate : run.late = some keys) :
    FlushInv pattern (out ++ ({ run with late := none }.unlink keys).2)
      ({ run with late := none }.unlink keys).1 := by
  have hstorm : ¬ run.phase.Calm := fun hcalm => by simp [(h.counted hcalm).1] at hlate
  have hkeys : ∀ key ∈ keys, Glob.stringmatchlen pattern key = true := fun key hkey =>
    h.matching key (.inr (.inr (by rw [hlate]; exact hkey)))
  have hbecome := h.become (unlinkAll run.stream.store keys).1
  refine ⟨fun key hkey => ?_, h.unlinked_append hkeys, fun hcalm => absurd hcalm hstorm,
    fun hcalm => absurd hcalm hstorm, hbecome.swept, fun total htotal => ?_⟩
  · rcases hkey with hkey | hkey | hkey
    · exact h.matching key (.inl hkey)
    · exact h.matching key (.inr (.inl hkey))
    · cases hkey
  · have hbefore : FlushEvent.returned total ∈ out := by simpa [FlushRun.unlink] using htotal
    exact h.ended total hbefore

/-- The loop throws; its `UNLINK` may still be on its way. The invariant then
only speaks of what is selected, since the loop tells no total. -/
theorem FlushInv.throws (h : FlushInv pattern out run) {late : Option (List Text)}
    (hlate : ∀ key ∈ late.getD [], key ∈ run.phase.inHand ∨ key ∈ run.late.getD [])
    (hopen : ∀ total, run.phase ≠ .returned total) (reason : Reason) :
    FlushInv pattern (out ++ ({ run with late }.throws reason).2)
      ({ run with late }.throws reason).1 := by
  refine ⟨fun key hkey => ?_, ?_, fun hcalm => absurd rfl (hcalm _),
    fun hcalm => absurd rfl (hcalm _), fun _ htotal => (by cases htotal), fun total htotal => ?_⟩
  · rcases hkey with hkey | hkey | hkey
    · exact h.matching key (.inl hkey)
    · cases hkey
    · exact h.matching key (.inr (hlate key hkey))
  · simpa [FlushRun.throws, FlushEvent.removed] using h.unlinked
  · have hbefore : FlushEvent.returned total ∈ out := by simpa [FlushRun.throws] using htotal
    exact absurd (h.ended total hbefore) (hopen total)

/-- The reply is added to the total. So the total is again the number of keys
removed so far. -/
theorem FlushInv.reply (h : FlushInv pattern out run) {removed : Nat}
    (hphase : run.phase = .replying removed) :
    FlushInv pattern out { run with phase := .reading, total := run.total + removed } := by
  have hcalm : run.phase.Calm := by simp [FlushPhase.Calm, hphase]
  refine ⟨fun key hkey => ?_, h.unlinked, fun _ => ?_, fun _ => ?_,
    fun _ htotal => (by cases htotal), fun total htotal => ?_⟩
  · rcases hkey with hkey | hkey | hkey
    · exact h.matching key (.inl hkey)
    · cases hkey
    · exact h.matching key (.inr (.inr hkey))
  · obtain ⟨hlate, hcount⟩ := h.counted hcalm
    rw [hphase] at hcount
    exact ⟨hlate, hcount⟩
  · obtain ⟨taken, hcovers, htaken⟩ := h.covered hcalm
    exact ⟨taken, hcovers, fun key hkey =>
      .inr ((htaken key hkey).resolve_left (by simp [hphase, FlushPhase.inHand]))⟩
  · exact absurd (h.ended total htotal) (by simp [hphase])

/-- The loop ends when the stream does. What it returns is the total, and
nothing is left in hand. -/
theorem FlushInv.finish (h : FlushInv pattern out run) (hphase : run.phase = .reading)
    (hdone : run.stream.iteration.isDone = true) :
    FlushInv pattern (out ++ [.returned run.total]) { run with phase := .returned run.total } := by
  have hcalm : run.phase.Calm := by simp [FlushPhase.Calm, hphase]
  obtain ⟨taken, hcovers, htaken⟩ := h.covered hcalm
  have habsent : ∀ key ∈ taken, key ∉ run.stream.iteration.steady := fun key hkey =>
    (htaken key hkey).resolve_left (by simp [hphase, FlushPhase.inHand])
  refine ⟨fun key hkey => ?_, ?_, fun _ => ?_, fun _ => ?_,
    fun total htotal => ⟨FlushPhase.returned.inj htotal, ?_⟩, fun total htotal => ?_⟩
  · rcases hkey with hkey | hkey | hkey
    · exact h.matching key (.inl hkey)
    · cases hkey
    · exact h.matching key (.inr (.inr hkey))
  · simpa [FlushEvent.removed] using h.unlinked
  · obtain ⟨hlate, hcount⟩ := h.counted hcalm
    rw [hphase] at hcount
    exact ⟨hlate, by simpa [FlushEvent.removed, FlushPhase.answered] using hcount⟩
  · exact ⟨taken, hcovers, fun key hkey => .inr (habsent key hkey)⟩
  · refine List.eq_nil_iff_forall_not_mem.mpr fun key hkey => ?_
    exact habsent key (hcovers.complete hdone key hkey) hkey
  · rcases List.mem_append.mp htotal with hbefore | hnow
    · exact absurd (h.ended total hbefore) (by simp [hphase])
    · rw [List.mem_singleton.mp hnow |> FlushEvent.returned.inj]

/-- **One step.** One lemma for each move of the loop, and the scan with the
changes by others in between. -/
theorem FlushInv.step (h : FlushInv pattern out run) {a : FlushAction V} {more : List FlushEvent}
    (hstep : flushStep pattern run a = some (run', more)) :
    FlushInv pattern (out ++ more) run' := by
  cases a with
  | scan a =>
      obtain ⟨stream, hscan, heq⟩ := Option.map_eq_some_iff.mp hstep
      obtain ⟨rfl, rfl⟩ := Prod.mk.inj heq
      rw [List.append_nil]
      exact h.scan hscan
  | take =>
      simp only [flushStep] at hstep
      split at hstep
      · rename_i keys iteration hphase htake
        obtain ⟨rfl, rfl⟩ := Prod.mk.inj (Option.some.inj hstep)
        rw [List.append_nil]
        by_cases hkeys : keys.length > 0
        · rw [if_pos hkeys]
          exact h.take hphase htake rfl rfl (by simp)
        · rw [if_neg hkeys]
          obtain rfl : keys = [] := List.length_eq_zero_iff.mp (by omega)
          exact h.take hphase htake rfl rfl (by simp)
      · cases hstep
  | unlink =>
      simp only [flushStep] at hstep
      split at hstep
      · rename_i keys hphase
        obtain ⟨rfl, rfl⟩ := Prod.mk.inj (Option.some.inj hstep)
        exact h.unlink hphase
      · cases hstep
  | reply =>
      simp only [flushStep] at hstep
      split at hstep
      · rename_i removed hphase
        obtain ⟨rfl, rfl⟩ := Prod.mk.inj (Option.some.inj hstep)
        rw [List.append_nil]
        exact h.reply hphase
      · cases hstep
  | reject reason =>
      simp only [flushStep] at hstep
      split at hstep
      · rename_i keys hphase
        obtain ⟨rfl, rfl⟩ := Prod.mk.inj (Option.some.inj hstep)
        refine h.throws (fun key hkey => .inl ?_) (by simp [hphase]) reason
        rw [hphase]
        exact hkey
      · rename_i removed hphase
        obtain ⟨rfl, rfl⟩ := Prod.mk.inj (Option.some.inj hstep)
        exact h.throws (fun key hkey => .inr hkey) (by simp [hphase]) reason
      · cases hstep
  | land =>
      obtain ⟨keys, hlate, heq⟩ := Option.map_eq_some_iff.mp hstep
      obtain ⟨rfl, rfl⟩ := Prod.mk.inj heq
      exact h.land hlate
  | fail =>
      simp only [flushStep] at hstep
      split at hstep
      · rename_i reason hphase hfailure
        obtain ⟨rfl, rfl⟩ := Prod.mk.inj (Option.some.inj hstep)
        exact h.throws (fun key hkey => .inr hkey) (by simp [hphase]) reason
      · cases hstep
  | finish =>
      simp only [flushStep] at hstep
      split at hstep
      · rename_i hphase
        split at hstep
        · rename_i hdone
          obtain ⟨rfl, rfl⟩ := Prod.mk.inj (Option.some.inj hstep)
          exact h.finish hphase hdone
        · cases hstep
      · cases hstep

/-- What a step does to the store: nothing, an `UNLINK` of the flush, or
changes of the others. -/
theorem flushStep_store {a : FlushAction V} {more : List FlushEvent}
    (hstep : flushStep pattern run a = some (run', more)) :
    (run'.stream.store = run.stream.store ∧
      run'.stream.iteration.steady = run.stream.iteration.steady ∧
      more.flatMap FlushEvent.removed = []) ∨
    ∃ store, run'.stream.store = store ∧
      run'.stream.iteration.steady = run.stream.iteration.steady.filter (· ∈ store) ∧
      ((∃ keys, (∀ key ∈ keys, key ∈ run.phase.inHand ∨ key ∈ run.late.getD []) ∧
          store = (unlinkAll run.stream.store keys).1 ∧
          more.flatMap FlushEvent.removed = removedKeys run.stream.store store) ∨
        ∃ changes, a = .scan (.others changes) ∧ store = applyChanges run.stream.store changes ∧
          more = []) := by
  cases a with
  | scan a =>
      obtain ⟨stream, hscan, heq⟩ := Option.map_eq_some_iff.mp hstep
      obtain ⟨rfl, rfl⟩ := Prod.mk.inj heq
      rcases ScanStream.step_cases hscan with ⟨_, _, _, -, rfl, hread⟩ | ⟨_, -, rfl⟩ |
        ⟨changes, rfl, rfl⟩
      · exact .inl ⟨rfl, (Iteration.readPage_eq_some hread).2.1, rfl⟩
      · exact .inl ⟨rfl, rfl, rfl⟩
      · exact .inr ⟨_, rfl, rfl, .inr ⟨changes, rfl, rfl, rfl⟩⟩
  | take =>
      simp only [flushStep] at hstep
      split at hstep
      · rename_i keys iteration hphase htake
        obtain ⟨rfl, rfl⟩ := Prod.mk.inj (Option.some.inj hstep)
        exact .inl ⟨rfl, (Iteration.takePage_eq_some htake).2.1, rfl⟩
      · cases hstep
  | unlink =>
      simp only [flushStep] at hstep
      split at hstep
      · rename_i keys hphase
        obtain ⟨rfl, rfl⟩ := Prod.mk.inj (Option.some.inj hstep)
        refine .inr ⟨_, rfl, rfl, .inl ⟨keys, fun key hkey => .inl ?_, rfl, by
          simp [FlushRun.unlink, FlushEvent.removed, ScanStream.become]⟩⟩
        rw [hphase]
        exact hkey
      · cases hstep
  | land =>
      obtain ⟨keys, hlate, heq⟩ := Option.map_eq_some_iff.mp hstep
      obtain ⟨rfl, rfl⟩ := Prod.mk.inj heq
      refine .inr ⟨_, rfl, rfl, .inl ⟨keys, fun key hkey => .inr ?_, rfl, by
        simp [FlushEvent.removed, ScanStream.become]⟩⟩
      rw [hlate]
      exact hkey
  | reply | reject reason | fail =>
      simp only [flushStep] at hstep
      split at hstep
      all_goals cases hstep
      all_goals exact .inl ⟨rfl, rfl, rfl⟩
  | finish =>
      simp only [flushStep] at hstep
      split at hstep
      · split at hstep
        · obtain ⟨rfl, rfl⟩ := Prod.mk.inj (Option.some.inj hstep)
          exact .inl ⟨rfl, rfl, rfl⟩
        · cases hstep
      · cases hstep

/-- What is held after a step was held before, or others have written it. -/
theorem flushStep_held {a : FlushAction V} {more : List FlushEvent}
    (hstep : flushStep pattern run a = some (run', more)) {key : Text}
    (hkey : key ∈ run'.stream.store) : key ∈ run.stream.store ∨
      ∃ changes value, a = .scan (.others changes) ∧ (key, some value) ∈ changes := by
  rcases flushStep_store hstep with ⟨hsame, -⟩ | ⟨_, rfl, -, ⟨keys, -, hunlink, -⟩ |
    ⟨changes, ha, hchanges, -⟩⟩
  · exact .inl (hsame ▸ hkey)
  · rw [hunlink] at hkey
    exact .inl (mem_unlinkAll.mp hkey).1
  · rw [hchanges] at hkey
    rcases mem_applyChanges hkey with hold | ⟨value, hwritten⟩
    · exact .inl hold
    · exact .inr ⟨changes, value, ha, hwritten⟩

/-- What has been there all the time and is held now has still been there all
the time. -/
theorem flushStep_steady {a : FlushAction V} {more : List FlushEvent}
    (hstep : flushStep pattern run a = some (run', more)) {key : Text}
    (hsteady : key ∈ run.stream.iteration.steady) (hkey : key ∈ run'.stream.store) :
    key ∈ run'.stream.iteration.steady := by
  rcases flushStep_store hstep with ⟨-, hsame, -⟩ | ⟨_, rfl, hfilter, -⟩
  · rw [hsame]
    exact hsteady
  · rw [hfilter]
    exact List.mem_filter.mpr ⟨hsteady, by simpa using hkey⟩

/-- Only the end of the loop returns. It tells the total that was counted, and
the keyspace is as it was. -/
theorem flushStep_returned {a : FlushAction V} {more : List FlushEvent} {total : Nat}
    (hstep : flushStep pattern run a = some (run', more)) (htotal : .returned total ∈ more) :
    more = [.returned total] ∧ run'.stream = run.stream ∧ run'.total = total := by
  cases a with
  | finish =>
      simp only [flushStep] at hstep
      split at hstep
      · split at hstep
        · obtain ⟨rfl, rfl⟩ := Prod.mk.inj (Option.some.inj hstep)
          obtain rfl := FlushEvent.returned.inj (List.mem_singleton.mp htotal)
          exact ⟨rfl, rfl, rfl⟩
        · cases hstep
      · cases hstep
  | scan a =>
      obtain ⟨stream, hscan, heq⟩ := Option.map_eq_some_iff.mp hstep
      obtain ⟨rfl, rfl⟩ := Prod.mk.inj heq
      cases htotal
  | land =>
      obtain ⟨keys, hlate, heq⟩ := Option.map_eq_some_iff.mp hstep
      obtain ⟨rfl, rfl⟩ := Prod.mk.inj heq
      simp at htotal
  | take | unlink | reply | reject reason | fail =>
      simp only [flushStep] at hstep
      split at hstep
      all_goals cases hstep
      all_goals simp [FlushRun.unlink] at htotal

end Steps

end NestCache
