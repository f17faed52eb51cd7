import NestCache.ConcurrentFlush
import NestCache.PatternOperations

/-!
# What a flush leaves

* `flush_sweeps` — what a flush among other clients removes, what it returns, and
  what is left;
* `flush_undisturbed` — without the others it is the flush of `flush_exec`.
-/

namespace NestCache

variable {V : Type}

/-! ## Runs -/

section Runs

variable {nodeEnv : Option Text} {options : ResolvedOptions} {getClient : Except Thrown ClientKind}
  {store : Keyspace V} {as : List (FlushAction V)} {run : FlushRun V} {out : List FlushEvent}

/-- The others write no key that the pattern selects. -/
def KeepAway (pattern : Text) (as : List (FlushAction V)) : Prop :=
  ∀ changes key value, .scan (.others changes) ∈ as → (key, some value) ∈ changes →
    Glob.stringmatchlen pattern key ≠ true

variable (options) in
/-- What holds of a run: `FlushInv`, and without writes of the others what is
left has been there all the time. -/
structure SweepInv (as : List (FlushAction V)) (out : List FlushEvent) (run : FlushRun V) :
    Prop where
  flush : FlushInv (flushPattern options) out run
  alone : KeepAway (flushPattern options) as → ∀ key ∈ run.stream.store,
    Glob.stringmatchlen (flushPattern options) key = true → key ∈ run.stream.iteration.steady

/-- At the start nothing was unlinked and nothing replied. The checks in front
of the scan may have refused the flush, and then the loop has ended already. -/
theorem SweepInv.init : SweepInv options [] []
    (flushMachine nodeEnv options getClient store).init := by
  have hphase : ∀ phase, phase = (flushMachine nodeEnv options getClient store).init.phase →
      phase.inHand = [] ∧ phase.answered = 0 ∧ ∀ total, phase ≠ .returned total := by
    intro phase hphase
    simp only [flushMachine] at hphase
    split at hphase
    all_goals
      subst hphase
      exact ⟨rfl, rfl, by simp⟩
  obtain ⟨hhand, hanswered, hopen⟩ := hphase _ rfl
  refine ⟨⟨fun key hkey => ?_, by simp, fun _ => ⟨rfl, ?_⟩, fun _ => ?_,
    fun total htotal => absurd htotal (hopen total), by simp⟩,
    fun _ key hkey hmatch => ScanStream.mem_start.mpr ⟨hkey, hmatch⟩⟩
  · rw [hhand] at hkey
    rcases hkey with hkey | hkey | hkey
    all_goals cases hkey
  · rw [hanswered]
    rfl
  · exact ⟨[], Iteration.Covers.begin _, by simp⟩

/-- **One step of a run.** -/
theorem SweepInv.step (h : SweepInv options as out run)
    {a : FlushAction V} {run' : FlushRun V} {more : List FlushEvent}
    (hstep : flushStep (flushPattern options) run a = some (run', more)) :
    SweepInv options (as ++ [a]) (out ++ more) run' := by
  refine ⟨h.flush.step hstep, fun halone key hkey hmatch => ?_⟩
  have hbefore : KeepAway (flushPattern options) as := fun changes key value hmem =>
    halone changes key value (List.mem_append_left _ hmem)
  rcases flushStep_held hstep hkey with hold | ⟨changes, value, rfl, hwritten⟩
  · exact flushStep_steady hstep (h.alone hbefore key hold hmatch) hkey
  · exact absurd hmatch (halone changes key value (by simp) hwritten)

/-- The invariant holds after every run, by its step lemma. -/
theorem sweepInv_run
    (hrun : (flushMachine nodeEnv options getClient store).run as = some (run, out)) :
    SweepInv options as out run :=
  (flushMachine nodeEnv options getClient store).run_induction .init
    (fun _ _ _ _ _ _ h hstep => h.step hstep) hrun

/-- **What a flush that returns has done.** The total is the number of keys it
has removed, and every selected key of the store was absent at some moment
before the return. -/
theorem flush_returned
    (hrun : (flushMachine nodeEnv options getClient store).run as = some (run, out))
    {before after : List FlushEvent} {total : Nat}
    (hout : out = before ++ .returned total :: after) :
    total = (before.flatMap FlushEvent.removed).length ∧
      ∀ key ∈ store, Glob.stringmatchlen (flushPattern options) key = true →
        (flushMachine nodeEnv options getClient store).Sometime as before fun run =>
          key ∉ run.stream.store := by
  obtain ⟨earlier, a, run₁, run₂, seen, start, rest, hearlier, hrun₁, hstep, rfl⟩ :=
    (flushMachine nodeEnv options getClient store).run_output hrun hout
  -- the loop has ended with this step
  have hmem : FlushEvent.returned total ∈ start ++ .returned total :: rest := by simp
  obtain ⟨honly, hstream, rfl⟩ := flushStep_returned hstep hmem
  obtain ⟨rfl, -⟩ := Machine.cut_singleton honly
  rw [honly] at hstep
  have hflush := (sweepInv_run hrun₁).flush.step hstep
  have hphase := hflush.ended run₂.total (by simp)
  obtain ⟨-, hswept⟩ := hflush.swept _ hphase
  obtain ⟨-, hcount⟩ := hflush.counted (by simp [FlushPhase.Calm, hphase])
  rw [List.append_nil]
  refine ⟨?_, fun key hkey hmatch => ?_⟩
  · simpa [hphase, FlushPhase.answered, FlushEvent.removed] using hcount
  · rcases steady_or_absent FlushRun.stream (fun _ _ _ _ _ hstep => flushStep_steady hstep) hrun₁
      (ScanStream.mem_start.mpr ⟨hkey, hmatch⟩) with hsteady | habsent
    · rw [← hstream, hswept] at hsteady
      cases hsteady
    · exact habsent.mono hearlier List.prefix_rfl

/-- A flush that has returned is over. -/
theorem SweepInv.over (h : SweepInv options as out run) {total : Nat}
    (htotal : .returned total ∈ out) :
    total = (out.flatMap FlushEvent.removed).length ∧ run.stream.iteration.steady = [] := by
  have hphase := h.flush.ended total htotal
  obtain ⟨hsame, hsteady⟩ := h.flush.swept total hphase
  obtain ⟨-, hcount⟩ := h.flush.counted (by simp [FlushPhase.Calm, hphase])
  rw [hphase] at hcount
  exact ⟨hsame.symm.trans hcount, hsteady⟩

/-- Without writes of the others no selected key is left. -/
theorem SweepInv.left (h : SweepInv options as out run) {total : Nat}
    (htotal : .returned total ∈ out) (halone : KeepAway (flushPattern options) as) :
    ∀ key ∈ run.stream.store, Glob.stringmatchlen (flushPattern options) key ≠ true := by
  intro key hkey hmatch
  have hsteady := h.alone halone key hkey hmatch
  rw [(h.over htotal).2] at hsteady
  cases hsteady

end Runs

/-! ## Flushes -/

/-- An accepted namespace with a literal separator: the pattern of the flush
selects the keys of the namespace. -/
theorem flushPattern_selects {rt : UrlRuntime} {options : BymaxCacheModuleOptions}
    {resolved : ResolvedOptions} (haccepted : resolveOptions rt options = .ok resolved)
    (hsep : ∀ c ∈ resolved.keySeparator, c ∉ GLOB_METACHARACTERS) (key : Text) :
    Glob.stringmatchlen (flushPattern resolved) key = true ↔
      (KeyBuilder.ofOptions resolved).FlushRegion key := by
  have hnamespace : AcceptedNamespace (KeyBuilder.ofOptions resolved).nameSpace
      (KeyBuilder.ofOptions resolved).separator := acceptedNamespace_of_resolveOptions haccepted
  refine Glob.stringmatchlen_literal_star ?_ ?_ key
  · exact special_eq_false (literal_namespacePrefix hnamespace hsep)
  · simp [KeyBuilder.getNamespacePrefix, hnamespace.nonempty]

/-- Without the others: what is not selected stays, and what is removed is
missing. -/
structure Undisturbed (pattern : Text) (store : Keyspace V) (out : List FlushEvent)
    (run : FlushRun V) : Prop where
  flush : FlushInv pattern out run
  kept : ∀ key, Glob.stringmatchlen pattern key ≠ true →
    run.stream.store.lookup key = store.lookup key
  size : run.stream.store.keys.length + (out.flatMap FlushEvent.removed).length =
    store.keys.length

/-- A step of the flush or of the scan itself leaves what the pattern does not
select, and what it removes is missing from the store. -/
theorem Undisturbed.step {pattern : Text} {store : Keyspace V} {out more : List FlushEvent}
    {run run' : FlushRun V} {a : FlushAction V} (h : Undisturbed pattern store out run)
    (halone : ∀ changes, a ≠ .scan (.others changes))
    (hstep : flushStep pattern run a = some (run', more)) :
    Undisturbed pattern store (out ++ more) run' := by
  refine ⟨h.flush.step hstep, fun key hkey => ?_, ?_⟩
  · rcases flushStep_store hstep with ⟨hsame, -⟩ | ⟨_, rfl, -, ⟨keys, hkeys, hunlink, -⟩ |
      ⟨changes, ha, -⟩⟩
    · rw [hsame, h.kept key hkey]
    · have hother : key ∉ keys := fun hmem =>
        hkey (h.flush.matching key (.inr (hkeys key hmem)))
      rw [hunlink, lookup_unlinkAll, if_neg hother, h.kept key hkey]
    · exact absurd ha (halone changes)
  · rw [List.flatMap_append, List.length_append]
    have hsize := h.size
    rcases flushStep_store hstep with ⟨hsame, -, hnone⟩ | ⟨_, rfl, -, ⟨keys, -, hunlink, hremoved⟩ |
      ⟨changes, ha, -⟩⟩
    · rw [hsame, hnone]
      exact hsize
    · have hcount := length_unlinkAll run.stream.store keys
      rw [hremoved, hunlink, length_removed]
      omega
    · exact absurd ha (halone changes)

/-- **A flush alone** is the flush of the dialogue: the same result, and the
same store in the end, however the stream has cut its pages. -/
theorem flush_undisturbed {nodeEnv : Option Text} {options : ResolvedOptions}
    (hallowed : flushAllowed nodeEnv options = true) (store : Keyspace V)
    {as : List (FlushAction V)} {run : FlushRun V} {out : List FlushEvent} {total : Nat}
    (hrun : (flushMachine nodeEnv options (.ok .redis) store).run as = some (run, out))
    (halone : ∀ changes, .scan (.others changes) ∉ as) (htotal : .returned total ∈ out) :
    let ending := (flushNamespace nodeEnv options (.ok .redis)).exec (flushServer oneBatch) store
    ending.result = .ok total ∧
      ∀ key, run.stream.store.lookup key = ending.state.lookup key := by
  intro ending
  have hinv := sweepInv_run hrun
  have hundisturbed : (∀ changes, .scan (.others changes) ∉ as) →
      Undisturbed (flushPattern options) store out run := by
    refine (flushMachine nodeEnv options (.ok .redis) store).run_induction
      (I := fun as out run => (∀ changes, .scan (.others changes) ∉ as) →
        Undisturbed (flushPattern options) store out run) (fun _ => ?_) ?_ hrun
    · exact ⟨SweepInv.init.flush, fun _ _ => rfl, rfl⟩
    · intro hist seen run a run' more h hstep hnone
      have hbefore : ∀ changes, .scan (.others changes) ∉ hist := fun changes hmem =>
        hnone changes (List.mem_append_left _ hmem)
      have hnow : ∀ changes, a ≠ .scan (.others changes) := fun changes ha =>
        hnone changes (by simp [ha])
      exact (h hbefore).step hnow hstep
  obtain ⟨hflush, hkept, hsize⟩ := hundisturbed halone
  obtain ⟨hlook, hresult⟩ := flush_exec scanSelects_oneBatch hallowed store
  have hselected : ∀ key, ending.state.lookup key =
      if Glob.stringmatchlen (flushPattern options) key then none else store.lookup key := hlook
  have hsame : ∀ key, run.stream.store.lookup key = ending.state.lookup key := by
    intro key
    rw [hselected key]
    by_cases hmatch : Glob.stringmatchlen (flushPattern options) key = true
    · have hgone : key ∉ run.stream.store := fun hkey =>
        hinv.left htotal (fun changes _ _ hmem => absurd hmem (halone changes)) key hkey hmatch
      rw [if_pos hmatch, AList.lookup_eq_none.mpr hgone]
    · rw [if_neg hmatch, hkept key hmatch]
  refine ⟨?_, hsame⟩
  have hkeys : run.stream.store.keys.length = ending.state.keys.length := by
    refine List.Perm.length_eq ((List.perm_ext_iff_of_nodup run.stream.store.keys_nodup
      ending.state.keys_nodup).mpr fun key => ?_)
    rw [← AList.mem_keys, ← AList.mem_keys, ← AList.lookup_isSome, ← AList.lookup_isSome, hsame key]
  rw [hresult, ← hkeys, (hinv.over htotal).1, ← hsize, Nat.add_sub_cancel_left]

/-- **A flush among others.** In every run of `flushNamespace` beside clients
that write and remove keys, whatever the server rejects: it only removes keys
of the namespace. If it returns, it returns the number of keys it has
removed, and every key that the namespace had when it was called was absent
at some moment before it returned; when the others write no key of the
namespace, none is left. -/
theorem flush_sweeps (rt : UrlRuntime) (options : BymaxCacheModuleOptions)
    (resolved : ResolvedOptions) (haccepted : resolveOptions rt options = .ok resolved)
    (hsep : ∀ c ∈ resolved.keySeparator, c ∉ GLOB_METACHARACTERS) (nodeEnv : Option Text)
    (getClient : Except Thrown ClientKind) (store : Keyspace V) {as : List (FlushAction V)}
    {run : FlushRun V} {out : List FlushEvent}
    (hrun : (flushMachine nodeEnv resolved getClient store).run as = some (run, out)) :
    let region := (KeyBuilder.ofOptions resolved).FlushRegion
    (∀ key ∈ out.flatMap FlushEvent.removed, region key) ∧
      (∀ before total after, out = before ++ .returned total :: after →
        total = (before.flatMap FlushEvent.removed).length ∧
        ∀ key ∈ store, region key →
          (flushMachine nodeEnv resolved getClient store).Sometime as before fun run =>
            key ∉ run.stream.store) ∧
      ∀ total, .returned total ∈ out →
        (∀ changes key value, .scan (.others changes) ∈ as → (key, some value) ∈ changes →
          ¬ region key) → ∀ key ∈ run.stream.store, ¬ region key := by
  intro region
  have hselects := flushPattern_selects haccepted hsep
  have hinv := sweepInv_run hrun
  refine ⟨fun key hkey => (hselects key).mp (hinv.flush.unlinked key hkey),
    fun before total after hcut => ?_, fun total htotal halone key hkey hregion => ?_⟩
  · obtain ⟨hcount, habsent⟩ := flush_returned hrun hcut
    exact ⟨hcount, fun key hkey hregion => habsent key hkey ((hselects key).mpr hregion)⟩
  · refine hinv.left htotal (fun changes other value hmem hwritten hmatch => ?_) key hkey
      ((hselects key).mpr hregion)
    exact halone changes other value hmem hwritten ((hselects other).mp hmatch)

/-- Two keys of the namespace `app`, one of another. -/
def threeKeys : Keyspace Unit :=
  ((AList.singleton "app:a".toList ()).insert "app:b".toList ()).insert "apple".toList ()

/-- The stream reads ahead, and another client writes a key anew that is
gone. -/
def rewrittenMeanwhile : List (FlushAction Unit) :=
  [.scan (.page ["app:a".toList] false), .scan (.page ["app:b".toList] true), .take, .unlink,
    .scan (.others [("app:a".toList, some ())]), .reply, .take, .unlink, .reply, .finish]

/-- Both keys are removed; the first is there again in the end. It was written
again behind the scan, which a flush does not prevent. -/
theorem flush_sweeps_rewritten :
    ∃ run, (flushMachine none (applyDefaults (hostOptions "app" ":")) (.ok .redis) threeKeys).run
        rewrittenMeanwhile =
      some (run, [.unlinked ["app:a".toList], .unlinked ["app:b".toList], .returned 2]) ∧
      "app:a".toList ∈ run.stream.store ∧
      ∀ key ∈ threeKeys, (KeyBuilder.ofOptions (applyDefaults (hostOptions "app" ":"))).FlushRegion
        key → (flushMachine none (applyDefaults (hostOptions "app" ":")) (.ok .redis)
          threeKeys).Sometime rewrittenMeanwhile
            [.unlinked ["app:a".toList], .unlinked ["app:b".toList]]
            fun run => key ∉ run.stream.store := by
  have hrun : (flushMachine none (applyDefaults (hostOptions "app" ":")) (.ok .redis)
      threeKeys).run rewrittenMeanwhile =
    some (_, [.unlinked ["app:a".toList], .unlinked ["app:b".toList], .returned 2]) := rfl
  have hsep : ∀ c ∈ (applyDefaults (hostOptions "app" ":")).keySeparator,
      c ∉ GLOB_METACHARACTERS := by
    intro c hc
    obtain rfl : c = ':' := List.mem_singleton.mp hc
    decide
  have hsweeps := flush_sweeps noUrls (hostOptions "app" ":") _ rfl hsep none (.ok .redis)
    threeKeys hrun
  exact ⟨_, hrun, by decide, (hsweeps.2.1 [_, _] 2 [] rfl).2⟩

end NestCache
