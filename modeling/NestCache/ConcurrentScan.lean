import NestCache.NamespaceFlush
import NestCache.ScanStreams

/-!
# A scan among other clients

`scan` is a generator around a `ScanStream`: it yields the keys of one chunk after
the other, as the caller asks for them, until the stream ends or fails or the
caller leaves the loop.

* `ScanInv.step` — what one step preserves;
* `scan_covers` — what a scan yields, and what it has yielded when it ends;
* `scan_undisturbed` — without the others these are the keys of `scan_result`.
-/

namespace NestCache

variable {V : Type}

/-- Where the generator is: in a chunk, or it has ended. -/
inductive ScanPhase
  | yielding (keys : List Text)
  | returned
  | threw (e : Thrown)
  | closed

/-- A scan that was not refused. -/
structure ScanRun (V : Type) where
  stream : ScanStream V
  phase : ScanPhase := .yielding []

/-- What can happen next; `close` is the caller who leaves the loop. -/
inductive GeneratorAction (V : Type)
  | scan (a : ScanAction V)
  | take
  | next
  | close
  | fail
  | finish

/-- What the caller sees. -/
inductive ScanEvent
  | yielded (key : Text)
  | returned
  | threw (e : Thrown)
  deriving DecidableEq

/-- `for await (const chunk of stream) for (const key of chunk) yield key`. -/
def generatorStep (pattern : Text) (run : ScanRun V) :
    GeneratorAction V → Option (ScanRun V × List ScanEvent)
  | .scan a => (run.stream.step pattern a).map fun stream => ({ run with stream }, [])
  | .take =>
      match run.phase, run.stream.iteration.takePage with
      | .yielding [], some (keys, iteration) =>
          some ({ stream := { run.stream with iteration }, phase := .yielding keys }, [])
      | _, _ => none
  | .next =>
      match run.phase with
      | .yielding (key :: keys) => some ({ run with phase := .yielding keys }, [.yielded key])
      | _ => none
  | .close =>
      match run.phase with
      | .yielding _ => some ({ run with phase := .closed }, [])
      | _ => none
  | .fail =>
      match run.phase, run.stream.failure with
      | .yielding [], some reason =>
          some ({ run with phase := .threw (.raw reason) }, [.threw (.raw reason)])
      | _, _ => none
  | .finish =>
      match run.phase with
      | .yielding [] =>
          if run.stream.iteration.isDone then some ({ run with phase := .returned }, [.returned])
          else none
      | _ => none

/-- A scan with this pattern, of a server with this store. -/
def scanMachine (pattern : Text) (store : Keyspace V) :
    Machine (ScanRun V) (GeneratorAction V) ScanEvent where
  init := { stream := .start store pattern }
  step := generatorStep pattern

/-! ## Steps -/

/-- What a step can do. -/
inductive ScanMoves (pattern : Text) (run : ScanRun V) :
    GeneratorAction V → ScanRun V → List ScanEvent → Prop
  | scan {a : ScanAction V} {stream : ScanStream V} (h : run.stream.step pattern a = some stream) :
      ScanMoves pattern run (.scan a) { run with stream } []
  | take {keys : List Text} {iteration : Iteration Text} (hphase : run.phase = .yielding [])
      (h : run.stream.iteration.takePage = some (keys, iteration)) :
      ScanMoves pattern run .take
        { stream := { run.stream with iteration }, phase := .yielding keys } []
  | next {key : Text} {keys : List Text} (hphase : run.phase = .yielding (key :: keys)) :
      ScanMoves pattern run .next { run with phase := .yielding keys } [.yielded key]
  | close {keys : List Text} (hphase : run.phase = .yielding keys) :
      ScanMoves pattern run .close { run with phase := .closed } []
  | fail {reason : Reason} (hphase : run.phase = .yielding [])
      (h : run.stream.failure = some reason) :
      ScanMoves pattern run .fail { run with phase := .threw (.raw reason) } [.threw (.raw reason)]
  | finish (hphase : run.phase = .yielding []) (h : run.stream.iteration.isDone = true) :
      ScanMoves pattern run .finish { run with phase := .returned } [.returned]

section Steps

variable {pattern : Text} {run run' : ScanRun V} {a : GeneratorAction V} {more : List ScanEvent}

/-- Every step of the generator is one of the moves. The cases are the actions;
each guard of the code is one hypothesis of the move. -/
theorem generatorStep_moves (h : generatorStep pattern run a = some (run', more)) :
    ScanMoves pattern run a run' more := by
  cases a with
  | scan a =>
      obtain ⟨stream, hstream, heq⟩ := Option.map_eq_some_iff.mp h
      obtain ⟨rfl, rfl⟩ := Prod.mk.inj heq
      exact .scan hstream
  | take =>
      simp only [generatorStep] at h
      split at h
      · rename_i hphase htake
        obtain ⟨rfl, rfl⟩ := Prod.mk.inj (Option.some.inj h)
        exact .take hphase htake
      · cases h
  | next =>
      simp only [generatorStep] at h
      split at h
      · rename_i hphase
        obtain ⟨rfl, rfl⟩ := Prod.mk.inj (Option.some.inj h)
        exact .next hphase
      · cases h
  | close =>
      simp only [generatorStep] at h
      split at h
      · rename_i hphase
        obtain ⟨rfl, rfl⟩ := Prod.mk.inj (Option.some.inj h)
        exact .close hphase
      · cases h
  | fail =>
      simp only [generatorStep] at h
      split at h
      · rename_i hphase hfailure
        obtain ⟨rfl, rfl⟩ := Prod.mk.inj (Option.some.inj h)
        exact .fail hphase hfailure
      · cases h
  | finish =>
      simp only [generatorStep] at h
      split at h
      · rename_i hphase
        split at h
        · rename_i hdone
          obtain ⟨rfl, rfl⟩ := Prod.mk.inj (Option.some.inj h)
          exact .finish hphase hdone
        · cases h
      · cases h

/-- Only the others change the store. -/
theorem generatorStep_store (h : generatorStep pattern run a = some (run', more))
    (halone : ∀ changes, a ≠ .scan (.others changes)) : run'.stream.store = run.stream.store := by
  cases generatorStep_moves h with
  | scan hstream =>
      rcases ScanStream.step_cases hstream with ⟨_, _, _, -, rfl, -⟩ | ⟨_, -, rfl⟩ |
        ⟨changes, rfl, -⟩
      · rfl
      · rfl
      · exact absurd rfl (halone changes)
  | take | next | close | fail | finish => rfl

/-- A key that was there all the time and is still there has been there all
the time: only changes of the keyspace count, and none of the other steps
makes any. -/
theorem generatorStep_steady (h : generatorStep pattern run a = some (run', more)) {key : Text}
    (hsteady : key ∈ run.stream.iteration.steady) (hkey : key ∈ run'.stream.store) :
    key ∈ run'.stream.iteration.steady := by
  cases generatorStep_moves h with
  | scan hstream => exact ScanStream.step_steady hstream hsteady hkey
  | take _ htake =>
      rw [(Iteration.takePage_eq_some htake).2.1]
      exact hsteady
  | next | close | fail | finish => exact hsteady

end Steps

/-! ## Runs -/

/-- The keys of the chunk that are still to be yielded. -/
def ScanPhase.inHand : ScanPhase → List Text
  | yielding keys => keys
  | _ => []

section Runs

variable {pattern : Text} {store : Keyspace V} {as : List (GeneratorAction V)} {run : ScanRun V}
  {out : List ScanEvent}

variable (pattern store) in
/-- The key has been there at some moment. -/
def PresentOnce (as : List (GeneratorAction V)) (out : List ScanEvent) (key : Text) : Prop :=
  (scanMachine pattern store).Sometime as out fun run => key ∈ run.stream.store

variable (pattern store) in
/-- The key has been missing at some moment. -/
def AbsentOnce (as : List (GeneratorAction V)) (out : List ScanEvent) (key : Text) : Prop :=
  (scanMachine pattern store).Sometime as out fun run => key ∉ run.stream.store

variable (pattern store) in
/-- What holds of a run: what was read was selected and there, and what was
taken is in hand or yielded. -/
structure ScanInv (as : List (GeneratorAction V)) (out : List ScanEvent) (run : ScanRun V) :
    Prop where
  ran : (scanMachine pattern store).run as = some (run, out)
  found : ∀ key, key ∈ run.stream.iteration.pages.flatten ∨ key ∈ run.phase.inHand →
    Glob.stringmatchlen pattern key = true ∧ PresentOnce pattern store as out key
  covered : ∀ keys, run.phase = .yielding keys → ∃ taken, run.stream.iteration.Covers taken ∧
    ∀ key ∈ taken, key ∈ keys ∨ .yielded key ∈ out

/-- At the start nothing was taken and nothing yielded. -/
theorem ScanInv.init : ScanInv pattern store [] [] (scanMachine pattern store).init := by
  refine ⟨rfl, fun key hkey => ?_, fun keys _ => ⟨[], Iteration.Covers.begin _, by simp⟩⟩
  rcases hkey with hkey | hkey
  all_goals cases hkey

/-- A page is read, the stream fails, or the others act. What is read was there
at the time and is selected; what the others change is only noted. -/
theorem ScanInv.scan (h : ScanInv pattern store as out run) {a : ScanAction V}
    {stream : ScanStream V} (hstream : run.stream.step pattern a = some stream) :
    (∀ key, key ∈ stream.iteration.pages.flatten →
      key ∈ run.stream.iteration.pages.flatten ∨
        Glob.stringmatchlen pattern key = true ∧ PresentOnce pattern store as out key) ∧
    ∀ taken, run.stream.iteration.Covers taken → stream.iteration.Covers taken := by
  rcases ScanStream.step_cases hstream with ⟨keys, last, iteration, -, rfl, hread⟩ | ⟨_, -, rfl⟩ |
    ⟨_, -, rfl⟩
  · obtain ⟨hheld, -, hpages, hcovers⟩ := Iteration.readPage_eq_some hread
    refine ⟨fun key hkey => ?_, hcovers⟩
    rw [hpages, List.flatten_append] at hkey
    rcases List.mem_append.mp hkey with hkey | hkey
    · exact .inl hkey
    · obtain ⟨hpresent, hmatch⟩ : key ∈ run.stream.store ∧
          Glob.stringmatchlen pattern key = true := by
        simpa using hheld key (by simpa using hkey)
      exact .inr ⟨hmatch, .now h.ran hpresent⟩
  · exact ⟨fun _ => .inl, fun _ => id⟩
  · exact ⟨fun _ => .inl, fun _ hcovers => hcovers.notice _⟩

/-- **One step of a run.** One case for each move; a key that is yielded comes
from the page in hand, and was there when that page was read. -/
theorem ScanInv.step (h : ScanInv pattern store as out run) {a : GeneratorAction V}
    {run' : ScanRun V} {more : List ScanEvent}
    (hstep : generatorStep pattern run a = some (run', more)) :
    ScanInv pattern store (as ++ [a]) (out ++ more) run' := by
  have hran := (scanMachine pattern store).runFrom_snoc h.ran hstep
  suffices hkeep : (∀ key, key ∈ run'.stream.iteration.pages.flatten ∨ key ∈ run'.phase.inHand →
        (key ∈ run.stream.iteration.pages.flatten ∨ key ∈ run.phase.inHand) ∨
          Glob.stringmatchlen pattern key = true ∧ PresentOnce pattern store as out key) ∧
      ∀ keys, run'.phase = .yielding keys → ∃ taken, run'.stream.iteration.Covers taken ∧
        ∀ key ∈ taken, key ∈ keys ∨ .yielded key ∈ out ++ more by
    refine ⟨hran, fun key hkey => ?_, hkeep.2⟩
    obtain ⟨hmatch, hpresent⟩ := (hkeep.1 key hkey).elim (h.found key) id
    exact ⟨hmatch, hpresent.append a more⟩
  cases generatorStep_moves hstep with
  | scan hstream =>
      obtain ⟨hpages, hcovers⟩ := h.scan hstream
      refine ⟨fun key hkey => ?_, fun keys hphase => ?_⟩
      · rcases hkey with hkey | hkey
        · exact (hpages key hkey).imp_left .inl
        · exact .inl (.inr hkey)
      · obtain ⟨taken, htaken, hall⟩ := h.covered keys hphase
        exact ⟨taken, hcovers taken htaken, by simpa using hall⟩
  | take hphase htake =>
      obtain ⟨hpages, -, hcovers⟩ := Iteration.takePage_eq_some htake
      refine ⟨fun key hkey => .inl (.inl ?_), fun keys hkeys => ?_⟩
      · rw [hpages, List.flatten_cons]
        rcases hkey with hkey | hkey
        · exact List.mem_append_right _ hkey
        · exact List.mem_append_left _ hkey
      · obtain rfl := ScanPhase.yielding.inj hkeys
        obtain ⟨taken, htaken, hall⟩ := h.covered [] hphase
        refine ⟨_, hcovers taken htaken, fun key hkey => ?_⟩
        rcases List.mem_append.mp hkey with hkey | hkey
        · exact .inr (by simpa using hall key hkey)
        · exact .inl hkey
  | @next key keys hphase =>
      refine ⟨fun other hkey => .inl (hkey.imp_right fun hkey => ?_), fun keys' hkeys => ?_⟩
      · rw [hphase]
        exact List.mem_cons_of_mem _ hkey
      · obtain rfl := ScanPhase.yielding.inj hkeys
        obtain ⟨taken, htaken, hall⟩ := h.covered _ hphase
        refine ⟨taken, htaken, fun other hother => ?_⟩
        rcases hall other hother with hhand | hout
        · rcases List.mem_cons.mp hhand with rfl | hlater
          · exact .inr (by simp)
          · exact .inl hlater
        · exact .inr (List.mem_append_left _ hout)
  | close hphase =>
      exact ⟨fun key hkey => .inl (.inl (hkey.resolve_right List.not_mem_nil)),
        fun _ hkeys => by cases hkeys⟩
  | fail hphase hfailure =>
      exact ⟨fun key hkey => .inl (.inl (hkey.resolve_right List.not_mem_nil)),
        fun _ hkeys => by cases hkeys⟩
  | finish hphase hdone =>
      exact ⟨fun key hkey => .inl (.inl (hkey.resolve_right List.not_mem_nil)),
        fun _ hkeys => by cases hkeys⟩

/-- The invariant holds after every run, by its step lemma. -/
theorem scanInv_run (hrun : (scanMachine pattern store).run as = some (run, out)) :
    ScanInv pattern store as out run :=
  (scanMachine pattern store).run_induction .init (fun _ _ _ _ _ _ h hstep => h.step hstep) hrun

/-- **What is yielded.** A key that is yielded is selected, and was there at
some moment before. -/
theorem yielded_run (hrun : (scanMachine pattern store).run as = some (run, out))
    {before after : List ScanEvent} {key : Text} (hout : out = before ++ .yielded key :: after) :
    Glob.stringmatchlen pattern key = true ∧ PresentOnce pattern store as before key := by
  obtain ⟨earlier, a, run₁, run₂, seen, start, rest, hearlier, hrun₁, hstep, rfl⟩ :=
    (scanMachine pattern store).run_output hrun hout
  generalize hmore : start ++ .yielded key :: rest = more at hstep
  cases generatorStep_moves hstep with
  | @next key' keys hphase =>
      obtain rfl := ScanEvent.yielded.inj (Machine.cut_singleton hmore).2
      obtain ⟨hmatch, hpresent⟩ := (scanInv_run hrun₁).found key (.inr (by
        rw [hphase]
        exact List.mem_cons_self))
      exact ⟨hmatch, hpresent.mono hearlier (List.prefix_append _ _)⟩
  | fail | finish => cases (Machine.cut_singleton hmore).2
  | scan | take | close => simp at hmore

/-- **What a scan that ends has yielded.** Every selected key of the store was
yielded, or was absent at some moment of the scan. -/
theorem returned_run (hrun : (scanMachine pattern store).run as = some (run, out))
    {before after : List ScanEvent} (hout : out = before ++ .returned :: after) :
    ∀ key ∈ store, Glob.stringmatchlen pattern key = true →
      .yielded key ∈ before ∨ AbsentOnce pattern store as before key := by
  obtain ⟨earlier, a, run₁, run₂, seen, start, rest, hearlier, hrun₁, hstep, rfl⟩ :=
    (scanMachine pattern store).run_output hrun hout
  generalize hmore : start ++ .returned :: rest = more at hstep
  intro key hkey hmatch
  cases generatorStep_moves hstep with
  | finish hphase hdone =>
      obtain ⟨taken, hcovers, htaken⟩ := (scanInv_run hrun₁).covered [] hphase
      rcases steady_or_absent ScanRun.stream (fun _ _ _ _ _ hstep => generatorStep_steady hstep)
        hrun₁ (ScanStream.mem_start.mpr ⟨hkey, hmatch⟩) with hsteady | habsent
      · have hyielded := htaken key (hcovers.complete hdone key hsteady)
        exact .inl (List.mem_append_left _ (hyielded.resolve_left List.not_mem_nil))
      · exact .inr (habsent.mono hearlier (List.prefix_append _ _))
  | next | fail => cases (Machine.cut_singleton hmore).2
  | scan | take | close => simp at hmore

/-- Without the others the store stays as it is. -/
theorem scan_store (hrun : (scanMachine pattern store).run as = some (run, out))
    (halone : ∀ changes, .scan (.others changes) ∉ as) : run.stream.store = store := by
  refine (scanMachine pattern store).run_induction
    (I := fun as _ run => (∀ changes, .scan (.others changes) ∉ as) → run.stream.store = store)
    (fun _ => rfl) ?_ hrun halone
  intro hist seen run a run' more h hstep hnone
  rw [generatorStep_store hstep fun changes ha => hnone changes (by simp [ha])]
  exact h fun changes hmem => hnone changes (List.mem_append_left _ hmem)

end Runs

/-! ## Scans of a service -/

section Service

variable {T : Type} {service : CacheService T} {keyPrefix pattern fullPattern : Text}

/-- What a composed pattern selects is in the namespace. -/
theorem region_of_patternFor (haccepted : AcceptedNamespace service.keyBuilder.nameSpace
      service.keyBuilder.separator)
    (hsep : ∀ c ∈ service.keyBuilder.separator, c ∉ GLOB_METACHARACTERS) {operation : String}
    (hpattern : service.patternFor operation keyPrefix pattern = .ok fullPattern) {key : Text}
    (hmatch : Glob.stringmatchlen fullPattern key = true) : service.keyBuilder.FlushRegion key := by
  obtain ⟨-, -, rfl⟩ := KeyBuilder.build_eq_ok.mp (patternFor_eq_ok service hpattern)
  have hne : service.keyBuilder.getNamespacePrefix ≠ [] := by
    simp [KeyBuilder.getNamespacePrefix, haccepted.nonempty]
  obtain ⟨rest, rfl, -⟩ := (selectsUnder_append (literal_namespacePrefix haccepted hsep) hne
    (keyPrefix ++ service.keyBuilder.separator ++ pattern) key).mp
      (by simpa [KeyBuilder.getNamespacePrefix] using hmatch)
  exact List.prefix_append _ rest

/-- **A scan alone** yields the keys that the dialogue of `scan` returns,
however the stream has cut its pages. -/
theorem scan_undisturbed {U : Type}
    {answer : Keyspace U → (c : ServiceCommand) → Keyspace U × ServiceReply V c}
    (hanswer : AnswersPatterns answer)
    (hpattern : service.patternFor "scan" keyPrefix pattern = .ok fullPattern) (count : JsNumber)
    {store : Keyspace U} {as : List (GeneratorAction U)} {run : ScanRun U} {out : List ScanEvent}
    (hrun : (scanMachine fullPattern store).run as = some (run, out))
    (halone : ∀ changes, .scan (.others changes) ∉ as) (hreturned : .returned ∈ out) :
    ∃ found, ((service.scan keyPrefix pattern count).exec answer store).result = .ok found ∧
      ∀ key, key ∈ found ↔ .yielded key ∈ out := by
  obtain ⟨chunks, hchunks, hselects⟩ := hanswer.scanStream store fullPattern count
  refine ⟨chunks.flatten, ?_, fun key => ?_⟩
  · rw [scan_result, hpattern]
    show (awaitReply (answer store (.scanStream fullPattern count)).2).bind _ = _
    rw [hchunks]
    rfl
  · have hsame : ∀ {earlier : List (GeneratorAction U)} {run₁ : ScanRun U} {seen : List ScanEvent},
        earlier <+: as → (scanMachine fullPattern store).run earlier = some (run₁, seen) →
        run₁.stream.store = store := fun hearlier hrun₁ =>
      scan_store hrun₁ fun changes hmem => halone changes (hearlier.subset hmem)
    rw [hselects key]
    constructor
    · rintro ⟨hkey, hmatch⟩
      obtain ⟨before, after, hout⟩ := List.append_of_mem hreturned
      rcases returned_run hrun hout key hkey hmatch with hyielded |
        ⟨_, _, _, hearlier, -, hrun₁, habsent⟩
      · rw [hout]
        exact List.mem_append_left _ hyielded
      · exact absurd hkey (hsame hearlier hrun₁ ▸ habsent)
    · intro hyielded
      obtain ⟨before, after, hout⟩ := List.append_of_mem hyielded
      obtain ⟨hmatch, _, _, _, hearlier, -, hrun₁, hpresent⟩ := yielded_run hrun hout
      exact ⟨hsame hearlier hrun₁ ▸ hpresent, hmatch⟩

/-- **A scan among others.** In every run of `scan` beside clients that write
and remove keys, whatever the stream reads ahead and wherever the caller
leaves: every key it yields is a key of the namespace that its pattern selects
and that was there at some moment before; and if it ends, every selected key
that was there when it was called has been yielded or was missing at some
moment before. -/
theorem scan_covers (rt : UrlRuntime) (options : BymaxCacheModuleOptions)
    (resolved : ResolvedOptions) (haccepted : resolveOptions rt options = .ok resolved)
    (hsep : ∀ c ∈ resolved.keySeparator, c ∉ GLOB_METACHARACTERS) (service : CacheService T)
    (hservice : service.keyBuilder = .ofOptions resolved) {keyPrefix pattern fullPattern : Text}
    (hpattern : service.patternFor "scan" keyPrefix pattern = .ok fullPattern) (store : Keyspace V)
    {as : List (GeneratorAction V)} {run : ScanRun V} {out : List ScanEvent}
    (hrun : (scanMachine fullPattern store).run as = some (run, out)) :
    (∀ before key after, out = before ++ .yielded key :: after →
      service.keyBuilder.FlushRegion key ∧ Glob.stringmatchlen fullPattern key = true ∧
        PresentOnce fullPattern store as before key) ∧
      ∀ before after, out = before ++ .returned :: after →
        ∀ key ∈ store, Glob.stringmatchlen fullPattern key = true →
          .yielded key ∈ before ∨ AbsentOnce fullPattern store as before key := by
  have hnamespace : AcceptedNamespace service.keyBuilder.nameSpace
      service.keyBuilder.separator := by
    rw [hservice]
    exact acceptedNamespace_of_resolveOptions haccepted
  have hliteral : ∀ c ∈ service.keyBuilder.separator, c ∉ GLOB_METACHARACTERS := by
    rw [hservice]
    exact hsep
  refine ⟨fun before key after hout => ?_, fun before after hout => returned_run hrun hout⟩
  obtain ⟨hmatch, hpresent⟩ := yielded_run hrun hout
  exact ⟨region_of_patternFor hnamespace hliteral hpattern hmatch, hmatch, hpresent⟩

end Service

/-- Two users. -/
def twoUsers : Keyspace Unit :=
  (AList.singleton "app:users:a".toList ()).insert "app:users:b".toList ()

/-- The first user is on two pages, and the second is removed before it
is on one. -/
def removedMeanwhile : List (GeneratorAction Unit) :=
  [.scan (.page ["app:users:a".toList] false), .take, .next,
    .scan (.others [("app:users:b".toList, none)]), .scan (.page ["app:users:a".toList] true),
    .take, .next, .finish]

/-- The first user is yielded twice, and the second was missing at some
moment. -/
theorem scan_covers_removed :
    ∃ run, (scanMachine "app:users:*".toList twoUsers).run removedMeanwhile =
        some (run, [.yielded "app:users:a".toList, .yielded "app:users:a".toList, .returned]) ∧
      AbsentOnce "app:users:*".toList twoUsers removedMeanwhile
        [.yielded "app:users:a".toList, .yielded "app:users:a".toList] "app:users:b".toList := by
  have hrun : (scanMachine "app:users:*".toList twoUsers).run removedMeanwhile =
    some (_, [.yielded "app:users:a".toList, .yielded "app:users:a".toList, .returned]) := rfl
  have hsep : ∀ c ∈ defaultOptions.keySeparator, c ∉ GLOB_METACHARACTERS := by
    intro c hc
    obtain rfl : c = ':' := List.mem_singleton.mp hc
    decide
  have hpattern : numberService.patternFor "scan" "users".toList "*".toList =
    .ok "app:users:*".toList := rfl
  have hcovers := scan_covers noUrls { connection := some { host := some "localhost".toList } }
    defaultOptions rfl hsep numberService rfl hpattern twoUsers hrun
  refine ⟨_, hrun, ?_⟩
  have hyielded := hcovers.2 [_, _] [] rfl "app:users:b".toList (by decide) (by decide)
  exact hyielded.resolve_left (by decide)

end NestCache
