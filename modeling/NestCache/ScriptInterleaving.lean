import NestCache.Fibers
import NestCache.Machine
import NestCache.OptionValidation
import NestCache.ScriptManager

/-!
# Interleaved script calls

The manager's calls run side by side in one process: the registry answers their
local commands, the server answers the rest in any order and with anything that
keeps the contract of `SCRIPT LOAD`, so that it may lose its scripts at any
point.  Between a reply and the next command of a call, every other call and
every registration may happen.

`right_script_runs` holds of every run: a cached SHA is that of its own entry's
source, and whatever a call of `eval` issues names the source that was
registered when the call was made.
-/

namespace NestCache

/-! ## The registry under registrations and loads -/

namespace Registry

/-- The source an entry holds. -/
def luaAt (registry : Registry) (ref : Nat) : Option Text :=
  (registry.entries[ref]?).map ScriptEntry.lua

/-- The source registered under a name. -/
def sourceOf (registry : Registry) (name : Text) : Option Text :=
  (registry.names.lookup name).bind registry.luaAt

/-- Names refer to entries, and a cached SHA is that of the entry's source. -/
structure Coherent (sha1 : Text → Text) (registry : Registry) : Prop where
  refs : ∀ name ref, registry.names.lookup name = some ref → ref < registry.entries.length
  shas : ∀ (ref : Nat) (entry : ScriptEntry) sha, registry.entries[ref]? = some entry →
    entry.sha = some sha → sha = sha1 entry.lua

variable {registry : Registry} {sha1 : Text → Text}

/-- Entries are only added. -/
theorem luaAt_register {ref : Nat} (h : ref < registry.entries.length) (name lua : Text) :
    (registry.register name lua).luaAt ref = registry.luaAt ref := by
  simp only [luaAt, register, List.getElem?_append_left h]

/-- A source stays where it was when another script is registered, even one of
the same name: that takes a new entry. -/
theorem luaAt_some_register {ref : Nat} {lua : Text} (h : registry.luaAt ref = some lua)
    (name lua' : Text) : (registry.register name lua').luaAt ref = some lua := by
  obtain ⟨entry, hentry, -⟩ := Option.map_eq_some_iff.mp h
  rw [luaAt_register (List.getElem?_eq_some_iff.mp hentry).1, h]

/-- Caching a SHA leaves every source. -/
@[simp] theorem luaAt_cacheSha (ref ref' : Nat) (sha : Text) :
    (registry.cacheSha ref sha).luaAt ref' = registry.luaAt ref' := by
  simp only [luaAt, cacheSha, List.getElem?_modify]
  cases registry.entries[ref']? with
  | none => rfl
  | some entry => by_cases h : ref = ref' <;> simp [h]

@[simp] theorem sourceOf_cacheSha (ref : Nat) (sha name : Text) :
    (registry.cacheSha ref sha).sourceOf name = registry.sourceOf name := by
  have hlua : (registry.cacheSha ref sha).luaAt = registry.luaAt :=
    funext fun ref' => luaAt_cacheSha ref ref' sha
  simp only [sourceOf, hlua]
  rfl

/-- A registration replaces what its name stands for and nothing else. -/
theorem Coherent.sourceOf_register (h : registry.Coherent sha1) (name lua sought : Text) :
    (registry.register name lua).sourceOf sought =
      if sought = name then some lua else registry.sourceOf sought := by
  by_cases hname : sought = name
  · subst hname
    simp [sourceOf, register, luaAt]
  · simp only [sourceOf, if_neg hname]
    have hlookup : (registry.register name lua).names.lookup sought =
        registry.names.lookup sought := AList.lookup_insert_ne hname
    rw [hlookup]
    cases href : registry.names.lookup sought with
    | none => rfl
    | some ref => exact luaAt_register (h.refs sought ref href) name lua

/-- The empty registry has nothing to be inconsistent about. -/
theorem Coherent.empty : Registry.empty.Coherent sha1 where
  refs := fun name ref h => by simp [Registry.empty] at h
  shas := fun ref entry sha h => by simp [Registry.empty] at h

/-- Registering puts a new entry without a SHA behind the others, and lets the
name refer to it. -/
theorem Coherent.register (h : registry.Coherent sha1) (name lua : Text) :
    (registry.register name lua).Coherent sha1 where
  refs := by
    intro sought ref href
    simp only [Registry.register, List.length_append, List.length_singleton] at href ⊢
    by_cases hname : sought = name
    · subst hname
      rw [AList.lookup_insert] at href
      obtain rfl : registry.entries.length = ref := Option.some.inj href
      omega
    · rw [AList.lookup_insert_ne hname] at href
      exact Nat.lt_succ_of_lt (h.refs sought ref href)
  shas := by
    intro ref entry sha hentry hsha
    rcases List.mem_append.mp (List.mem_of_getElem? hentry) with hmem | hmem
    · obtain ⟨old, hold⟩ := List.getElem?_of_mem hmem
      exact h.shas old entry sha hold hsha
    · obtain rfl := List.mem_singleton.mp hmem
      cases hsha

/-- Caching the SHA that the server computed for the source of an entry keeps
the registry coherent. -/
theorem Coherent.cacheSha (h : registry.Coherent sha1) {ref : Nat} {lua : Text}
    (hlua : registry.luaAt ref = some lua) : (registry.cacheSha ref (sha1 lua)).Coherent sha1 where
  refs := by
    intro name ref' href
    simp only [Registry.cacheSha, List.length_modify]
    exact h.refs name ref' href
  shas := by
    intro ref' entry sha hentry hsha
    simp only [Registry.cacheSha, List.getElem?_modify, Option.map_eq_map,
      Option.map_eq_some_iff] at hentry
    obtain ⟨old, hold, rfl⟩ := hentry
    by_cases hsame : ref = ref'
    · subst hsame
      simp only [if_true, Option.some.injEq] at hsha
      simp only [luaAt, hold, Option.map_some, Option.some.injEq] at hlua
      simp only [if_true]
      rw [← hsha, hlua]
    · simp only [if_neg hsame] at hsha ⊢
      exact h.shas ref' old sha hold hsha

end Registry

/-! ## The process -/

/-- What a call of the manager resolves to. -/
inductive ScriptResult (V : Type)
  | sha (t : Text)
  | value (v : V)

/-- A call of the manager in progress. -/
abbrev ScriptFiber (V : Type) := Fiber ScriptCommand (ScriptReply V) Thrown (ScriptResult V)

/-- The replies a server may give at one moment: any, except that `SCRIPT LOAD`
resolves to the SHA1 of its argument. -/
structure ScriptReplies (sha1 : Text → Text) (V : Type) where
  respond : (c : ScriptCommand) → ScriptReply V c
  loads : ∀ lua sha, respond (.scriptLoad lua) = .ok sha → sha = sha1 lua

/-- The manager and its calls, by number. -/
structure ScriptProcess (V : Type) where
  registry : Registry
  connection : ConnectionStatus
  fibers : Nat → Option (ScriptFiber V)

/-- A command that a call sends to the server. -/
structure Issued where
  call : Nat
  command : ScriptCommand
  deriving DecidableEq

/-- One thing that can happen.  `resume` runs the next command of a call that
has its reply. -/
inductive ScriptAction (sha1 : Text → Text) (V : Type)
  | register (name lua : Text)
  | load (call : Nat) (name : Text)
  | eval (call : Nat) (name : Text) (keys : List Text) (args : List ScriptArgument)
  | onApplicationBootstrap (loads : List (Nat × Text))
  | shutdown
  | resume (call : Nat)
  | reply (call : Nat) (replies : ScriptReplies sha1 V)

namespace ScriptProcess

variable {V : Type} {sha1 : Text → Text}

/-- Make a call under a fresh number. -/
def launch (s : ScriptProcess V) (call : Nat) (p : ScriptDialogue V (ScriptResult V)) :
    Option (ScriptProcess V × List Issued) :=
  match s.fibers call with
  | some _ => none
  | none =>
      let (registry, fiber, issued) := Fiber.start registryAnswers p s.registry
      some ({ s with registry, fibers := Function.update s.fibers call (some fiber) },
        issued.toList.map (⟨call, ·⟩))

/-- `this.load(name)`. -/
def launchLoad (s : ScriptProcess V) (call : Nat) (name : Text) :
    Option (ScriptProcess V × List Issued) :=
  s.launch call ((ScriptManagerService.load s.connection name).map .sha)

/-- `names.map((name) => this.load(name))`. -/
def launchLoads (s : ScriptProcess V) : List (Nat × Text) → Option (ScriptProcess V × List Issued)
  | [] => some (s, [])
  | (call, name) :: rest =>
      match s.launchLoad call name with
      | none => none
      | some (s', issued) =>
          (s'.launchLoads rest).map fun (t, more) => (t, issued ++ more)

/-- The scripts that `onApplicationBootstrap` loads. -/
def bootstrapNames (options : ResolvedOptions) (s : ScriptProcess V) : List Text :=
  if options.connection.bind (·.lazyConnect) = some true then [] else s.registry.names.keys

/-- Run the next command of a call. -/
def resume (s : ScriptProcess V) (call : Nat) : Option (ScriptProcess V × List Issued) :=
  match s.fibers call with
  | none => none
  | some fiber => (fiber.tick registryAnswers s.registry).map fun (registry, fiber', issued) =>
      ({ s with registry, fibers := Function.update s.fibers call (some fiber') },
        issued.toList.map (⟨call, ·⟩))

/-- Deliver the reply a call waits for. -/
def reply (s : ScriptProcess V) (call : Nat) (replies : ScriptReplies sha1 V) :
    Option (ScriptProcess V × List Issued) :=
  match s.fibers call with
  | none => none
  | some fiber => (fiber.reply replies.respond).map fun fiber' =>
      ({ s with fibers := Function.update s.fibers call (some fiber') }, [])

/-- One step.  The loads of `onApplicationBootstrap` start together, in any
order. -/
def step (options : ResolvedOptions) (s : ScriptProcess V) :
    ScriptAction sha1 V → Option (ScriptProcess V × List Issued)
  | .register name lua => some ({ s with registry := s.registry.register name lua }, [])
  | .load call name => s.launchLoad call name
  | .eval call name keys args =>
      s.launch call ((ScriptManagerService.eval s.connection options.mode name keys args).map .value)
  | .onApplicationBootstrap loads =>
      if (loads.map Prod.snd).Perm (s.bootstrapNames options) then s.launchLoads loads else none
  | .shutdown => some ({ s with connection := .shutDown }, [])
  | .resume call => s.resume call
  | .reply call replies => s.reply call replies

end ScriptProcess

/-- The manager from its construction on. -/
def scriptMachine (sha1 : Text → Text) (V : Type) (options : ResolvedOptions)
    (client : ClientKind) : Machine (ScriptProcess V) (ScriptAction sha1 V) Issued where
  init := { registry := .ofOptions options, connection := .connected client, fibers := fun _ => none }
  step := ScriptProcess.step options

/-! ## What a call may send -/

/-- The scripts registered so far, in order: those of the options first. -/
def registrations {sha1 : Text → Text} {V : Type} (options : ResolvedOptions)
    (history : List (ScriptAction sha1 V)) : List (Text × Text) :=
  (options.scripts.getD []).map (fun definition => (definition.name, definition.lua)) ++
    history.filterMap fun
      | .register name lua => some (name, lua)
      | _ => none

/-- The source registered last under a name. -/
def lastSource (registered : List (Text × Text)) (name : Text) : Option Text :=
  (registered.reverse.find? fun definition => definition.1 = name).map Prod.snd

/-- The command names this source: `SCRIPT LOAD` and `EVAL` carry it, `EVALSHA`
its SHA1, with the keys and arguments of the call. -/
def ScriptCommand.Names (sha1 : Text → Text) (source : Option Text) (keys : List Text)
    (args : List ScriptArgument) : ScriptCommand → Prop
  | .scriptLoad lua => source = some lua
  | .evalsha sha keys' args' => source.map sha1 = some sha ∧ keys' = keys ∧ args' = args
  | .eval lua keys' args' => source = some lua ∧ keys' = keys ∧ args' = args
  | _ => False

/-- What the rest of a call may do: name its source, or cache the SHA of an
entry's own source.  It does not look anything up again. -/
def MaySend (sha1 : Text → Text) (registry : Registry) (source : Option Text) (keys : List Text)
    (args : List ScriptArgument) : ScriptCommand → Prop
  | .cacheSha ref sha => ∃ lua, registry.luaAt ref = some lua ∧ sha = sha1 lua
  | c => c.Names sha1 source keys args

/-- The replies a call can meet. -/
def MayReply (sha1 : Text → Text) {V : Type} : (c : ScriptCommand) → ScriptReply V c → Prop
  | .scriptLoad lua, reply => ∀ sha, reply = .ok sha → sha = sha1 lua
  | _, _ => True

section Calls

variable {V : Type} {sha1 : Text → Text} {registry : Registry} {source : Option Text}
  {keys : List Text} {args : List ScriptArgument}

/-- What may be sent stays so while entries keep their sources. -/
theorem MaySend.mono {registry' : Registry} {c : ScriptCommand}
    (h : MaySend sha1 registry source keys args c)
    (hlua : ∀ ref lua, registry.luaAt ref = some lua → registry'.luaAt ref = some lua) :
    MaySend sha1 registry' source keys args c := by
  cases c with
  | cacheSha ref sha =>
      obtain ⟨lua, href, hsha⟩ := h
      exact ⟨lua, hlua ref lua href, hsha⟩
  | findEntry _ | readEntry _ | scriptLoad _ | evalsha _ _ _ | eval _ _ _ => exact h

/-- `SCRIPT LOAD` of an entry's source and the store of its SHA, followed by
anything that is right for that SHA. -/
theorem sends_scriptLoad {α : Type} {ref : Nat} {lua : Text} (hlua : registry.luaAt ref = some lua)
    (hsource : source = some lua) {k : Text → ScriptDialogue V α}
    (hk : (k (sha1 lua)).Sends (MayReply sha1) (MaySend sha1 registry source keys args)) :
    ((Dialogue.request (.scriptLoad lua) awaitReply).bind fun sha =>
      .send (.cacheSha ref sha) fun _ => k sha : ScriptDialogue V α).Sends (MayReply sha1)
        (MaySend sha1 registry source keys args) := by
  refine Dialogue.Sends.bind ?_ ?_
  · rw [Dialogue.sends_request]
    exact hsource
  · rw [Dialogue.meets_request]
    intro reply hreply sha hsha
    cases reply with
    | error reason => cases hsha
    | ok sha' =>
        obtain rfl : sha' = sha := Except.ok.inj hsha
        obtain rfl := hreply sha' rfl
        exact ⟨⟨lua, hlua, rfl⟩, fun _ _ => hk⟩

/-- `EVALSHA` of the source. -/
theorem sends_evalsha {lua : Text} (hsource : source = some lua) :
    (Dialogue.request (.evalsha (sha1 lua) keys args) awaitReply : ScriptDialogue V V).Sends
      (MayReply sha1) (MaySend sha1 registry source keys args) := by
  rw [Dialogue.sends_request]
  exact ⟨by rw [hsource]; rfl, rfl, rfl⟩

/-- The entry behind a registered name. -/
theorem Registry.Coherent.entry_of_lookup (hregistry : registry.Coherent sha1) {name : Text}
    {ref : Nat} (hname : registry.names.lookup name = some ref) :
    ∃ entry, registry.entries[ref]? = some entry ∧ registry.luaAt ref = some entry.lua ∧
      registry.sourceOf name = some entry.lua := by
  obtain ⟨entry, hentry⟩ : ∃ entry, registry.entries[ref]? = some entry :=
    ⟨_, List.getElem?_eq_getElem (hregistry.refs name ref hname)⟩
  have hlua : registry.luaAt ref = some entry.lua := by
    simp only [Registry.luaAt, hentry, Option.map_some]
  refine ⟨entry, hentry, hlua, ?_⟩
  simp only [Registry.sourceOf, hname, Option.bind_some, hlua]

/-- Looking up a name leaves the registry as it is. -/
theorem registryAnswers_findEntry (name : Text) :
    @registryAnswers V registry (.findEntry name) =
      some (registry, registry.names.lookup name) := rfl

/-- Reading an entry leaves the registry as it is. -/
theorem registryAnswers_readEntry {ref : Nat} {entry : ScriptEntry}
    (hentry : registry.entries[ref]? = some entry) :
    @registryAnswers V registry (.readEntry ref) = some (registry, entry) := by
  simp only [registryAnswers, hentry, Option.getD_some]

open ScriptManagerService

/-- The synchronous part of `load` ends at `SCRIPT LOAD` of the
registered source. -/
theorem advance_load (hregistry : registry.Coherent sha1) (connection : ConnectionStatus)
    (name : Text) (keys : List Text) (args : List ScriptArgument) :
    ∃ rest, Fiber.advance registryAnswers (load connection name : ScriptDialogue V Text) registry =
        (registry, rest) ∧
      rest.Sends (MayReply sha1) (MaySend sha1 registry (registry.sourceOf name) keys args) := by
  unfold load
  rw [Fiber.advance_inner (registryAnswers_findEntry name)]
  cases hname : registry.names.lookup name with
  | none => exact ⟨_, rfl, trivial⟩
  | some ref =>
      obtain ⟨entry, hentry, hlua, hsource⟩ := hregistry.entry_of_lookup hname
      rw [Fiber.advance_inner (registryAnswers_readEntry hentry)]
      split
      · exact ⟨_, rfl, trivial⟩
      · cases connection with
        | shutDown => exact ⟨_, rfl, trivial⟩
        | connected client =>
            exact ⟨_, Fiber.advance_outer rfl, sends_scriptLoad (k := .done) hlua hsource trivial⟩

/-- The synchronous part of `eval` ends at the first command to the server. The
name is looked up and the entry read in one go, so no registration can come
between the two. -/
theorem advance_eval (hregistry : registry.Coherent sha1) (connection : ConnectionStatus)
    (mode : CacheMode) (name : Text) (keys : List Text) (args : List ScriptArgument) :
    ∃ rest, Fiber.advance registryAnswers
        (eval connection mode name keys args : ScriptDialogue V V) registry = (registry, rest) ∧
      rest.Sends (MayReply sha1) (MaySend sha1 registry (registry.sourceOf name) keys args) := by
  unfold eval
  rw [Fiber.advance_inner (registryAnswers_findEntry name)]
  cases hname : registry.names.lookup name with
  | none => exact ⟨_, rfl, trivial⟩
  | some ref =>
      obtain ⟨entry, hentry, hlua, hsource⟩ := hregistry.entry_of_lookup hname
      rw [Fiber.advance_inner (registryAnswers_readEntry hentry)]
      cases connection with
      | shutDown => exact ⟨_, rfl, trivial⟩
      | connected client =>
          change ∃ rest, Fiber.advance registryAnswers (if mode = .cluster then
            evalBody name entry keys args else _) registry = (registry, rest) ∧ _
          by_cases hmode : mode = .cluster
          · rw [if_pos hmode, evalBody]
            by_cases hkeys : keys = []
            · rw [if_pos hkeys]
              exact ⟨_, rfl, trivial⟩
            · rw [if_neg hkeys]
              have heval : (Dialogue.request (.eval entry.lua keys args) awaitReply :
                  ScriptDialogue V V).Sends (MayReply sha1)
                  (MaySend sha1 registry (registry.sourceOf name) keys args) :=
                (Dialogue.sends_request _ _).mpr ⟨hsource, rfl, rfl⟩
              exact ⟨_, Fiber.advance_outer rfl, heval.tryCatch fun _ => trivial⟩
          · rw [if_neg hmode]
            -- the miss handler reloads the source of the entry it holds
            have hhandler : ∀ err : Thrown, (if !(describeError err.reason).includes NOSCRIPT_MARKER
                then .fail (scriptFailed name err) else reloadAndRetry name ref entry keys args :
                  ScriptDialogue V V).Sends (MayReply sha1)
                (MaySend sha1 registry (registry.sourceOf name) keys args) := by
              intro err
              split
              · trivial
              · exact Dialogue.Sends.tryCatch
                  (sends_scriptLoad hlua hsource (sends_evalsha hsource)) fun _ => trivial
            cases hsha : entry.sha with
            | some sha =>
                obtain rfl := hregistry.shas ref entry sha hentry hsha
                simp only [evalCached, shaOrLoad, hsha]
                exact ⟨_, Fiber.advance_outer rfl,
                  Dialogue.Sends.tryCatch (sends_evalsha hsource) hhandler⟩
            | none =>
                have hevalsha := @sends_evalsha V sha1 registry _ keys args entry.lua hsource
                have hload : (((Dialogue.request (.scriptLoad entry.lua) awaitReply).bind fun sha =>
                    .send (.cacheSha ref sha) fun _ => .done sha).bind fun sha =>
                      Dialogue.request (.evalsha sha keys args) awaitReply :
                    ScriptDialogue V V).Sends (MayReply sha1)
                    (MaySend sha1 registry (registry.sourceOf name) keys args) := by
                  rw [Dialogue.bind_assoc]
                  exact sends_scriptLoad hlua hsource hevalsha
                refine ⟨_, ?_, hload.tryCatch hhandler⟩
                simp only [evalCached, shaOrLoad, hsha, load, Dialogue.bind, Dialogue.tryCatch]
                rw [Fiber.advance_inner (registryAnswers_findEntry name)]
                simp only [hname, Dialogue.bind, Dialogue.tryCatch]
                rw [Fiber.advance_inner (registryAnswers_readEntry hentry)]
                simp only [hsha, ConnectionStatus.getClient, Dialogue.ofExcept, Dialogue.bind]
                exact Fiber.advance_outer rfl

end Calls

/-! ## Every run -/

section Runs

variable {V : Type} {sha1 : Text → Text} {options : ResolvedOptions}
  {history : List (ScriptAction sha1 V)}

/-- A call of `eval` and what happened before it. -/
def Made (history : List (ScriptAction sha1 V)) (call : Nat) (name : Text) (keys : List Text)
    (args : List ScriptArgument) (before : List (ScriptAction sha1 V)) : Prop :=
  ∃ after, history = before ++ .eval call name keys args :: after

/-- A call in a longer history was made before the last action, or is the
last action. -/
theorem made_snoc {a : ScriptAction sha1 V} {call : Nat} {name : Text} {keys : List Text}
    {args : List ScriptArgument} {before : List (ScriptAction sha1 V)} :
    Made (history ++ [a]) call name keys args before ↔
      Made history call name keys args before ∨
        (a = .eval call name keys args ∧ before = history) := by
  constructor
  · rintro ⟨after, hsplit⟩
    rcases List.eq_nil_or_concat after with rfl | ⟨after', last, rfl⟩
    · obtain ⟨rfl, hlast⟩ := List.append_inj' hsplit rfl
      exact Or.inr ⟨List.singleton_inj.mp hlast, rfl⟩
    · rw [List.concat_eq_append, ← List.cons_append, ← List.append_assoc] at hsplit
      exact Or.inl ⟨after', (List.append_inj' hsplit rfl).1⟩
  · rintro (⟨after, rfl⟩ | ⟨rfl, rfl⟩)
    · exact ⟨after ++ [a], by simp⟩
    · exact ⟨[], rfl⟩

/-- The source, keys and arguments with which the numbered call was made. -/
def Origin (options : ResolvedOptions) (history : List (ScriptAction sha1 V)) (call : Nat)
    (source : Option Text) (keys : List Text) (args : List ScriptArgument) : Prop :=
  ∀ name keys' args' before, Made history call name keys' args' before →
    source = lastSource (registrations options before) name ∧ keys = keys' ∧ args = args'

/-- A later action does not change how a call was made. -/
theorem Origin.snoc {call : Nat} {source : Option Text} {keys : List Text}
    {args : List ScriptArgument} (h : Origin options history call source keys args)
    {a : ScriptAction sha1 V} (ha : ∀ name keys args, a ≠ .eval call name keys args) :
    Origin options (history ++ [a]) call source keys args := by
  intro name keys' args' before hmade
  rcases made_snoc.mp hmade with hmade | ⟨heq, -⟩
  · exact h name keys' args' before hmade
  · exact absurd heq (ha name keys' args')

/-- A call that was not made as an `eval` has any origin. -/
theorem Origin.of_not_made {call : Nat} (h : ∀ name keys args before,
    ¬ Made history call name keys args before) (source : Option Text) (keys : List Text)
    (args : List ScriptArgument) : Origin options history call source keys args :=
  fun name keys' args' before hmade => absurd hmade (h name keys' args' before)

/-- Every call in progress does what its origin allows, and so did every
command issued so far. -/
structure Served (sha1 : Text → Text)
    (origin : Nat → Option Text → List Text → List ScriptArgument → Prop) (out : List Issued)
    (s : ScriptProcess V) : Prop where
  coherent : s.registry.Coherent sha1
  fibers : ∀ call fiber, s.fibers call = some fiber → ∃ source keys args,
    origin call source keys args ∧
      fiber.rest.Sends (MayReply sha1) (MaySend sha1 s.registry source keys args)
  issued : ∀ i ∈ out, s.fibers i.call ≠ none ∧ ∃ source keys args,
    origin i.call source keys args ∧ i.command.Names sha1 source keys args

variable {origin : Nat → Option Text → List Text → List ScriptArgument → Prop}
  {out more : List Issued} {s s' : ScriptProcess V}

/-- An origin that allows more keeps the calls served, as long as it does so
for the calls that were made. -/
theorem Served.mono (h : Served sha1 origin out s)
    {origin' : Nat → Option Text → List Text → List ScriptArgument → Prop}
    (himp : ∀ call source keys args, s.fibers call ≠ none → origin call source keys args →
      origin' call source keys args) : Served sha1 origin' out s where
  coherent := h.coherent
  fibers := by
    intro call fiber hfiber
    obtain ⟨source, keys, args, horigin, hrest⟩ := h.fibers call fiber hfiber
    exact ⟨source, keys, args, himp _ _ _ _ (by simp [hfiber]) horigin, hrest⟩
  issued := by
    intro i hi
    obtain ⟨hfiber, source, keys, args, horigin, hnames⟩ := h.issued i hi
    exact ⟨hfiber, source, keys, args, himp _ _ _ _ hfiber horigin, hnames⟩

/-- A registry that grew. -/
theorem Served.registry (h : Served sha1 origin out s) {registry : Registry}
    (hcoherent : registry.Coherent sha1)
    (hlua : ∀ ref lua, s.registry.luaAt ref = some lua → registry.luaAt ref = some lua) :
    Served sha1 origin out { s with registry } where
  coherent := hcoherent
  fibers := by
    intro call fiber hfiber
    obtain ⟨source, keys, args, horigin, hrest⟩ := h.fibers call fiber hfiber
    exact ⟨source, keys, args, horigin, hrest.mono fun c hc => hc.mono hlua⟩
  issued := h.issued

/-- One call moves on, issuing at most one command. The registry stays as it
is, and what the call may still send is bounded by its own source, keys and
arguments. -/
theorem Served.update (h : Served sha1 origin out s) {call : Nat} {fiber : ScriptFiber V}
    {source : Option Text} {keys : List Text} {args : List ScriptArgument}
    (horigin : origin call source keys args)
    (hrest : fiber.rest.Sends (MayReply sha1) (MaySend sha1 s.registry source keys args))
    (issued : Option ScriptCommand)
    (hissued : ∀ c, issued = some c → c.Names sha1 source keys args) :
    Served sha1 origin (out ++ issued.toList.map (⟨call, ·⟩))
      { s with fibers := Function.update s.fibers call (some fiber) } where
  coherent := h.coherent
  fibers := by
    intro sought fiber' hfiber
    by_cases hcall : sought = call
    · subst hcall
      obtain rfl : fiber = fiber' := by simpa using hfiber
      exact ⟨source, keys, args, horigin, hrest⟩
    · exact h.fibers sought fiber' (by simpa [hcall] using hfiber)
  issued := by
    intro i hi
    rcases List.mem_append.mp hi with hi | hi
    · obtain ⟨hfiber, hi⟩ := h.issued i hi
      refine ⟨?_, hi⟩
      by_cases hcall : i.call = call <;> simp [hcall, hfiber]
    · obtain ⟨c, hc, rfl⟩ := List.mem_map.mp hi
      exact ⟨by simp, source, keys, args, horigin, hissued c (Option.mem_toList.mp hc)⟩

/-- What a step other than a registration keeps. -/
structure Continues (s s' : ScriptProcess V) : Prop where
  sources : ∀ name, s'.registry.sourceOf name = s.registry.sourceOf name
  begun : ∀ call, s.fibers call ≠ none → s'.fibers call ≠ none

/-- Doing nothing registers nothing. -/
theorem Continues.refl (s : ScriptProcess V) : Continues s s := ⟨fun _ => rfl, fun _ h => h⟩

/-- Two steps that register nothing are such a step. -/
theorem Continues.trans {s₁ s₂ s₃ : ScriptProcess V} (h : Continues s₁ s₂)
    (h' : Continues s₂ s₃) : Continues s₁ s₃ :=
  ⟨fun name => (h'.sources name).trans (h.sources name),
    fun call hcall => h'.begun call (h.begun call hcall)⟩

/-- A call that goes on registers nothing, and is still one that was begun. -/
theorem Continues.update (s : ScriptProcess V) (call : Nat) (fiber : ScriptFiber V) :
    Continues s { s with fibers := Function.update s.fibers call (some fiber) } := by
  refine ⟨fun _ => rfl, fun sought hsought => ?_⟩
  by_cases hcall : sought = call <;> simp [hcall, hsought]

/-- The synchronous part of a call only reads the registry, and what is left
does what `source`, `keys` and `args` allow. -/
def Opens (sha1 : Text → Text) (registry : Registry) (p : ScriptDialogue V (ScriptResult V))
    (source : Option Text) (keys : List Text) (args : List ScriptArgument) : Prop :=
  ∃ rest, Fiber.advance registryAnswers p registry = (registry, rest) ∧
    rest.Sends (MayReply sha1) (MaySend sha1 registry source keys args)

/-- Only the local commands that read are out of bounds for a call that
goes on. -/
theorem MaySend.names {registry : Registry} {c : ScriptCommand} {source : Option Text}
    {keys : List Text} {args : List ScriptArgument} (h : MaySend sha1 registry source keys args c)
    (houter : @registryAnswers V registry c = none) : c.Names sha1 source keys args := by
  cases c with
  | cacheSha ref sha => cases houter
  | findEntry _ | readEntry _ | scriptLoad _ | evalsha _ _ _ | eval _ _ _ => exact h

/-- A call is numbered afresh. -/
theorem ScriptProcess.launch_fresh {call : Nat} {p : ScriptDialogue V (ScriptResult V)}
    (hlaunch : s.launch call p = some (s', more)) : s.fibers call = none := by
  cases hfiber : s.fibers call with
  | none => rfl
  | some fiber => simp [ScriptProcess.launch, hfiber] at hlaunch

/-- **A new call.** Its synchronous part reads the registry at once, so its
origin is the source of the name at this moment. -/
theorem Served.launch (h : Served sha1 origin out s) {call : Nat}
    {p : ScriptDialogue V (ScriptResult V)} (hlaunch : s.launch call p = some (s', more))
    {source : Option Text} {keys : List Text} {args : List ScriptArgument}
    (hopens : Opens sha1 s.registry p source keys args)
    (horigin : s.fibers call = none → origin call source keys args) :
    Served sha1 origin (out ++ more) s' ∧ Continues s s' ∧ s'.fibers call ≠ none := by
  obtain ⟨rest, hadvance, hrest⟩ := hopens
  cases hfiber : s.fibers call with
  | some fiber => simp [ScriptProcess.launch, hfiber] at hlaunch
  | none =>
      simp only [ScriptProcess.launch, hfiber, Fiber.start, hadvance, Option.some.injEq,
        Prod.mk.injEq] at hlaunch
      obtain ⟨rfl, rfl⟩ := hlaunch
      refine ⟨h.update (horigin hfiber) hrest _ fun c hc => ?_, .update s call _, by simp⟩
      have houter : registryAnswers (Fiber.advance registryAnswers p s.registry).1 c = none :=
        Fiber.inner_advance (by rw [hadvance]; exact hc)
      rw [hadvance] at houter
      exact (Fiber.command_allowed hrest hc).names houter

/-- The synchronous part of `load` reads the entry of the name; what is left
may send `SCRIPT LOAD` with the source it has now. -/
theorem opens_load (hregistry : s.registry.Coherent sha1) (name : Text) (keys : List Text)
    (args : List ScriptArgument) :
    @Opens V sha1 s.registry ((ScriptManagerService.load s.connection name).map .sha)
      (s.registry.sourceOf name) keys args := by
  obtain ⟨rest, hadvance, hrest⟩ := advance_load hregistry s.connection name keys args
  exact ⟨rest.map .sha, by rw [Fiber.advance_map, hadvance], hrest.map _⟩

/-- The synchronous part of `eval` reads the entry of the name; what is left
may run the source it has now, with the keys and arguments of the call. -/
theorem opens_eval (hregistry : s.registry.Coherent sha1) (mode : CacheMode) (name : Text)
    (keys : List Text) (args : List ScriptArgument) :
    @Opens V sha1 s.registry ((ScriptManagerService.eval s.connection mode name keys args).map .value)
      (s.registry.sourceOf name) keys args := by
  obtain ⟨rest, hadvance, hrest⟩ := advance_eval hregistry s.connection mode name keys args
  exact ⟨rest.map .value, by rw [Fiber.advance_map, hadvance], hrest.map _⟩

/-- **The loads of the bootstrap.** The induction is on the scripts of the
options, each of which is loaded by a call of its own. -/
theorem Served.launchLoads (h : Served sha1 origin out s) {loads : List (Nat × Text)}
    (hlaunch : s.launchLoads loads = some (s', more))
    (horigin : ∀ call source keys args, s.fibers call = none → origin call source keys args) :
    Served sha1 origin (out ++ more) s' ∧ Continues s s' := by
  induction loads generalizing s out more with
  | nil =>
      simp only [ScriptProcess.launchLoads, Option.some.injEq, Prod.mk.injEq] at hlaunch
      obtain ⟨rfl, rfl⟩ := hlaunch
      exact ⟨by simpa using h, .refl s⟩
  | cons load rest ih =>
      obtain ⟨call, name⟩ := load
      simp only [ScriptProcess.launchLoads] at hlaunch
      split at hlaunch
      · cases hlaunch
      · rename_i s₁ issued hfirst
        obtain ⟨⟨t, later⟩, hrest, heq⟩ := Option.map_eq_some_iff.mp hlaunch
        simp only [Prod.mk.injEq] at heq
        obtain ⟨rfl, rfl⟩ := heq
        obtain ⟨hserved, hkept, -⟩ := h.launch hfirst (opens_load h.coherent name [] [])
          (horigin call _ _ _)
        obtain ⟨hserved, hkept'⟩ := ih hserved hrest fun call source keys args hnone =>
          horigin call source keys args (by_contra fun hsome => hkept.begun call hsome hnone)
        exact ⟨by rw [← List.append_assoc]; exact hserved, hkept.trans hkept'⟩

/-- **A call goes on.** It caches the SHA of the entry it has loaded, or it
sends its next command. -/
theorem Served.resume (h : Served sha1 origin out s) {call : Nat}
    (hresume : s.resume call = some (s', more)) :
    Served sha1 origin (out ++ more) s' ∧ Continues s s' := by
  unfold ScriptProcess.resume at hresume
  cases hfiber : s.fibers call with
  | none => simp [hfiber] at hresume
  | some fiber =>
      simp only [hfiber] at hresume
      obtain ⟨⟨registry, fiber', issued⟩, htick, heq⟩ := Option.map_eq_some_iff.mp hresume
      simp only [Prod.mk.injEq] at heq
      obtain ⟨rfl, rfl⟩ := heq
      obtain ⟨source, keys, args, horigin, hrest⟩ := h.fibers call fiber hfiber
      obtain ⟨hrest', hissued, hlocal⟩ := Fiber.tick_sends htick
        (fun c _ r _ _ => by cases c <;> trivial) hrest
      have hnext := h.update horigin hrest' issued fun c hc =>
        (hissued c hc).1.names (hissued c hc).2.1
      cases issued with
      | some c =>
          obtain rfl := (hissued c rfl).2.2
          exact ⟨hnext, .update s call fiber'⟩
      | none =>
          obtain ⟨c, r, hallowed, hinner⟩ := hlocal rfl
          cases c with
          | findEntry _ => exact hallowed.elim
          | readEntry _ => exact hallowed.elim
          | scriptLoad _ | evalsha _ _ _ | eval _ _ _ => cases hinner
          | cacheSha ref sha =>
              obtain ⟨lua, hlua, rfl⟩ := hallowed
              obtain rfl : s.registry.cacheSha ref (sha1 lua) = registry :=
                congrArg Prod.fst (Option.some.inj hinner)
              refine ⟨hnext.registry (h.coherent.cacheSha hlua) fun ref' lua' hlua' => ?_, ?_⟩
              · rw [Registry.luaAt_cacheSha]
                exact hlua'
              · exact ⟨fun name => Registry.sourceOf_cacheSha ref _ name,
                  (Continues.update s call fiber').begun⟩

/-- **A reply.** The reply of the server is put where the call will read it;
the call goes on in a later step. -/
theorem Served.reply (h : Served sha1 origin out s) {call : Nat} {replies : ScriptReplies sha1 V}
    (hreply : s.reply call replies = some (s', more)) :
    Served sha1 origin (out ++ more) s' ∧ Continues s s' := by
  unfold ScriptProcess.reply at hreply
  cases hfiber : s.fibers call with
  | none => simp [hfiber] at hreply
  | some fiber =>
      simp only [hfiber] at hreply
      obtain ⟨fiber', hstep, heq⟩ := Option.map_eq_some_iff.mp hreply
      simp only [Prod.mk.injEq] at heq
      obtain ⟨rfl, rfl⟩ := heq
      obtain ⟨source, keys, args, horigin, hrest⟩ := h.fibers call fiber hfiber
      have hadmits : ∀ c, MayReply sha1 c (replies.respond c) := by
        intro c
        cases c with
        | scriptLoad lua => exact replies.loads lua
        | _ => trivial
      exact ⟨h.update horigin (Fiber.reply_sends hstep hadmits hrest) none nofun,
        .update s call fiber'⟩

/-- A registration decides what its own name has last, and nothing for
other names. -/
theorem lastSource_snoc (registered : List (Text × Text)) (name lua sought : Text) :
    lastSource (registered ++ [(name, lua)]) sought =
      if sought = name then some lua else lastSource registered sought := by
  simp only [lastSource, List.reverse_append, List.reverse_singleton, List.singleton_append,
    List.find?_cons]
  by_cases h : sought = name
  · simp [h]
  · simp [h, Ne.symm h]

/-- The registry after a list of registrations. The induction is on the
list. -/
theorem coherent_foldl {definitions : List ScriptDefinition} {registry : Registry}
    {registered : List (Text × Text)} (hcoherent : registry.Coherent sha1)
    (hsources : ∀ name, registry.sourceOf name = lastSource registered name) :
    (definitions.foldl (fun registry definition =>
      registry.register definition.name definition.lua) registry).Coherent sha1 ∧
    ∀ name, (definitions.foldl (fun registry definition =>
      registry.register definition.name definition.lua) registry).sourceOf name =
        lastSource (registered ++ definitions.map fun definition =>
          (definition.name, definition.lua)) name := by
  induction definitions generalizing registry registered with
  | nil => exact ⟨hcoherent, by simpa using hsources⟩
  | cons definition rest ih =>
      have hnext := @ih _ (registered ++ [(definition.name, definition.lua)])
        (hcoherent.register definition.name definition.lua) fun name => by
          rw [hcoherent.sourceOf_register, lastSource_snoc, hsources]
      simpa using hnext

/-- What holds after any history. -/
structure ScriptInv (options : ResolvedOptions) (history : List (ScriptAction sha1 V))
    (out : List Issued) (s : ScriptProcess V) : Prop where
  served : Served sha1 (Origin options history) out s
  sources : ∀ name, s.registry.sourceOf name = lastSource (registrations options history) name
  made : ∀ call name keys args before, Made history call name keys args before →
    s.fibers call ≠ none

/-- At the start the scripts of the options are registered, and no call
was made. -/
theorem ScriptInv.init (client : ClientKind) :
    @ScriptInv V sha1 options [] [] (scriptMachine sha1 V options client).init := by
  obtain ⟨hcoherent, hsources⟩ := @coherent_foldl sha1 (options.scripts.getD []) .empty []
    .empty fun name => by simp [Registry.sourceOf, Registry.empty, lastSource]
  refine ⟨⟨hcoherent, ?_, ?_⟩, fun name => ?_, ?_⟩
  · intro call fiber hfiber
    simp [scriptMachine] at hfiber
  · intro i hi
    simp at hi
  · simpa [registrations, scriptMachine, Registry.ofOptions] using hsources name
  · rintro call name keys args before ⟨after, hsplit⟩
    simp at hsplit

/-- An action that makes no call of `eval`. Nothing is registered by it, and no
new call has to be looked up. -/
theorem ScriptInv.snoc (h : ScriptInv options history out s) {a : ScriptAction sha1 V}
    (ha : ∀ call name keys args, a ≠ .eval call name keys args)
    (hregister : ∀ name lua, a ≠ .register name lua)
    (hserved : Served sha1 (Origin options (history ++ [a])) (out ++ more) s')
    (hkept : Continues s s') : ScriptInv options (history ++ [a]) (out ++ more) s' where
  served := hserved
  sources := by
    intro name
    rw [hkept.sources, h.sources]
    cases a with
    | register name' lua => exact absurd rfl (hregister name' lua)
    | _ => simp [registrations]
  made := by
    intro call name keys args before hmade
    rcases made_snoc.mp hmade with hmade | ⟨heq, -⟩
    · exact hkept.begun call (h.made _ _ _ _ _ hmade)
    · exact absurd heq (ha call name keys args)

/-- What was served stays served under a longer history. -/
theorem ScriptInv.served_snoc (h : ScriptInv options history out s) {a : ScriptAction sha1 V}
    (ha : ∀ call name keys args, s.fibers call ≠ none → a ≠ .eval call name keys args) :
    Served sha1 (Origin options (history ++ [a])) out s :=
  h.served.mono fun call _ _ _ hcall horigin => horigin.snoc fun name keys args =>
    ha call name keys args hcall

/-- **One step.** One case for each action; the calls in between are
interleaved freely, replies come in any order, and the server may lose its
scripts at any time. -/
theorem ScriptInv.step (h : ScriptInv options history out s) {a : ScriptAction sha1 V}
    (hstep : ScriptProcess.step options s a = some (s', more)) :
    ScriptInv options (history ++ [a]) (out ++ more) s' := by
  -- a number that is still free was not used by an `eval`
  have hfree : ∀ (a : ScriptAction sha1 V) call, (∀ call name keys args,
      a ≠ .eval call name keys args) → s.fibers call = none → ∀ source keys args,
      Origin options (history ++ [a]) call source keys args := by
    intro a call ha hnone
    refine Origin.of_not_made fun name keys args before hmade => ?_
    rcases made_snoc.mp hmade with hmade | ⟨heq, -⟩
    · exact h.made _ _ _ _ _ hmade hnone
    · exact ha _ _ _ _ heq
  cases a with
  | register name lua =>
      simp only [ScriptProcess.step, Option.some.injEq, Prod.mk.injEq] at hstep
      obtain ⟨rfl, rfl⟩ := hstep
      have hserved := h.served_snoc (a := .register name lua) nofun
      refine ⟨?_, fun sought => ?_, fun call sought keys args before hmade => ?_⟩
      · rw [List.append_nil]
        exact hserved.registry (h.served.coherent.register name lua) fun ref lua' hlua =>
          Registry.luaAt_some_register hlua name lua
      · have hregistrations : registrations options (history ++ [ScriptAction.register name lua]) =
            registrations options history ++ [(name, lua)] := by simp [registrations]
        rw [hregistrations, lastSource_snoc, ← h.sources]
        exact h.served.coherent.sourceOf_register name lua sought
      · rcases made_snoc.mp hmade with hmade | ⟨heq, -⟩
        · exact h.made _ _ _ _ _ hmade
        · cases heq
  | load call name =>
      obtain ⟨hserved, hkept, -⟩ := (h.served_snoc (a := .load call name) nofun).launch hstep
        (opens_load h.served.coherent name [] []) fun hnone =>
          hfree (.load call name) call nofun hnone _ _ _
      exact h.snoc nofun nofun hserved hkept
  | eval call name keys args =>
      have hnone : s.fibers call = none := ScriptProcess.launch_fresh hstep
      have hother : ∀ sought name' keys' args', s.fibers sought ≠ none →
          (.eval call name keys args : ScriptAction sha1 V) ≠ .eval sought name' keys' args' := by
        rintro sought name' keys' args' hsought ⟨⟩
        exact hsought hnone
      have horigin : Origin options (history ++ [.eval call name keys args]) call
          (s.registry.sourceOf name) keys args := by
        intro name' keys' args' before hmade
        rcases made_snoc.mp hmade with hmade | ⟨heq, rfl⟩
        · exact absurd hnone (h.made _ _ _ _ _ hmade)
        · obtain ⟨-, rfl, rfl, rfl⟩ := ScriptAction.eval.inj heq
          exact ⟨h.sources name, rfl, rfl⟩
      obtain ⟨hserved, hkept, hbegun⟩ := (h.served_snoc hother).launch hstep
        (opens_eval h.served.coherent options.mode name keys args) fun _ => horigin
      refine ⟨hserved, fun sought => ?_, fun sought name' keys' args' before hmade => ?_⟩
      · rw [hkept.sources, h.sources]
        simp [registrations]
      · rcases made_snoc.mp hmade with hmade | ⟨heq, -⟩
        · exact hkept.begun sought (h.made _ _ _ _ _ hmade)
        · obtain ⟨rfl, -, -, -⟩ := ScriptAction.eval.inj heq
          exact hbegun
  | onApplicationBootstrap loads =>
      simp only [ScriptProcess.step] at hstep
      split at hstep
      · obtain ⟨hserved, hkept⟩ := (h.served_snoc (a := .onApplicationBootstrap loads)
          nofun).launchLoads hstep fun call source keys args hnone =>
            hfree (.onApplicationBootstrap loads) call nofun hnone source keys args
        exact h.snoc nofun nofun hserved hkept
      · cases hstep
  | shutdown =>
      simp only [ScriptProcess.step, Option.some.injEq, Prod.mk.injEq] at hstep
      obtain ⟨rfl, rfl⟩ := hstep
      have hserved := h.served_snoc (a := .shutdown) nofun
      refine h.snoc nofun nofun ?_ ⟨fun _ => rfl, fun _ hcall => hcall⟩
      rw [List.append_nil]
      exact ⟨hserved.coherent, hserved.fibers, hserved.issued⟩
  | resume call =>
      obtain ⟨hserved, hkept⟩ := (h.served_snoc (a := .resume call) nofun).resume hstep
      exact h.snoc nofun nofun hserved hkept
  | reply call replies =>
      obtain ⟨hserved, hkept⟩ := (h.served_snoc (a := .reply call replies) nofun).reply hstep
      exact h.snoc nofun nofun hserved hkept

end Runs

/-- **The right script runs.**  In every run, whatever the order of calls,
registrations and replies and whatever the server forgets: the SHA an entry
caches is the SHA1 of its own source, and every command of a call of `eval`
names, with the keys and arguments of the call, the source that was registered
last under its name when the call was made. -/
theorem right_script_runs {V : Type} (sha1 : Text → Text) (options : ResolvedOptions)
    (client : ClientKind) {actions : List (ScriptAction sha1 V)} {s : ScriptProcess V}
    {out : List Issued} (hrun : (scriptMachine sha1 V options client).run actions = some (s, out)) :
    (∀ (ref : Nat) (entry : ScriptEntry) sha, s.registry.entries[ref]? = some entry →
      entry.sha = some sha → sha = sha1 entry.lua) ∧
    ∀ before call name keys args after,
      actions = before ++ .eval call name keys args :: after →
      ∀ command, ⟨call, command⟩ ∈ out →
        command.Names sha1 (lastSource (registrations options before) name) keys args := by
  have hinv : ScriptInv options actions out s :=
    (scriptMachine sha1 V options client).run_induction (I := ScriptInv options)
      (.init client) (fun _ _ _ _ _ _ h hstep => h.step hstep) hrun
  refine ⟨hinv.served.coherent.shas, fun before call name keys args after hsplit command hmem => ?_⟩
  obtain ⟨-, source, keys', args', horigin, hnames⟩ := hinv.served.issued _ hmem
  obtain ⟨rfl, rfl, rfl⟩ := horigin name keys args before ⟨after, hsplit⟩
  exact hnames

/-- Options with one script. -/
def countOptions : ResolvedOptions :=
  { defaultOptions with scripts := some [{ name := "count".toList, lua := "return 1".toList }] }

/-- A server that lost its scripts. -/
def forgetfulReplies : ScriptReplies id Unit where
  respond
    | .findEntry _ => none
    | .readEntry _ => default
    | .cacheSha _ _ => ()
    | .scriptLoad lua => .ok lua
    | .evalsha _ _ _ => .error noScriptError
    | .eval _ _ _ => .ok ()
  loads := fun _ _ h => (Except.ok.inj h).symm

/-- A call whose script is replaced while it loads, and lost before it runs. -/
def replacedMeanwhile : List (ScriptAction id Unit) :=
  [.eval 0 "count".toList ["app:a".toList] [], .register "count".toList "return 2".toList,
    .reply 0 forgetfulReplies, .resume 0, .resume 0, .reply 0 forgetfulReplies, .resume 0]

/-- The call loads, tries and reloads the source it was made for. -/
theorem right_script_runs_replaced :
    ((scriptMachine id Unit countOptions .redis).run replacedMeanwhile).map Prod.snd =
      some [⟨0, .scriptLoad "return 1".toList⟩,
        ⟨0, .evalsha "return 1".toList ["app:a".toList] []⟩, ⟨0, .scriptLoad "return 1".toList⟩] ∧
    ∀ s out, (scriptMachine id Unit countOptions .redis).run replacedMeanwhile = some (s, out) →
      ∀ command, ⟨0, command⟩ ∈ out →
        command.Names id (some "return 1".toList) ["app:a".toList] [] :=
  ⟨by decide, fun _ _ hrun => (right_script_runs id countOptions .redis hrun).2 [] 0
    "count".toList ["app:a".toList] [] _ rfl⟩

end NestCache
