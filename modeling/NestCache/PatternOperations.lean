import NestCache.PubSubDelivery
import NestCache.Refusals

/-!
# Operations by pattern

`keys`, `scan` and `psubscribe` put the namespace in front of the caller's
pattern and leave the matching to the server.  A literal word in front of a
pattern selects the extensions of the word by what the pattern selects, so the
composition confines every pattern to the namespace, and to the prefix when the
prefix has no metacharacter of its own.  The rest may be empty: the server's
matcher takes no empty word for `*` on its own, but it does behind a literal.

* `keys_result`, `scan_result` — one composed pattern, one command;
* `sent_run`, `started_run` — the patterns a run subscribes to and the
  messages its handlers see;
* `patterns_compose` — both together, for every accepted namespace;
* `keys_empty_rest` — a key that ends with its prefix is returned for `*`, which
  does not match its empty rest.
-/

namespace NestCache

open Dialogue

/-! ## Composed patterns -/

/-- A word free of metacharacters is literal for the server's matcher. -/
theorem special_eq_false {w : Text} (hw : ∀ c ∈ w, c ∉ GLOB_METACHARACTERS) :
    ∀ c ∈ w, Glob.special c = false := by
  intro c hc
  simpa [special_eq_contains] using hw c hc

/-- The server selects with `full` the words that extend `head` by a rest that
it selects with `pattern`; an empty rest goes with stars only. -/
def SelectsUnder (head pattern full : Text) : Prop :=
  ∀ word, Glob.stringmatchlen full word = true ↔
    ∃ rest, word = head ++ rest ∧ Glob.selectsRest pattern rest = true

/-- A literal word in front of any pattern cuts the selected words there. -/
theorem selectsUnder_append {head : Text} (hhead : ∀ c ∈ head, c ∉ GLOB_METACHARACTERS)
    (hne : head ≠ []) (pattern : Text) : SelectsUnder head pattern (head ++ pattern) := by
  intro word
  simp only [Glob.selectsRest_eq_globMatch]
  exact Glob.stringmatchlen_literal_append (special_eq_false hhead) hne pattern word

/-- The metacharacters of an accepted namespace prefix are those of the
separator. -/
theorem literal_namespacePrefix {kb : KeyBuilder} (h : AcceptedNamespace kb.nameSpace kb.separator)
    (hsep : ∀ c ∈ kb.separator, c ∉ GLOB_METACHARACTERS) :
    ∀ c ∈ kb.getNamespacePrefix, c ∉ GLOB_METACHARACTERS := by
  intro c hc
  rcases List.mem_append.mp hc with hc | hc
  · exact h.no_metacharacter c hc
  · exact hsep c hc

/-! ## Keys by pattern -/

/-- `KEYS` and a complete `SCAN` with the server's matcher: the replies hold
the keys that the pattern selects, and a scan may yield one twice. -/
structure AnswersPatterns {U V : Type}
    (answer : Keyspace U → (c : ServiceCommand) → Keyspace U × ServiceReply V c) : Prop where
  keys : ∀ store pattern, ∃ found, (answer store (.keys pattern)).2 = .ok found ∧
    ∀ key, key ∈ found ↔ key ∈ store ∧ Glob.stringmatchlen pattern key = true
  scanStream : ∀ store pattern count, ∃ chunks : List (List Text),
    (answer store (.scanStream pattern count)).2 = .ok chunks ∧
    ∀ key, key ∈ chunks.flatten ↔ key ∈ store ∧ Glob.stringmatchlen pattern key = true

section Keys

variable {T U V : Type} (service : CacheService T)

/-- The preparations of `keys` and `scan`: the composed pattern, and a client
that has a usable iteration. -/
def CacheService.patternFor (operation : String) (keyPrefix pattern : Text) : Except Thrown Text := do
  let fullPattern ← service.keyBuilder.build keyPrefix pattern
  let client ← service.connection.getClient
  if isScannableClient client then return fullPattern
  else throwCache .UNSUPPORTED_IN_CLUSTER [detail "operation" operation]

/-- Both read the reply to one command on the composed pattern. -/
theorem patternFor_request (operation : String) (keyPrefix pattern : Text) {α : Type}
    (p : Text → ServiceDialogue V α) :
    ((service.build keyPrefix pattern).bind fun fullPattern =>
      (service.scannableClient operation).bind fun _ => p fullPattern) =
    (Dialogue.ofExcept (service.patternFor operation keyPrefix pattern)).bind p := by
  unfold CacheService.build CacheService.scannableClient CacheService.patternFor CacheService.client
  cases service.keyBuilder.build keyPrefix pattern with
  | error e => rfl
  | ok fullPattern =>
      cases service.connection.getClient with
      | error e => rfl
      | ok client => cases client <;> rfl

variable (answer : Keyspace U → (c : ServiceCommand) → Keyspace U × ServiceReply V c)
  (store : Keyspace U)

/-- A computation without commands in front of a program throws before it or
hands it its value. -/
theorem exec_ofExcept_bind_result {α β : Type} (x : Except Thrown α)
    (p : α → ServiceDialogue V β) :
    (((Dialogue.ofExcept x).bind p).exec answer store).result =
      x.bind fun a => ((p a).exec answer store).result := by
  cases x <;> rfl

/-- `keys` returns what the server answers for the composed pattern. -/
theorem keys_result (keyPrefix pattern : Text) :
    ((service.keys keyPrefix pattern).exec answer store).result =
      (service.patternFor "keys" keyPrefix pattern).bind fun fullPattern =>
        awaitReply (answer store (.keys fullPattern)).2 := by
  have hshape : service.keys (V := V) keyPrefix pattern = _ :=
    patternFor_request service "keys" keyPrefix pattern fun fullPattern =>
      .request (.keys fullPattern) awaitReply
  rw [hshape, exec_ofExcept_bind_result]
  simp only [exec_request]

/-- `scan` yields the batches of the answer one after the other. -/
theorem scan_result (keyPrefix pattern : Text) (count : JsNumber) :
    ((service.scan keyPrefix pattern count).exec answer store).result =
      (service.patternFor "scan" keyPrefix pattern).bind fun fullPattern =>
        (awaitReply (answer store (.scanStream fullPattern count)).2).bind fun chunks =>
          .ok chunks.flatten := by
  let yields (fullPattern : Text) : ServiceDialogue V (List Text) :=
    (Dialogue.request (.scanStream fullPattern count) awaitReply).bind fun chunks =>
      .ofExcept (.ok chunks.flatten)
  have hshape : service.scan (V := V) keyPrefix pattern count = _ :=
    patternFor_request service "scan" keyPrefix pattern yields
  rw [hshape, exec_ofExcept_bind_result]
  simp only [yields, request_bind_ofExcept, exec_request]

/-- The composed pattern, once nothing is refused. -/
theorem patternFor_eq_ok {operation : String} {keyPrefix pattern fullPattern : Text}
    (h : service.patternFor operation keyPrefix pattern = .ok fullPattern) :
    service.keyBuilder.build keyPrefix pattern = .ok fullPattern := by
  obtain ⟨full, hfull, h⟩ := ok_of_bind_ok h
  obtain ⟨client, -, h⟩ := ok_of_bind_ok h
  cases client with
  | redis =>
      obtain rfl : full = fullPattern := Except.ok.inj h
      exact hfull
  | cluster => cases h

/-- Nothing is refused with a prefix, a pattern and a connection that is
no cluster. -/
theorem patternFor_accepted (operation : String) {keyPrefix pattern : Text}
    (hconnection : service.connection = .connected .redis) (hpre : keyPrefix ≠ [])
    (hpattern : pattern ≠ []) :
    ∃ fullPattern, service.patternFor operation keyPrefix pattern = .ok fullPattern := by
  have hbuild := KeyBuilder.build_eq_ok.mpr
    ⟨hpre, hpattern, @rfl _ (service.keyBuilder.nameSpace ++ service.keyBuilder.separator ++
      keyPrefix ++ service.keyBuilder.separator ++ pattern)⟩
  unfold CacheService.patternFor
  rw [hbuild, hconnection]
  exact ⟨_, rfl⟩

/-- What a read by pattern returns. -/
structure PatternRead (keyPrefix pattern : Text) (result : Except Thrown (List Text)) : Prop where
  /-- It returns unless it is refused. -/
  returned : service.connection = .connected .redis → keyPrefix ≠ [] → pattern ≠ [] →
    ∃ found, result = .ok found
  /-- Whatever the prefix, the keys are keys of the namespace. -/
  confined : ∀ found, result = .ok found → ∀ key ∈ found, service.keyBuilder.FlushRegion key
  /-- With a literal prefix, they are those whose rest the pattern selects. -/
  exact_keys : (∀ c ∈ keyPrefix, c ∉ GLOB_METACHARACTERS) → ∀ found, result = .ok found →
    ∀ key, key ∈ found ↔ key ∈ store ∧ ∃ rest, key = service.keyBuilder.nameSpace ++
      service.keyBuilder.separator ++ keyPrefix ++ service.keyBuilder.separator ++ rest ∧
      Glob.selectsRest pattern rest = true

variable {service store}

/-- A read that returns the keys its composed pattern selects. The namespace
and the separator are literal in the composed pattern, so what it selects is a
key of the namespace whose rest the pattern selects. -/
theorem PatternRead.of_selects (haccepted : AcceptedNamespace service.keyBuilder.nameSpace
      service.keyBuilder.separator)
    (hsep : ∀ c ∈ service.keyBuilder.separator, c ∉ GLOB_METACHARACTERS) (operation : String)
    (keyPrefix pattern : Text) {read : Text → Except Thrown (List Text)}
    (hread : ∀ fullPattern, ∃ found, read fullPattern = .ok found ∧
      ∀ key, key ∈ found ↔ key ∈ store ∧ Glob.stringmatchlen fullPattern key = true) :
    PatternRead service store keyPrefix pattern
      ((service.patternFor operation keyPrefix pattern).bind read) := by
  have hliteral := literal_namespacePrefix haccepted hsep
  have hne : service.keyBuilder.getNamespacePrefix ≠ [] := by
    simp [KeyBuilder.getNamespacePrefix, haccepted.nonempty]
  -- what is returned was selected by the composed pattern
  have hselected : ∀ found, (service.patternFor operation keyPrefix pattern).bind read = .ok found →
      ∀ key, key ∈ found ↔ key ∈ store ∧ Glob.stringmatchlen (service.keyBuilder.nameSpace ++
        service.keyBuilder.separator ++ keyPrefix ++ service.keyBuilder.separator ++ pattern)
        key = true := by
    intro found hfound
    obtain ⟨fullPattern, hfull, hfound⟩ := ok_of_bind_ok hfound
    obtain ⟨-, -, rfl⟩ := KeyBuilder.build_eq_ok.mp (patternFor_eq_ok service hfull)
    obtain ⟨found', hfound', hkeys⟩ := hread _
    obtain rfl : found = found' := Except.ok.inj (hfound.symm.trans hfound')
    exact hkeys
  refine ⟨fun hconnection hpre hpattern => ?_, fun found hfound key hkey => ?_,
    fun hpre found hfound key => ?_⟩
  · obtain ⟨fullPattern, hfull⟩ := patternFor_accepted service operation hconnection hpre hpattern
    obtain ⟨found, hfound, -⟩ := hread fullPattern
    exact ⟨found, by rw [hfull]; exact hfound⟩
  · have hmatch := ((hselected found hfound key).mp hkey).2
    -- the caller's prefix belongs to the pattern here
    obtain ⟨rest, rfl, -⟩ := (selectsUnder_append hliteral hne
      (keyPrefix ++ service.keyBuilder.separator ++ pattern) key).mp
        (by simpa [KeyBuilder.getNamespacePrefix] using hmatch)
    exact List.prefix_append _ rest
  · rw [hselected found hfound key]
    refine and_congr_right fun _ => selectsUnder_append ?_ ?_ pattern key
    · intro c hc
      rcases List.mem_append.mp hc with hc | hc
      · rcases List.mem_append.mp hc with hc | hc
        · exact hliteral c hc
        · exact hpre c hc
      · exact hsep c hc
    · simp [haccepted.nonempty]

end Keys

/-! ## Messages by pattern -/

section Messages

variable {M : Type} {deps : PubSubDeps M}

/-- A subscription is sent for the call that asks for it. A call for a target
that has a subscription already sends nothing. -/
theorem sent_step {s s' : PubSub} {a : PubSubAction} {out : List (PubSubOutput M)}
    (hstep : pubSubStep deps s a = some (s', out)) {t : Target}
    (hsent : .sent ⟨.subscribe, t⟩ ∈ out) :
    ∃ name, a = t.kind.join name ∧ deps.keyBuilder.applyNamespace name = .ok t.name := by
  cases pubSubStep_moves hstep with
  | join kind name =>
      cases hname : deps.keyBuilder.applyNamespace name with
      | error e => simp [PubSub.subscribeTo, hname] at hsent
      | ok fullName =>
          rcases s.subscribeTo_cases deps kind hname with ⟨r, -, heq⟩ | ⟨-, s', -, -, -, heq⟩
          · simp [heq] at hsent
          · obtain rfl : t = ⟨kind, fullName⟩ := by simpa [heq] using hsent
            exact ⟨name, rfl, hname⟩
  | unsubscribe c hlistening =>
      simp only [PubSub.unsubscribe, PubSub.releaseSubscription] at hsent
      split at hsent
      · simp at hsent
      · split at hsent <;> simp at hsent
  | process | settle | emit => simp at hsent
  | microtask onEvent job rest hqueue =>
      exact absurd hsent ((PubSub.runJob_holders deps onEvent { s with queue := rest } job).1 _)
  | finish c event outcome => cases outcome <;> simp [PubSub.finish] at hsent
  | promiseSettles index c event rejection =>
      cases rejection <;> simp [PubSub.promiseSettles] at hsent

/-- Every pattern subscribed to is one that a call passed, namespaced. -/
theorem sent_run {as : List PubSubAction} {s : PubSub} {out : List (PubSubOutput M)}
    (hrun : (pubSubMachine deps).run as = some (s, out)) :
    ∀ t, .sent ⟨.subscribe, t⟩ ∈ out → ∃ name, t.kind.join name ∈ as ∧
      deps.keyBuilder.applyNamespace name = .ok t.name := by
  refine (pubSubMachine deps).run_induction (I := fun as out _ =>
    ∀ t, .sent ⟨.subscribe, t⟩ ∈ out → ∃ name, t.kind.join name ∈ as ∧
      deps.keyBuilder.applyNamespace name = .ok t.name) (by simp) ?_ hrun
  intro hist seen s a s' more hseen hstep t hmem
  rcases List.mem_append.mp hmem with hmem | hmem
  · obtain ⟨name, hcall, hname⟩ := hseen t hmem
    exact ⟨name, List.mem_append_left _ hcall, hname⟩
  · obtain ⟨name, rfl, hname⟩ := sent_step hstep hmem
    exact ⟨name, by simp, hname⟩

/-- What is heard was emitted, to a listener attached for its target. The
induction is on the outputs, with what the listener is attached for. -/
theorem emitted_of_heardFrom {c : Nat} {event : ServerEvent} {on : Option Target}
    {out : List (PubSubOutput M)} (h : event ∈ heardFrom c on out) :
    .emitted event ∈ out ∧ (on = some event.target ∨ .subscribed c event.target ∈ out) := by
  induction out generalizing on with
  | nil => cases h
  | cons o out ih =>
      rcases List.mem_append.mp h with h | h
      · cases o with
        | emitted event' =>
            simp only [heardIn] at h
            split at h
            · rename_i hon
              obtain rfl := List.mem_singleton.mp h
              exact ⟨List.mem_cons_self, Or.inl hon⟩
            · cases h
        | _ => cases h
      · obtain ⟨hemitted, hattached⟩ := ih h
        refine ⟨List.mem_cons_of_mem _ hemitted, ?_⟩
        rcases hattached with hon | hattached
        · cases o with
          | subscribed c' t =>
              simp only [attachedTo] at hon
              split at hon
              · subst c'
                obtain rfl := Option.some.inj hon
                exact Or.inr List.mem_cons_self
              · exact Or.inl hon
          | detached c' =>
              simp only [attachedTo] at hon
              split at hon
              · cases hon
              · exact Or.inl hon
          | _ => exact Or.inl hon
        · exact Or.inr (List.mem_cons_of_mem _ hattached)

/-- A handler is started on an event that the server emitted, for the name of a
call that asked for it. -/
theorem started_run {as : List PubSubAction} {s : PubSub} {out : List (PubSubOutput M)}
    (hrun : (pubSubMachine deps).run as = some (s, out)) {c : Nat} {event : ServerEvent}
    {message : M} (hstarted : .started c event message ∈ out) :
    .emitted event ∈ out ∧ ∃ name, event.target.kind.join name ∈ as ∧
      deps.keyBuilder.applyNamespace name = .ok event.target.name := by
  have hmem : (event, message) ∈ startsOf c out :=
    List.mem_filterMap.mpr ⟨_, hstarted, by simp [PubSubOutput.startOf]⟩
  have hheard : event ∈ heard c out := by
    have hdecoded := ((deliveryInv_run hrun).delivered c).starts ▸ List.mem_append_left _ hmem
    obtain ⟨event', hevent', hdecodes⟩ := List.mem_filterMap.mp hdecoded
    unfold decoded at hdecodes
    split at hdecodes
    · cases hdecodes
      exact hevent'
    · cases hdecodes
  obtain ⟨hemitted, hon | hsubscribed⟩ := emitted_of_heardFrom hheard
  · cases hon
  · exact ⟨hemitted, attached_run hrun hsubscribed⟩

/-- What a namespace makes of a caller's pattern over a run. -/
structure PatternMessages (kb : KeyBuilder) (as : List PubSubAction)
    (out : List (PubSubOutput M)) : Prop where
  /-- A pattern subscribed to selects the channels of the namespace whose rest
  the pattern of the call selects. -/
  sent : ∀ full, .sent ⟨.subscribe, ⟨.pattern, full⟩⟩ ∈ out → ∃ pattern,
    .psubscribe pattern ∈ as ∧ SelectsUnder (kb.nameSpace ++ kb.separator) pattern full
  /-- So do the messages that a handler sees, from a server that emits a message
  to the patterns that match its channel. -/
  started : (∀ full channel raw, .emitted (.pmessage full channel raw) ∈ out →
      Glob.stringmatchlen full channel = true) →
    ∀ c full channel raw message, .started c (.pmessage full channel raw) message ∈ out →
      ∃ pattern rest, .psubscribe pattern ∈ as ∧ channel = kb.nameSpace ++ kb.separator ++ rest ∧
        Glob.selectsRest pattern rest = true

/-- **What a namespace makes of a pattern** holds over every run: what is
subscribed to selects channels of the namespace, and so do the messages that a
handler starts with. -/
theorem patternMessages_run {kb : KeyBuilder} (haccepted : AcceptedNamespace kb.nameSpace kb.separator)
    (hsep : ∀ c ∈ kb.separator, c ∉ GLOB_METACHARACTERS) (hdeps : deps.keyBuilder = kb)
    {as : List PubSubAction} {s : PubSub} {out : List (PubSubOutput M)}
    (hrun : (pubSubMachine deps).run as = some (s, out)) : PatternMessages kb as out := by
  subst hdeps
  have hselects : ∀ {pattern full : Text}, deps.keyBuilder.applyNamespace pattern = .ok full →
      SelectsUnder (deps.keyBuilder.nameSpace ++ deps.keyBuilder.separator) pattern full := by
    intro pattern full hfull
    unfold KeyBuilder.applyNamespace at hfull
    split at hfull
    · cases hfull
    · obtain rfl := Except.ok.inj hfull
      exact selectsUnder_append (literal_namespacePrefix haccepted hsep)
        (by simp [KeyBuilder.getNamespacePrefix, haccepted.nonempty]) pattern
  refine ⟨fun full hsent => ?_, fun hserver c full channel raw message hstarted => ?_⟩
  · obtain ⟨pattern, hcall, hfull⟩ := sent_run hrun _ hsent
    exact ⟨pattern, hcall, hselects hfull⟩
  · obtain ⟨hemitted, pattern, hcall, hfull⟩ := started_run hrun hstarted
    obtain ⟨rest, hchannel, hmatch⟩ := (hselects hfull channel).mp (hserver _ _ _ hemitted)
    exact ⟨pattern, rest, hcall, hchannel, hmatch⟩

end Messages

/-! ## Accepted namespaces -/

/-- **Patterns stay in the namespace.** For accepted options whose separator
has no metacharacter, `keys` and `scan` return keys of the namespace only, and
with a literal prefix exactly those whose rest the pattern selects; a pattern
subscribed to selects exactly the channels of the namespace whose rest the
pattern of the call selects. A rest is selected by the server's matcher, the
empty one by a pattern of stars only. -/
theorem patterns_compose {T U V : Type} (rt : UrlRuntime) (options : BymaxCacheModuleOptions)
    (resolved : ResolvedOptions) (h : resolveOptions rt options = .ok resolved)
    (hsep : ∀ c ∈ resolved.keySeparator, c ∉ GLOB_METACHARACTERS) (service : CacheService T)
    (hservice : service.keyBuilder = .ofOptions resolved)
    (answer : Keyspace U → (c : ServiceCommand) → Keyspace U × ServiceReply V c)
    (hanswer : AnswersPatterns answer) :
    (∀ store keyPrefix pattern, PatternRead service store keyPrefix pattern
        ((service.keys keyPrefix pattern).exec answer store).result ∧
      ∀ count, PatternRead service store keyPrefix pattern
        ((service.scan keyPrefix pattern count).exec answer store).result) ∧
    ∀ (M : Type) (deps : PubSubDeps M), deps.keyBuilder = .ofOptions resolved →
      ∀ as s out, (pubSubMachine deps).run as = some (s, out) →
        PatternMessages (.ofOptions resolved) as out := by
  have haccepted : AcceptedNamespace service.keyBuilder.nameSpace service.keyBuilder.separator := by
    rw [hservice]
    exact acceptedNamespace_of_resolveOptions h
  have hliteral : ∀ c ∈ service.keyBuilder.separator, c ∉ GLOB_METACHARACTERS := by
    rw [hservice]
    exact hsep
  refine ⟨fun store keyPrefix pattern => ⟨?_, fun count => ?_⟩, fun M deps hdeps as s out hrun => ?_⟩
  · rw [keys_result]
    refine .of_selects haccepted hliteral _ _ _ fun fullPattern => ?_
    obtain ⟨found, hfound, hselects⟩ := hanswer.keys store fullPattern
    exact ⟨found, by rw [hfound]; rfl, hselects⟩
  · rw [scan_result]
    refine .of_selects haccepted hliteral _ _ _ fun fullPattern => ?_
    obtain ⟨chunks, hchunks, hselects⟩ := hanswer.scanStream store fullPattern count
    exact ⟨chunks.flatten, by rw [hchunks]; rfl, hselects⟩
  · exact patternMessages_run (acceptedNamespace_of_resolveOptions h) hsep hdeps hrun

/-- A server that answers `KEYS` and `SCAN` in one batch and rejects the
rest. -/
def patternRedis (store : Keyspace Unit) : (c : ServiceCommand) →
    Keyspace Unit × ServiceReply Unit c
  | .keys pattern => (store, .ok (store.keys.filter (Glob.stringmatchlen pattern)))
  | .scanStream pattern _ => (store, .ok (oneBatch store pattern))
  | c => (store, (countingRedis 0 c).2)

/-- A server that filters its keys by its own matcher answers as it has to. -/
theorem patternRedis_answers : AnswersPatterns patternRedis where
  keys store pattern := ⟨_, rfl, by simp [AList.mem_keys]⟩
  scanStream store pattern _ := ⟨_, rfl, scanSelects_oneBatch store pattern⟩

/-- The default namespace, on this server. -/
theorem patterns_compose_default :
    (∀ store keyPrefix pattern, PatternRead numberService store keyPrefix pattern
        ((numberService.keys keyPrefix pattern).exec patternRedis store).result ∧
      ∀ count, PatternRead numberService store keyPrefix pattern
        ((numberService.scan keyPrefix pattern count).exec patternRedis store).result) ∧
    ∀ (M : Type) (deps : PubSubDeps M), deps.keyBuilder = .ofOptions defaultOptions →
      ∀ as s out, (pubSubMachine deps).run as = some (s, out) →
        PatternMessages (.ofOptions defaultOptions) as out := by
  refine patterns_compose noUrls { connection := some { host := some "localhost".toList } }
    defaultOptions rfl (fun c hc => ?_) numberService rfl patternRedis patternRedis_answers
  obtain rfl : c = ':' := List.mem_singleton.mp hc
  decide

/-- A keyspace with one key, which ends with the prefix of `users`. -/
def emptyRestStore : Keyspace Unit := AList.singleton "app:users:".toList ()

/-- **An empty rest.**  `keys` returns a key for the pattern `*` whose rest the
server's matcher does not match against `*`. -/
theorem keys_empty_rest :
    ∃ found, ((numberService.keys "users".toList "*".toList).exec patternRedis
        emptyRestStore).result = .ok found ∧ "app:users:".toList ∈ found ∧
      ¬ ∃ rest, "app:users:".toList = "app".toList ++ ":".toList ++ "users".toList ++
        ":".toList ++ rest ∧ Glob.stringmatchlen "*".toList rest = true := by
  refine ⟨["app:users:".toList], by decide, List.mem_singleton_self _, ?_⟩
  rintro ⟨rest, hkey, hmatch⟩
  obtain rfl : rest = [] := by
    have hlength := congrArg List.length hkey
    rw [List.length_append] at hlength
    exact List.eq_nil_of_length_eq_zero (by simpa using hlength)
  revert hmatch
  decide

end NestCache
