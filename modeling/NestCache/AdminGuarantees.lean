import NestCache.CacheAdmin

/-!
# What a scope allowlist guarantees

Two promises of the administration service are examined over every allowlist,
key and server.  Listing and naming agree: the keys a listing returns are those
that describing and revealing accept (`scope_matches_server`).  Withheld values
stay withheld exactly when no readable scope overlaps the unreadable ones at
that key (`valueWithheld_iff`): the service looks at the scope it was given,
not at the other scopes the key lies in.
-/

namespace NestCache

open CacheAdminService

/-- The call refused the scope or the key it was given. -/
def Refuses {α : Type} (result : Except Thrown α) : Prop :=
  ∃ e, result = .error (.cache e) ∧ (e.code = .SCOPE_NOT_FOUND ∨ e.code = .KEY_NOT_IN_SCOPE)

/-- The call never refuses its scope and key, whatever the server replies. -/
def Accepts {α : Type} (call : ConnectionStatus → ReaderDialogue α) : Prop :=
  ∀ (connection : ConnectionStatus) (σ : Type) (server : σ → (c : ReaderCommand) →
      σ × ReaderReply c) (s : σ), ¬ Refuses ((call connection).exec server s).result

/-- Every reply is possible. -/
def anyReply : (c : ReaderCommand) → ReaderReply c → Prop := fun _ _ => True

/-- A scan returns keys its pattern matches; other replies are free. -/
def scanMatches : (c : ReaderCommand) → ReaderReply c → Prop
  | .scan _ pattern _, reply => ∀ cursor batch, reply = .ok (cursor, batch) →
      ∀ key ∈ batch, Glob.stringmatchlen pattern key = true
  | _, _ => True

/-- A server that rejects every command. -/
def downServer : Unit → (c : ReaderCommand) → Unit × ReaderReply c
  | _, .scan _ _ _ | _, .pipeline _ | _, .type _ | _, .ttl _ | _, .get _ | _, .hgetall _
  | _, .smembers _ | _, .lrange _ _ _ | _, .zrangeWithScores _ _ _ =>
      ((), .error (.error "Connection is closed.".toList))

/-- A call that returns refuses nothing: only a thrown exception with one of
the listed codes does. -/
theorem not_refuses_ok {α : Type} (a : α) : ¬ Refuses (.ok a : Except Thrown α) := by
  rintro ⟨e, h, -⟩
  cases h

/-- A rejected command is not a refusal. -/
theorem not_refuses_awaitReply {α : Type} (reply : Except Reason α) :
    ¬ Refuses (awaitReply reply) := by
  rintro ⟨e, h, -⟩
  cases reply <;> cases h

/-- Neither is the lack of a client. -/
theorem not_refuses_getClient (connection : ConnectionStatus) :
    ¬ Refuses (cacheServiceGetClient connection) := by
  rintro ⟨e, h, hcode⟩
  cases connection with
  | shutDown =>
      cases h
      simp at hcode
  | connected client =>
      cases client with
      | redis => cases h
      | cluster =>
          cases h
          simp at hcode

/-- A refusal depends on the error alone. -/
theorem refuses_error_iff {α β : Type} (e : Thrown) :
    Refuses (.error e : Except Thrown α) ↔ Refuses (.error e : Except Thrown β) := by
  simp [Refuses]

/-- After a first part that does not refuse, the rest decides. -/
theorem not_refuses_bind {α β : Type} {p : ReaderDialogue α} {f : α → ReaderDialogue β}
    (hp : p.Meets anyReply (¬ Refuses ·))
    (hf : ∀ a, (f a).Meets anyReply (¬ Refuses ·)) :
    (p.bind f).Meets anyReply (¬ Refuses ·) := by
  refine Dialogue.Meets.bind (hp.mono fun x hx => ?_)
  cases x with
  | ok a => exact hf a
  | error e => exact fun h => hx ((refuses_error_iff e).mp h)

/-- Awaiting a command does not refuse. -/
theorem not_refuses_request {α : Type} {c : ReaderCommand} {read : ReaderReply c → Except Thrown α}
    (h : ∀ reply, ¬ Refuses (read reply)) :
    (Dialogue.request c read : ReaderDialogue α).Meets anyReply (¬ Refuses ·) :=
  (Dialogue.meets_request c read).mpr fun reply _ => h reply

/-- Resolving a declared scope under its own id is the membership test. -/
theorem resolve_of_mem {options : ResolvedAdminOptions} (hlist : Allowlist options.scopes)
    {scope : CacheScope} (hmem : scope ∈ options.scopes) (key : Text) :
    resolve options scope.id key =
      if isKeyInScope scope.pattern key then .ok scope
      else throwCache .KEY_NOT_IN_SCOPE [("scopeId", .text scope.id), ("key", .text key)] := by
  unfold resolve
  rw [hlist.findScope_self hmem]
  cases hkey : isKeyInScope scope.pattern key <;>
    simp [hkey, bind, Except.bind, pure, Except.pure]

/-- A call that starts by resolving its scope and key, and does not refuse
afterwards, accepts exactly the keys of the scope. -/
theorem accepts_resolve_iff {α : Type} {options : ResolvedAdminOptions}
    (hlist : Allowlist options.scopes) {scope : CacheScope} (hmem : scope ∈ options.scopes)
    (key : Text) {rest : ConnectionStatus → CacheScope → ReaderDialogue α}
    (hrest : ∀ connection, (rest connection scope).Meets anyReply (¬ Refuses ·)) :
    (Accepts fun connection =>
      (Dialogue.ofExcept (resolve options scope.id key)).bind (rest connection)) ↔
      isKeyInScope scope.pattern key = true := by
  unfold Accepts
  rw [resolve_of_mem hlist hmem]
  constructor
  · intro haccepts
    by_contra hkey
    apply haccepts .shutDown Unit downServer ()
    rw [if_neg hkey]
    exact ⟨_, rfl, Or.inr rfl⟩
  · intro hkey connection σ server s
    rw [if_pos hkey]
    exact (hrest connection).exec server (fun _ _ => trivial) s

/-- Reading a value does not refuse. -/
theorem not_refuses_readValue (options : ResolvedAdminOptions) (key : Text)
    (type : RedisKeyType) : (readValue options key type).Meets anyReply (¬ Refuses ·) := by
  cases type with
  | string =>
      refine not_refuses_bind (not_refuses_request not_refuses_awaitReply) fun value => ?_
      cases value <;> exact not_refuses_ok _
  | hash | set | list | zset =>
      exact not_refuses_bind (not_refuses_request not_refuses_awaitReply)
        fun _ => not_refuses_ok _
  | stream | other => exact not_refuses_ok _

/-- `describeKey` accepts exactly the keys of the scope. A key outside is
refused before a command is sent; for one inside, no reply of any server leads
to a refusal. -/
theorem describeKey_accepts_iff {options : ResolvedAdminOptions}
    (hlist : Allowlist options.scopes) {scope : CacheScope} (hmem : scope ∈ options.scopes)
    (key : Text) :
    Accepts (describeKey options · scope.id key) ↔ isKeyInScope scope.pattern key = true := by
  apply accepts_resolve_iff hlist hmem key
  intro connection
  refine not_refuses_bind ((Dialogue.meets_ofExcept _).mpr (not_refuses_getClient _)) fun _ => ?_
  intro type _ ttl _
  rw [Dialogue.meets_ofExcept]
  cases type with
  | error reason => exact not_refuses_awaitReply (.error reason)
  | ok type =>
      cases ttl with
      | error reason => exact not_refuses_awaitReply (.error reason)
      | ok ttl => exact not_refuses_ok _

/-- `revealValue` accepts exactly the keys of the scope. An unreadable scope is
refused with another code, so this is about scope and key alone. -/
theorem revealValue_accepts_iff {options : ResolvedAdminOptions}
    (hlist : Allowlist options.scopes) {scope : CacheScope} (hmem : scope ∈ options.scopes)
    (key : Text) :
    Accepts (revealValue options · scope.id key) ↔ isKeyInScope scope.pattern key = true := by
  apply accepts_resolve_iff hlist hmem key
  intro connection
  by_cases hread : scope.isReadable = true
  · simp only [hread, Bool.not_true, Bool.false_eq_true, if_false]
    refine not_refuses_bind ((Dialogue.meets_ofExcept _).mpr (not_refuses_getClient _))
      fun _ => ?_
    refine not_refuses_bind (not_refuses_request not_refuses_awaitReply) fun rawType => ?_
    by_cases hnone : rawType = TYPE_NONE
    · rw [if_pos hnone]
      exact not_refuses_ok _
    · rw [if_neg hnone]
      refine not_refuses_bind (not_refuses_readValue options key _) fun value => ?_
      cases value <;> exact not_refuses_ok _
  · simp only [hread, Bool.not_false, if_true]
    exact not_refuses_ok _

/-! ## Listing -/

/-- The scan loop collects keys that the pattern matches. The induction is on
the fuel: each batch comes from a server that filters with the same pattern,
and what was collected before matches already. -/
theorem scanLoop_matches (argumentLimit : Nat) (pattern : Text) (limit fuel : Nat) (cursor : Text)
    (keys : List Text) (hkeys : ∀ key ∈ keys, Glob.stringmatchlen pattern key = true) :
    (scanLoop argumentLimit pattern limit fuel cursor keys).Meets scanMatches fun result =>
      ∀ cursor' keys', result = .ok (some (cursor', keys')) →
        ∀ key ∈ keys', Glob.stringmatchlen pattern key = true := by
  induction fuel generalizing cursor keys with
  | zero => simp [scanLoop]
  | succ fuel ih =>
      apply Dialogue.Meets.bind
      refine (Dialogue.meets_request _ _).mpr fun reply hreply => ?_
      cases reply with
      | error reason => simp [awaitReply]
      | ok page =>
          obtain ⟨nextCursor, batch⟩ := page
          have hall : ∀ key ∈ keys ++ batch, Glob.stringmatchlen pattern key = true := by
            intro key hkey
            rcases List.mem_append.mp hkey with hkey | hkey
            · exact hkeys key hkey
            · exact hreply nextCursor batch rfl key hkey
          apply Dialogue.Meets.bind
          rw [Dialogue.meets_ofExcept]
          cases hpushed : spreadArguments argumentLimit batch with
          | error e => simp
          | ok pushed =>
              obtain ⟨-, rfl⟩ := spreadArguments_eq_ok.mp hpushed
              simp only
              split
              · exact ih nextCursor _ hall
              · rintro cursor' keys' heq
                cases heq
                exact hall

/-- A chunk gives one entry per key. -/
theorem readChunk_keys (includeSize : Bool) (perKey : Nat) (replies : Option (List PipelineReply))
    (chunk : List Text) : (readChunk includeSize perKey replies chunk).map (·.key) = chunk := by
  simp [readChunk, List.mapIdx_eq_zipIdx_map, Function.comp_def]

/-- Describing a page gives one entry per key, in page order. The induction is
on the number of keys, a chunk at a time. -/
theorem describeChunks_keys (includeSize : Bool) (perKey : Nat) (chunkSize : PositiveInteger)
    (keys : List Text) :
    (describeChunks includeSize perKey chunkSize keys).Meets scanMatches fun result =>
      ∀ entries, result = .ok entries → entries.map (·.key) = keys := by
  fun_induction describeChunks includeSize perKey chunkSize keys with
  | case1 => simp
  | case2 key rest chunk commands ih =>
      intro reply _
      cases reply with
      | error reason => simp [awaitReply]
      | ok replies =>
          apply Dialogue.Meets.bind
          refine ih.mono fun result hresult => ?_
          cases result with
          | error e => simp
          | ok entries =>
              have htail := hresult entries rfl
              simp [readChunk_keys, htail, chunk, List.take_append_drop]

/-- A listing returns keys that the scope's pattern matches. The page is cut
out of what the scan loop has collected, and describing it keeps the keys. -/
theorem listKeys_matches {options : ResolvedAdminOptions} (hlist : Allowlist options.scopes)
    {scope : CacheScope} (hmem : scope ∈ options.scopes) (connection : ConnectionStatus)
    (argumentLimit fuel : Nat) (listOptions : ListKeysOptions) :
    (listKeys options connection argumentLimit fuel scope.id listOptions).Meets scanMatches
      fun result => ∀ page, result = .ok (some page) →
        ∀ entry ∈ page.entries, Glob.stringmatchlen scope.pattern entry.key = true := by
  unfold listKeys
  rw [hlist.findScope_self hmem]
  apply Dialogue.Meets.bind
  rw [Dialogue.meets_ofExcept]
  apply Dialogue.Meets.bind
  rw [Dialogue.meets_ofExcept]
  cases cacheServiceGetClient connection with
  | error e => simp
  | ok client =>
      apply Dialogue.Meets.bind
      refine (scanLoop_matches _ _ _ _ _ [] (by simp)).mono fun result hresult => ?_
      cases result with
      | error e => simp
      | ok scanned =>
          cases scanned with
          | none => simp
          | some scanned =>
              obtain ⟨cursor, keys⟩ := scanned
              apply Dialogue.Meets.bind
              refine (describeChunks_keys _ _ _ keys).mono fun described hentries => ?_
              cases described with
              | error e => simp
              | ok entries =>
                  rintro page hpage entry hentry
                  cases hpage
                  apply hresult cursor keys rfl entry.key
                  rw [← hentries entries rfl]
                  exact List.mem_map_of_mem hentry

/-- **Membership is the server's matcher.**  For every declared scope of an
accepted allowlist: the prefix test is the server's matcher, every key a
listing returns is one that describing and revealing accept, and every key
either of them accepts is one that the scope's pattern selects. -/
theorem scope_matches_server (options : ResolvedAdminOptions) (scopes : List CacheScope)
    (hscopes : validateScopes scopes = .ok options.scopes) (scope : CacheScope)
    (hmem : scope ∈ options.scopes) :
    (∀ key, isKeyInScope scope.pattern key = true ↔
      Glob.stringmatchlen scope.pattern key = true) ∧
    (∀ (connection : ConnectionStatus) (argumentLimit fuel : Nat) (listOptions : ListKeysOptions)
      (σ : Type) (server : σ → (c : ReaderCommand) → σ × ReaderReply c) (s : σ) (page : KeyspacePage),
      (∀ s c, scanMatches c (server s c).2) →
      ((listKeys options connection argumentLimit fuel scope.id listOptions).exec server s).result =
        .ok (some page) →
      ∀ entry ∈ page.entries, Accepts (describeKey options · scope.id entry.key) ∧
        Accepts (revealValue options · scope.id entry.key)) ∧
    (∀ key, Accepts (describeKey options · scope.id key) ∨
        Accepts (revealValue options · scope.id key) →
      Glob.stringmatchlen scope.pattern key = true) := by
  obtain ⟨hsame, hlist⟩ := validateScopes_eq_ok.mp hscopes
  rw [← hsame] at hlist
  have hmatch := isKeyInScope_iff_stringmatchlen (hlist.shape scope hmem)
  refine ⟨hmatch, ?_, ?_⟩
  · intro connection argumentLimit fuel listOptions σ server s page hserver hpage entry hentry
    have hkey := (listKeys_matches hlist hmem connection argumentLimit fuel listOptions).exec server
      hserver s page hpage entry hentry
    rw [describeKey_accepts_iff hlist hmem, revealValue_accepts_iff hlist hmem]
    exact ⟨(hmatch _).mpr hkey, (hmatch _).mpr hkey⟩
  · intro key haccepts
    rw [describeKey_accepts_iff hlist hmem, revealValue_accepts_iff hlist hmem, or_self]
      at haccepts
    exact (hmatch key).mp haccepts

/-- Admin options over a list of scopes. -/
def adminOptions (scopes : List CacheScope) : ResolvedAdminOptions where
  scopes := scopes
  degradedAboveMs := ⟨250, by decide⟩
  probeTimeoutMs := ⟨2000, by decide⟩
  scanLimit := ⟨500, by decide⟩
  commandBatchLimit := ⟨100, by decide⟩
  revealLimit := ⟨200, by decide⟩
  revealStringLimit := ⟨4096, by decide⟩
  isGlobal := false

/-- A scope over the keys that start with `app:`. -/
def appScope : CacheScope where
  id := "cache".toList
  label := "Cache".toList
  pattern := "app:*".toList
  isReadable := true
  origin := "cached values".toList

/-- On a key of the application's scope both matchers say yes. -/
theorem scope_matches_server_app :
    isKeyInScope appScope.pattern "app:user:1".toList = true ↔
      Glob.stringmatchlen appScope.pattern "app:user:1".toList = true :=
  (scope_matches_server (adminOptions [appScope]) [appScope] rfl appScope (by simp [adminOptions])).1
    _

/-! ## Withheld values -/

/-- Whatever scope is named and whatever the server holds, the value of the key
is not revealed and no command reads it. -/
def ValueWithheld (options : ResolvedAdminOptions) (key : Text) : Prop :=
  ∀ (connection : ConnectionStatus) (scopeId : Text) (σ : Type)
    (server : σ → (c : ReaderCommand) → σ × ReaderReply c) (s : σ),
    let ending := (revealValue options connection scopeId key).exec server s
    (∀ result, ending.result = .ok result → result.isRevealed = false) ∧
    ∀ command ∈ ending.sent, command.readsValueOf ≠ some key

/-- A resolved scope is a declared one that holds the key. -/
theorem resolve_eq_ok {options : ResolvedAdminOptions} {scopeId key : Text} {scope : CacheScope}
    (h : resolve options scopeId key = .ok scope) :
    scope ∈ options.scopes ∧ isKeyInScope scope.pattern key = true := by
  obtain ⟨found, hfound, hcheck⟩ := ok_of_bind_ok h
  by_cases hkey : isKeyInScope found.pattern key = true
  · simp only [hkey, Bool.not_true, Bool.false_eq_true, if_false] at hcheck
    obtain rfl := Except.ok.inj hcheck
    exact ⟨(findScope_eq_ok hfound).1, hkey⟩
  · simp [hkey, throwCache] at hcheck

/-- A server whose keys all hold strings without an expiry.  It does not size
keys, and its scans return everything at once. -/
def stringServer (store : Keyspace Text) : (c : ReaderCommand) → Keyspace Text × ReaderReply c
  | .scan _ pattern _ =>
      (store, .ok (SCAN_END_CURSOR, store.keys.filter (Glob.stringmatchlen pattern)))
  | .pipeline commands => (store, .ok (some (commands.map fun c => (none, answer c))))
  | .type key => (store, .ok (typeName key))
  | .ttl key => (store, .ok (ttlReply key))
  | .get key => (store, .ok (store.lookup key))
  | .hgetall key => (store, unlessString key [])
  | .smembers key => (store, unlessString key [])
  | .lrange key _ _ => (store, unlessString key [])
  | .zrangeWithScores key _ _ => (store, unlessString key (.list []))
where
  typeName (key : Text) : Text := if key ∈ store then "string".toList else TYPE_NONE
  ttlReply (key : Text) : RedisReply :=
    if key ∈ store then .number (.finite (-1)) "-1".toList else .number (.finite (-2)) "-2".toList
  answer : PipelineCommand → RedisReply
    | .type key => .text (typeName key)
    | .ttl key => ttlReply key
    | .memoryUsage _ => .null
  unlessString {α : Type} (key : Text) (a : α) : Except Reason α :=
    if key ∈ store then .error (.error "WRONGTYPE".toList) else .ok a

/-- The store that holds one string. -/
def oneString (key value : Text) : Keyspace Text := AList.insert key value ∅

/-- A readable scope that holds a key reveals it. It is run against a server
that holds one string under the key. -/
theorem revealValue_string {options : ResolvedAdminOptions} (hlist : Allowlist options.scopes)
    {scope : CacheScope} (hmem : scope ∈ options.scopes) {key : Text}
    (hkey : isKeyInScope scope.pattern key = true) (hread : scope.isReadable = true)
    (value : Text) :
    ∃ capped isComplete,
      ((revealValue options (.connected .redis) scope.id key).exec stringServer
        (oneString key value)).result =
        .ok (.revealed key .string (.string capped isComplete)) := by
  have hresolve : resolve options scope.id key = .ok scope := by
    rw [resolve_of_mem hlist hmem, if_pos hkey]
  have hstored : key ∈ (oneString key value) := AList.mem_insert ∅ |>.mpr (Or.inl rfl)
  have hlookup : (oneString key value).lookup key = some value := AList.lookup_insert ∅
  have htype : (stringServer (oneString key value) (.type key)).2 =
      .ok "string".toList := by
    simp only [stringServer, stringServer.typeName, if_pos hstored]
    rfl
  have hget : (stringServer (oneString key value) (.get key)).2 = .ok (some value) := by
    simp only [stringServer, hlookup]
    rfl
  have hclient : cacheServiceGetClient (.connected .redis) = .ok .redis := rfl
  have hstring : readKeyType (.text "string".toList) = .string := by decide
  have hnotNone : "string".toList ≠ TYPE_NONE := by decide
  refine ⟨value.codeUnits.take options.revealStringLimit.value,
    (value.codeUnits.take options.revealStringLimit.value).length == value.codeUnits.length, ?_⟩
  simp only [revealValue, hresolve, hread, hclient, Dialogue.bind_eq, Dialogue.ofExcept,
    Dialogue.bind, Bool.not_true, Bool.false_eq_true, if_false, Dialogue.request,
    Dialogue.exec_send, Dialogue.Ending.after_result]
  rw [htype]
  simp only [awaitReply, Dialogue.bind, if_neg hnotNone, hstring, readValue, Dialogue.bind_eq,
    Dialogue.request, Dialogue.exec_send, Dialogue.Ending.after_result]
  rw [show (stringServer (oneString key value) (.type key)).1 =
    oneString key value from rfl, hget]
  rfl

/-- **Which refusals hold.**  The value of a key is withheld, whatever scope is
named and whatever the server holds, exactly when no readable scope of the
accepted allowlist holds the key. -/
theorem valueWithheld_iff (options : ResolvedAdminOptions) (scopes : List CacheScope)
    (hscopes : validateScopes scopes = .ok options.scopes) (key : Text) :
    ValueWithheld options key ↔
      ∀ scope ∈ options.scopes, isKeyInScope scope.pattern key = true →
        scope.isReadable = false := by
  obtain ⟨hsame, hlist⟩ := validateScopes_eq_ok.mp hscopes
  rw [← hsame] at hlist
  constructor
  · intro hwithheld scope hmem hkey
    by_contra hread
    obtain ⟨capped, isComplete, hrevealed⟩ :=
      revealValue_string hlist hmem hkey (by simpa using hread) []
    have hresult := (hwithheld (.connected .redis) scope.id _ stringServer _).1 _ hrevealed
    simp [RevealResult.isRevealed] at hresult
  · intro hnone connection scopeId σ server s
    cases hresolve : resolve options scopeId key with
    | error e =>
        have hcall : revealValue options connection scopeId key = .fail e := by
          simp [revealValue, hresolve, Dialogue.ofExcept, Dialogue.bind]
        simp [hcall]
    | ok scope =>
        obtain ⟨hmem, hkey⟩ := resolve_eq_ok hresolve
        have hcall : revealValue options connection scopeId key =
            .done (.withheld key scope.id scope.origin) := by
          simp [revealValue, hresolve, hnone scope hmem hkey, Dialogue.ofExcept, Dialogue.bind]
        simp [hcall, RevealResult.isRevealed]

/-- A scope inside `app:*` whose values are withheld. -/
def secretScope : CacheScope where
  id := "secret".toList
  label := "Secrets".toList
  pattern := "app:secret:*".toList
  isReadable := false
  origin := "session records".toList

/-- With the secrets declared alone, their values are withheld. -/
theorem valueWithheld_secret :
    ValueWithheld (adminOptions [secretScope]) "app:secret:1".toList ↔
      ∀ scope ∈ [secretScope], isKeyInScope scope.pattern "app:secret:1".toList = true →
        scope.isReadable = false :=
  valueWithheld_iff (adminOptions [secretScope]) [secretScope] rfl _

/-- **Naming another scope is a way around.**  A readable scope over `app:*`
and an unreadable one over `app:secret:*` are accepted together, and a key of
the latter is revealed under the former. -/
theorem valueWithheld_fails :
    ¬ ∀ (options : ResolvedAdminOptions) (scopes : List CacheScope),
        validateScopes scopes = .ok options.scopes → ∀ key,
        (∃ scope ∈ options.scopes, scope.isReadable = false ∧
          isKeyInScope scope.pattern key = true) →
        ValueWithheld options key := by
  intro h
  have hlist : Allowlist [appScope, secretScope] :=
    (validateScopes_eq_ok.mp (rfl : validateScopes [appScope, secretScope] = .ok _)).2
  have hwithheld := h (adminOptions [appScope, secretScope]) [appScope, secretScope] rfl
    "app:secret:1".toList ⟨secretScope, by simp [adminOptions], by decide⟩
  obtain ⟨capped, isComplete, hrevealed⟩ :=
    @revealValue_string (adminOptions [appScope, secretScope]) hlist appScope
      (by simp [adminOptions]) "app:secret:1".toList (by decide) rfl "token".toList
  have hresult := (hwithheld (.connected .redis) appScope.id _ stringServer _).1 _ hrevealed
  simp [RevealResult.isRevealed] at hresult

end NestCache
