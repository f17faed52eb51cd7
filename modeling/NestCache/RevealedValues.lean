import NestCache.AdminGuarantees
import NestCache.StoredValues

/-!
# What a revealed value shows

A key holds a value of one of the types the surface renders, or nothing, and
the server answers each read command for what the key holds at that moment.
`reveal_truncated` says what `revealValue` shows of a value that stays, for
every size and both shapes of a with-scores reply; `vanished_missing_iff` says
for which types it notices that the key vanished after its type was read.
-/

namespace NestCache

/-! ## The server -/

/-- In this state the server answers for a key that holds `held`. -/
structure Answers {σ : Type} (server : σ → (c : ReaderCommand) → σ × ReaderReply c)
    (shape : ScoresShape) (key : Text) (held : Option StoredValue) (s : σ) : Prop where
  type : (server s (.type key)).2 = .ok (typeReply held)
  get : (server s (.get key)).2 = getReply held
  hgetall : (server s (.hgetall key)).2 = hgetallReply held
  smembers : (server s (.smembers key)).2 = smembersReply held
  lrange : ∀ stop, (server s (.lrange key 0 stop)).2 = lrangeReply held stop
  zrange : ∀ stop, (server s (.zrangeWithScores key 0 stop)).2 = zrangeReply held shape stop

/-- The reply to `TYPE` is read as the type of the value. -/
theorem readKeyType_typeReply (value : StoredValue) :
    readKeyType (.text (typeReply (some value))) = value.type := by
  cases value <;> rfl

/-- A value that is there has a type: `none` is the reply for an absent
key only. -/
theorem typeReply_ne_none (value : StoredValue) : typeReply (some value) ≠ TYPE_NONE := by
  -- unfolding `typeReply` would spell its texts out character by character
  cases value with
  | string _ => exact (by decide : "string".toList ≠ TYPE_NONE)
  | hash _ _ => exact (by decide : "hash".toList ≠ TYPE_NONE)
  | set _ => exact (by decide : "set".toList ≠ TYPE_NONE)
  | list _ => exact (by decide : "list".toList ≠ TYPE_NONE)
  | zset _ => exact (by decide : "zset".toList ≠ TYPE_NONE)

/-! ## The walk over a with-scores reply -/

/-- A scalar element is a member, or the score of the pending one. -/
theorem ScoredWalk.next_scalar (limit : Nat) (walk : ScoredWalk) {element : RedisReply}
    (h : element.isScalar = true) :
    walk.next limit element = match walk.pendingMember with
      | none => { walk with pendingMember := some element.print }
      | some member => { walk.push limit member element.print with pendingMember := none } := by
  cases element with
  | list elements => cases h
  | null => rfl
  | text t => rfl
  | number n printed => rfl
  | other printed => rfl

/-- Both shapes push the printed pairs one by one. A flat reply hands the
member over first and its score next, a nested one both at once. -/
theorem foldl_elements (shape : ScoresShape) (limit : Nat) (pairs : List ScoredMember)
    (walk : ScoredWalk) (hpending : walk.pendingMember = none) :
    (shape.elements pairs).foldl (ScoredWalk.next limit) walk =
      pairs.foldl (fun walk p => walk.push limit p.print.1 p.print.2) walk := by
  induction pairs generalizing walk with
  | nil => cases shape <;> rfl
  | cons p pairs ih =>
      have hpush : (walk.push limit p.print.1 p.print.2).pendingMember = none := hpending
      cases shape with
      | resp3 =>
          rw [List.foldl_cons, ← ih _ hpush]
          rfl
      | resp2 =>
          have hpair : (walk.next limit p.member).next limit p.score =
              walk.push limit p.print.1 p.print.2 := by
            rw [ScoredWalk.next_scalar limit _ p.score_scalar,
              ScoredWalk.next_scalar limit _ p.member_scalar]
            simp only [hpending, ScoredMember.print, ScoredWalk.push]
          rw [List.foldl_cons, ← ih _ hpush, ← hpair]
          rfl

/-- Pushing counts every pair and keeps the first ones. The induction is on the
pairs; beyond the limit they are counted and not kept. -/
theorem foldl_push (limit : Nat) (pairs : List (Text × Text)) (walk : ScoredWalk) :
    (pairs.foldl (fun walk p => walk.push limit p.1 p.2) walk).members =
      walk.members ++ pairs.take (limit - walk.members.length) ∧
    (pairs.foldl (fun walk p => walk.push limit p.1 p.2) walk).pairCount =
      walk.pairCount + pairs.length := by
  induction pairs generalizing walk with
  | nil => simp
  | cons p pairs ih =>
      obtain ⟨hmembers, hcount⟩ := ih (walk.push limit p.1 p.2)
      rw [List.foldl_cons, hmembers, hcount]
      refine ⟨?_, by simp [ScoredWalk.push]; omega⟩
      by_cases hroom : walk.members.length < limit
      · obtain ⟨k, hk⟩ : ∃ k, limit - walk.members.length = k + 1 :=
          ⟨limit - walk.members.length - 1, by omega⟩
        have hrest : limit - (walk.members.length + 1) = k := by omega
        simp [ScoredWalk.push, hroom, hk, hrest]
      · have hfull : limit - walk.members.length = 0 := by omega
        simp [ScoredWalk.push, hroom, hfull]

/-- **The with-scores reply.**  Whatever its shape, the first pairs are kept
and the reading is whole when nothing was dropped. -/
theorem readScoredMembers_elements (shape : ScoresShape) (pairs : List ScoredMember)
    (limit : Nat) :
    readScoredMembers (.list (shape.elements pairs)) limit =
      ((pairs.map ScoredMember.print).take limit, decide (pairs.length ≤ limit)) := by
  have hmap : pairs.foldl (fun walk p => walk.push limit p.print.1 p.print.2) {} =
      (pairs.map ScoredMember.print).foldl
        (fun (walk : ScoredWalk) p => walk.push limit p.1 p.2) {} := by
    rw [List.foldl_map]
  obtain ⟨hmembers, hcount⟩ := foldl_push limit (pairs.map ScoredMember.print) {}
  simp only [readScoredMembers, foldl_elements shape limit pairs {} rfl, hmap, hmembers, hcount]
  simp [beq_eq_decide]

/-! ## What is shown -/

open CacheAdminService

/-- What the surface shows of a value: its first parts, and whether these are
all of it. -/
def StoredValue.shown (options : ResolvedAdminOptions) : StoredValue → RevealedValue
  | string value =>
      .string (value.codeUnits.take options.revealStringLimit.value)
        (decide (value.codeUnits.length ≤ options.revealStringLimit.value))
  | hash fields _ =>
      .hash ((objectEntries fields).take options.revealLimit.value)
        (decide (fields.length ≤ options.revealLimit.value))
  | set members =>
      .members (members.take options.revealLimit.value)
        (decide (members.length ≤ options.revealLimit.value))
  | list items =>
      .members (items.take options.revealLimit.value)
        (decide (items.length ≤ options.revealLimit.value))
  | zset pairs =>
      .scored ((pairs.take options.revealLimit.value).map ScoredMember.print)
        (decide (pairs.length ≤ options.revealLimit.value))

/-- What an absent key of a type reads as. -/
def shownAbsent : RedisKeyType → Option RevealedValue
  | .string => none
  | .hash => some (.hash [] true)
  | .set => some (.members [] true)
  | .list => some (.members [] true)
  | .zset => some (.scored [] true)
  | .stream => some (.unsupported .stream)
  | .other => some (.unsupported .other)

/-- The answer for what reading the value gave. -/
def answerFor (key : Text) (type : RedisKeyType) : Option RevealedValue → RevealResult
  | none => .missing key
  | some shown => .revealed key type shown

/-- Nothing was cut exactly when the whole fits. -/
theorem length_take_beq {α : Type} (xs : List α) (limit : Nat) :
    ((xs.take limit).length == xs.length) = decide (xs.length ≤ limit) := by
  rw [beq_eq_decide, List.length_take]
  congr 1
  simp

section

variable {σ : Type} {server : σ → (c : ReaderCommand) → σ × ReaderReply c}
  {shape : ScoresShape} {key : Text} {s : σ}

/-- Reading a value that is there. One case for each type: the command of the
type is sent, and its reply is cut at the limits of the options. -/
theorem readValue_held (options : ResolvedAdminOptions) {value : StoredValue}
    (h : Answers server shape key (some value) s) :
    ((readValue options key value.type).exec server s).result =
      .ok (some (value.shown options)) := by
  cases value with
  | string text =>
      simp only [StoredValue.type, readValue, Dialogue.bind_eq, Dialogue.request, Dialogue.bind,
        Dialogue.exec_send, h.get, getReply, awaitReply, Dialogue.Ending.after_result,
        Dialogue.pure_eq, Dialogue.exec_done, StoredValue.shown, length_take_beq]
  | hash fields distinct =>
      simp only [StoredValue.type, readValue, Dialogue.bind_eq, Dialogue.request, Dialogue.bind,
        Dialogue.exec_send, h.hgetall, hgetallReply, awaitReply, Dialogue.Ending.after_result,
        Dialogue.pure_eq, Dialogue.exec_done, StoredValue.shown, length_take_beq,
        (objectEntries_perm fields).length_eq]
  | set members =>
      simp only [StoredValue.type, readValue, Dialogue.bind_eq, Dialogue.request, Dialogue.bind,
        Dialogue.exec_send, h.smembers, smembersReply, awaitReply, Dialogue.Ending.after_result,
        Dialogue.pure_eq, Dialogue.exec_done, StoredValue.shown, length_take_beq]
  | list items =>
      -- the server was asked for one item more than the limit
      have hcut : (items.take (options.revealLimit.value + 1)).take options.revealLimit.value =
          items.take options.revealLimit.value := by
        rw [List.take_take, Nat.min_eq_left (Nat.le_succ _)]
      have hfits : (items.take (options.revealLimit.value + 1)).length ≤
          options.revealLimit.value ↔ items.length ≤ options.revealLimit.value := by
        rw [List.length_take]
        omega
      simp only [StoredValue.type, readValue, Dialogue.bind_eq, Dialogue.request, Dialogue.bind,
        Dialogue.exec_send, h.lrange, lrangeReply, awaitReply, Dialogue.Ending.after_result,
        Dialogue.pure_eq, Dialogue.exec_done, StoredValue.shown, length_take_beq, hfits]
      rw [hcut]
  | zset pairs =>
      have hcut : ((pairs.take (options.revealLimit.value + 1)).map ScoredMember.print).take
          options.revealLimit.value =
          (pairs.take options.revealLimit.value).map ScoredMember.print := by
        rw [← List.map_take, List.take_take, Nat.min_eq_left (Nat.le_succ _)]
      have hfits : (pairs.take (options.revealLimit.value + 1)).length ≤
          options.revealLimit.value ↔ pairs.length ≤ options.revealLimit.value := by
        rw [List.length_take]
        omega
      simp only [StoredValue.type, readValue, Dialogue.bind_eq, Dialogue.request, Dialogue.bind,
        Dialogue.exec_send, h.zrange, zrangeReply, awaitReply, Dialogue.Ending.after_result,
        Dialogue.pure_eq, Dialogue.exec_done, StoredValue.shown, readScoredMembers_elements,
        hcut, hfits]

/-- Reading a value that is gone. -/
theorem readValue_absent (options : ResolvedAdminOptions) (type : RedisKeyType)
    (h : Answers server shape key none s) :
    ((readValue options key type).exec server s).result = .ok (shownAbsent type) := by
  have hempty : readScoredMembers (.list []) options.revealLimit.value = ([], true) := rfl
  cases type with
  | string | hash | set | list | zset =>
      simp [readValue, Dialogue.request, Dialogue.bind, h.get, h.hgetall, h.smembers, h.lrange,
        h.zrange, getReply, hgetallReply, smembersReply, lrangeReply, zrangeReply, awaitReply,
        shownAbsent, objectEntries, hempty]
  | stream | other => rfl

/-- A call on a key of a readable scope reads the type, then the value. It is
read with the command of the type that was told, whatever the key holds by
then. -/
theorem revealValue_exec {options : ResolvedAdminOptions} (hlist : Allowlist options.scopes)
    {scope : CacheScope} (hmem : scope ∈ options.scopes)
    (hkey : isKeyInScope scope.pattern key = true) (hread : scope.isReadable = true)
    {value : StoredValue} (htype : (server s (.type key)).2 = .ok (typeReply (some value)))
    {shown : Option RevealedValue}
    (hvalue : ((readValue options key value.type).exec server (server s (.type key)).1).result =
      .ok shown) :
    ((revealValue options (.connected .redis) scope.id key).exec server s).result =
      .ok (answerFor key value.type shown) := by
  have hresolve : resolve options scope.id key = .ok scope := by
    rw [resolve_of_mem hlist hmem, if_pos hkey]
  have hclient : cacheServiceGetClient (.connected .redis) = .ok .redis := rfl
  simp only [revealValue, hresolve, hread, hclient, Dialogue.bind_eq, Dialogue.ofExcept,
    Dialogue.bind, Bool.not_true, Bool.false_eq_true, if_false, Dialogue.request,
    Dialogue.exec_send, Dialogue.Ending.after_result]
  rw [htype]
  simp only [awaitReply, Dialogue.bind, if_neg (typeReply_ne_none value),
    readKeyType_typeReply, Dialogue.exec_bind_ok _ hvalue, Dialogue.Ending.after_result]
  cases shown <;> rfl

end

/-- **Truncation is exact and says so.**  A value that stays, in a readable
scope, is revealed with exactly its first parts up to the limit and is called
complete exactly when it fits, for both shapes of a with-scores reply.  The
fields of a hash are those of the object the client returns: all that the
server sent, and in its order unless a name is an array index. -/
theorem reveal_truncated {σ : Type} (server : σ → (c : ReaderCommand) → σ × ReaderReply c)
    (options : ResolvedAdminOptions) (scopes : List CacheScope)
    (hscopes : validateScopes scopes = .ok options.scopes) (scope : CacheScope)
    (hmem : scope ∈ options.scopes) (hread : scope.isReadable = true) (key : Text)
    (hkey : isKeyInScope scope.pattern key = true) (shape : ScoresShape) (value : StoredValue)
    (s : σ) (htype : Answers server shape key (some value) s)
    (hvalue : Answers server shape key (some value) (server s (.type key)).1) :
    ((revealValue options (.connected .redis) scope.id key).exec server s).result =
      .ok (.revealed key value.type (value.shown options)) ∧
    ∀ fields distinct, value = .hash fields distinct →
      (objectEntries fields).Perm fields ∧
      ((∀ f ∈ fields, arrayIndex? f.1 = none) → objectEntries fields = fields) := by
  obtain ⟨hsame, hlist⟩ := validateScopes_eq_ok.mp hscopes
  rw [← hsame] at hlist
  refine ⟨?_, fun fields _ _ => ⟨objectEntries_perm fields, objectEntries_of_names⟩⟩
  exact revealValue_exec hlist hmem hkey hread htype.type (readValue_held options hvalue)

/-- A server that holds one value under every key and then moves on. -/
def oneValueServer (shape : ScoresShape) (next : Option StoredValue → Option StoredValue) :
    Option StoredValue → (c : ReaderCommand) → Option StoredValue × ReaderReply c
  | held, .type _ => (next held, .ok (typeReply held))
  | held, .get _ => (next held, getReply held)
  | held, .hgetall _ => (next held, hgetallReply held)
  | held, .smembers _ => (next held, smembersReply held)
  | held, .lrange _ _ stop => (next held, lrangeReply held stop)
  | held, .zrangeWithScores _ _ stop => (next held, zrangeReply held shape stop)
  | held, c => (held, (downServer () c).2)

/-- The server of one value answers every read by what it holds then. -/
theorem answers_oneValueServer (shape : ScoresShape)
    (next : Option StoredValue → Option StoredValue) (key : Text) (held : Option StoredValue) :
    Answers (oneValueServer shape next) shape key held held :=
  ⟨rfl, rfl, rfl, rfl, fun _ => rfl, fun _ => rfl⟩

/-- A sorted set one member beyond a limit of one, in the flat shape. -/
def twoScores : List ScoredMember :=
  [⟨.text "ann".toList, .text "1".toList, rfl, rfl⟩, ⟨.text "bob".toList, .text "2".toList, rfl, rfl⟩]

/-- The first pair is revealed whole, and the value is called incomplete. -/
theorem reveal_truncated_scores :
    ((revealValue { adminOptions [appScope] with revealLimit := ⟨1, by decide⟩ }
        (.connected .redis) "cache".toList "app:top".toList).exec (oneValueServer .resp2 id)
        (some (.zset twoScores))).result =
      .ok (.revealed "app:top".toList .zset (.scored [("ann".toList, "1".toList)] false)) :=
  (reveal_truncated (oneValueServer .resp2 id)
    { adminOptions [appScope] with revealLimit := ⟨1, by decide⟩ } [appScope] rfl appScope
    (by simp [adminOptions]) rfl "app:top".toList (by decide) .resp2 (.zset twoScores) _
    (answers_oneValueServer _ _ _ _) (answers_oneValueServer _ _ _ _)).1

/-- **Not always the server's order.** The fields `b` and `1`, returned in
this order, are shown as `1` and `b`. -/
theorem reveal_reorders_fields :
    ¬ ∀ (options : ResolvedAdminOptions) (scopes : List CacheScope),
        validateScopes scopes = .ok options.scopes → ∀ scope ∈ options.scopes,
        scope.isReadable = true → ∀ key, isKeyInScope scope.pattern key = true →
        ∀ (fields : List (Text × Text)) (distinct : (fields.map Prod.fst).Nodup),
        ((revealValue options (.connected .redis) scope.id key).exec (oneValueServer .resp3 id)
            (some (.hash fields distinct))).result =
          .ok (.revealed key .hash (.hash (fields.take options.revealLimit.value)
            (decide (fields.length ≤ options.revealLimit.value)))) := by
  intro h
  have hclaim := h (adminOptions [appScope]) [appScope] rfl appScope (by simp [adminOptions]) rfl
    "app:h".toList (by decide) [("b".toList, []), ("1".toList, [])] (by decide)
  have hlist : Allowlist (adminOptions [appScope]).scopes :=
    (validateScopes_eq_ok.mp (rfl : validateScopes [appScope] = .ok _)).2
  have hshown := revealValue_exec hlist (by simp [adminOptions]) (by decide : isKeyInScope
    appScope.pattern "app:h".toList = true) rfl
    (answers_oneValueServer .resp3 id "app:h".toList
      (some (.hash [("b".toList, []), ("1".toList, [])] (by decide)))).type
    (readValue_held (adminOptions [appScope]) (answers_oneValueServer .resp3 id _ _))
  rw [hshown] at hclaim
  exact absurd hclaim (by decide)

/-! ## Vanished keys -/

/-- A key that vanished between the two reads. -/
theorem revealValue_vanished {σ : Type} {server : σ → (c : ReaderCommand) → σ × ReaderReply c}
    {options : ResolvedAdminOptions} (hlist : Allowlist options.scopes) {scope : CacheScope}
    (hmem : scope ∈ options.scopes) (hread : scope.isReadable = true) {key : Text}
    (hkey : isKeyInScope scope.pattern key = true) {shape : ScoresShape} {value : StoredValue}
    {s : σ} (hexists : Answers server shape key (some value) s)
    (hgone : Answers server shape key none (server s (.type key)).1) :
    ((revealValue options (.connected .redis) scope.id key).exec server s).result =
      .ok (answerFor key value.type (shownAbsent value.type)) :=
  revealValue_exec hlist hmem hkey hread hexists.type (readValue_absent options _ hgone)

/-- **Which vanished keys read as missing.**  A key of a readable scope that
exists when its type is read and is gone when its value is read is reported
missing exactly when it held a string. -/
theorem vanished_missing_iff {σ : Type} (server : σ → (c : ReaderCommand) → σ × ReaderReply c)
    (options : ResolvedAdminOptions) (scopes : List CacheScope)
    (hscopes : validateScopes scopes = .ok options.scopes) (scope : CacheScope)
    (hmem : scope ∈ options.scopes) (hread : scope.isReadable = true) (key : Text)
    (hkey : isKeyInScope scope.pattern key = true) (shape : ScoresShape) (value : StoredValue)
    (s : σ) (hexists : Answers server shape key (some value) s)
    (hgone : Answers server shape key none (server s (.type key)).1) :
    ((revealValue options (.connected .redis) scope.id key).exec server s).result =
      .ok (.missing key) ↔ value.type = .string := by
  obtain ⟨hsame, hlist⟩ := validateScopes_eq_ok.mp hscopes
  rw [← hsame] at hlist
  rw [revealValue_vanished hlist hmem hread hkey hexists hgone]
  cases value <;> simp [StoredValue.type, shownAbsent, answerFor]

/-- A string that vanished is missing. -/
theorem vanished_missing_iff_string :
    ((revealValue (adminOptions [appScope]) (.connected .redis) "cache".toList
        "app:user:1".toList).exec (oneValueServer .resp3 fun _ => none)
        (some (.string "ann".toList))).result = .ok (.missing "app:user:1".toList) :=
  (vanished_missing_iff (oneValueServer .resp3 fun _ => none) (adminOptions [appScope])
    [appScope] rfl appScope (by simp [adminOptions]) rfl _ (by decide) .resp3 _ _
    (answers_oneValueServer _ _ _ _) (answers_oneValueServer _ _ _ _)).mpr rfl

/-- **A vanished hash is revealed as an empty one.** The key is there for
`TYPE` and gone for `HGETALL`, whose reply has no fields. -/
theorem vanished_hash_revealed :
    ¬ ∀ (options : ResolvedAdminOptions) (scopes : List CacheScope),
        validateScopes scopes = .ok options.scopes → ∀ scope ∈ options.scopes,
        scope.isReadable = true → ∀ key, isKeyInScope scope.pattern key = true →
        ∀ (shape : ScoresShape) (value : StoredValue),
        ((revealValue options (.connected .redis) scope.id key).exec
            (oneValueServer shape fun _ => none) (some value)).result = .ok (.missing key) := by
  intro h
  have hclaim := h (adminOptions [appScope]) [appScope] rfl appScope (by simp [adminOptions]) rfl
    "app:h".toList (by decide) .resp3 (.hash [("name".toList, "ann".toList)] (by decide))
  have hlist : Allowlist (adminOptions [appScope]).scopes :=
    (validateScopes_eq_ok.mp (rfl : validateScopes [appScope] = .ok _)).2
  have hshown := revealValue_vanished hlist (by simp [adminOptions] : appScope ∈ _) rfl
    (by decide : isKeyInScope appScope.pattern "app:h".toList = true)
    (answers_oneValueServer .resp3 (fun _ => none) "app:h".toList
      (some (.hash [("name".toList, "ann".toList)] (by decide))))
    (answers_oneValueServer .resp3 (fun _ => none) "app:h".toList none)
  rw [hshown] at hclaim
  cases hclaim

end NestCache
