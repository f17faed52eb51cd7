import NestCache.AbstractCache
import NestCache.BulkOperations

/-!
# The service is the cache

Every operation that has something to do sends one command, on the keys that
its cells are kept under, and reads its reply.  Over a server that answers as
documented, the command does to the cells of those keys what the operation does
to the cells of the cache (`realises_run`); different cells have different keys.
-/

namespace NestCache

open KeyedBatch Dialogue

/-! ## Keys -/

/-- The key that a cell is kept under. -/
def CacheKey.name {separator : Char} (kb : KeyBuilder) (key : CacheKey separator) : Text :=
  kb.nameSpace ++ kb.separator ++ key.keyPrefix.text ++ kb.separator ++ key.id.text

/-- The name of a cell is the key that `build` composes: its prefix and its id
are nonempty. -/
theorem build_name {separator : Char} (kb : KeyBuilder) (key : CacheKey separator) :
    kb.build key.keyPrefix.text key.id.text = .ok (key.name kb) :=
  KeyBuilder.build_eq_ok.mpr ⟨key.keyPrefix.ne_nil, key.id.ne_nil, rfl⟩

/-- Every cell lies in the region that a flush of the namespace takes. -/
theorem flushRegion_name {separator : Char} (kb : KeyBuilder) (key : CacheKey separator) :
    kb.FlushRegion (key.name kb) := flushRegion_build (build_name kb key)

/-- Fields with the same text are equal, their proofs aside. -/
theorem KeyField.ext {separator : Char} {f g : KeyField separator} (h : f.text = g.text) :
    f = g := by
  cases f
  cases g
  cases h
  rfl

/-- Different cells have different keys. -/
theorem name_injective {separator : Char} {kb : KeyBuilder} (hsep : kb.separator = [separator]) :
    Function.Injective (CacheKey.name kb : CacheKey separator → Text) := by
  rintro ⟨keyPrefix, id⟩ ⟨keyPrefix', id'⟩ h
  simp only [CacheKey.name, hsep, List.append_assoc, List.append_cancel_left_eq,
    List.singleton_append] at h
  obtain ⟨hpre, hid⟩ := WordOverlap.cut_unique keyPrefix.free keyPrefix'.free (by simpa using h)
  rw [KeyField.ext hpre, KeyField.ext hid]

/-- The ids of a batch compose to the names of its cells. -/
theorem keysOf_names {separator : Char} {T : Type} (service : CacheService T)
    (keyPrefix : KeyField separator) (ids : List (KeyField separator)) :
    KeysOf service keyPrefix.text (ids.map KeyField.text)
      ((ids.map (CacheKey.mk keyPrefix)).map (CacheKey.name service.keyBuilder)) := by
  induction ids with
  | nil => exact .nil
  | cons id ids ih => exact .cons (build_name service.keyBuilder ⟨keyPrefix, id⟩) ih

/-! ## One command -/

section Realises

variable {separator : Char} {T V σ W : Type} {server : RedisServer V σ W}
  {name : CacheKey separator → Text}

/-- The program sends one command and reads its reply; on the cells of the
cache the command does what is described, and reading an admitted reply gives
a result that is described. -/
def Realises (server : RedisServer V σ W) (name : CacheKey separator → Text)
    (p : ServiceDialogue V (ServiceResult T V))
    (described : Nat → Cells separator → Outcome separator T V) : Prop :=
  ∃ (c : KeyCommand) (read : KeyReply c → CacheResult T V),
    p = .request (.key c) (fun reply => (awaitReply reply).bind read) ∧
    ∀ s, ∃ cells replies, server.Performs s c cells replies ∧
      cells ∘ name = (described (server.now s) (server.cells s ∘ name)).1 ∧
      ∀ reply, replies reply →
        (described (server.now s) (server.cells s ∘ name)).2 ((awaitReply reply).bind read)

/-- A command on the key of one cell. -/
theorem Realises.atCell (hname : Function.Injective name) {c : KeyCommand}
    {read : KeyReply c → CacheResult T V} {key : CacheKey separator}
    {does : Nat → Option Cell → Option Cell × (Except Reason (KeyReply c) → Prop)}
    {described : Nat → Option Cell → Option Cell × (CacheResult T V → Prop)}
    (hserver : ∀ s, server.AtCell s c (name key) does)
    (hcell : ∀ now cell, (does now cell).1 = (described now cell).1)
    (hreply : ∀ now cell reply, (does now cell).2 reply →
      (described now cell).2 ((awaitReply reply).bind read)) :
    Realises server name (.request (.key c) fun reply => (awaitReply reply).bind read)
      fun now => CacheOp.atCell key (described now) := by
  refine ⟨c, read, rfl, fun s => ⟨_, _, hserver s, ?_, fun reply h => hreply _ _ reply h⟩⟩
  rw [Function.update_comp_eq_of_injective _ hname, hcell]
  rfl

/-- Consequence. -/
theorem Realises.mono {p : ServiceDialogue V (ServiceResult T V)}
    {described described' : Nat → Cells separator → Outcome separator T V}
    (h : Realises server name p described)
    (hsame : ∀ now cells, (described now cells).1 = (described' now cells).1)
    (himp : ∀ now cells result, (described now cells).2 result →
      (described' now cells).2 result) : Realises server name p described' := by
  obtain ⟨c, read, hp, hdoes⟩ := h
  refine ⟨c, read, hp, fun s => ?_⟩
  obtain ⟨cells, replies, hperforms, hcells, hreplies⟩ := hdoes s
  exact ⟨cells, replies, hperforms, hcells.trans (hsame _ _), fun reply hr =>
    himp _ _ _ (hreplies reply hr)⟩

end Realises

/-! ## The programs -/

section Programs

variable {separator : Char} {T V σ W α β : Type} {server : RedisServer V σ W}
  {name : CacheKey separator → Text} {c : KeyCommand} {key : CacheKey separator}
  {does : Nat → Option Cell → Option Cell × (Except Reason (KeyReply c) → Prop)}

/-- A finished program hands its value on. -/
@[simp] theorem done_bind (a : α) (f : α → ServiceDialogue V β) :
    Dialogue.bind (.done a) f = f a := rfl

/-- A value that was computed without an exception is a finished program. -/
@[simp] theorem ofExcept_ok (a : α) :
    (Dialogue.ofExcept (.ok a) : ServiceDialogue V α) = .done a := rfl

/-- A command on keys whose reply is read with an exception possible: the
wrapping of the result moves into the reading. -/
theorem onKeys_read_map (f : KeyReply c → Except Thrown α) (g : α → β) :
    ((onKeys c : ServiceDialogue V _).bind fun r => .ofExcept (f r)).map g =
      .request (.key c) fun reply => (awaitReply reply).bind fun r => (f r).map g := by
  rw [onKeys, request_bind_ofExcept, Dialogue.map]
  have hdone : (.done ∘ g : α → ServiceDialogue V β) = fun a => .ofExcept (.ok (g a)) := rfl
  rw [hdone, request_bind_ofExcept]
  refine congrArg (request _) (funext fun reply => ?_)
  cases awaitReply reply with
  | error e => rfl
  | ok r => cases hf : f r <;> simp [Except.bind, Except.map, hf]

/-- The same where the reply is read without an exception. -/
theorem onKeys_done_map (f : KeyReply c → α) (g : α → β) :
    ((onKeys c : ServiceDialogue V _).bind fun r => .done (f r)).map g =
      .request (.key c) fun reply => (awaitReply reply).bind fun r => .ok (g (f r)) :=
  onKeys_read_map (fun r => .ok (f r)) g

/-- The same where the reply is returned as it came. -/
theorem onKeys_map (g : KeyReply c → β) :
    (onKeys c : ServiceDialogue V _).map g =
      .request (.key c) fun reply => (awaitReply reply).bind fun r => .ok (g r) := by
  have hdone : (.done ∘ g : KeyReply c → ServiceDialogue V β) = fun a => .ofExcept (.ok (g a)) := rfl
  rw [Dialogue.map, onKeys, hdone, request_bind_ofExcept]

/-- A command on one cell, whose reply is decoded. -/
theorem Realises.read (hname : Function.Injective name)
    (hserver : ∀ s, server.AtCell s c (name key) does) (f : KeyReply c → Except Thrown α)
    (g : α → ServiceResult T V) :
    Realises server name (((onKeys c : ServiceDialogue V _).bind fun r => .ofExcept (f r)).map g)
      fun now => CacheOp.atCell key fun cell =>
        ((does now cell).1, CacheOp.reads (does now cell).2 fun r => (f r).map g) := by
  rw [onKeys_read_map]
  exact Realises.atCell hname hserver (fun _ _ => rfl) fun _ _ reply h => ⟨reply, h, rfl⟩

/-- A command on one cell, whose reply is looked at. -/
theorem Realises.look (hname : Function.Injective name)
    (hserver : ∀ s, server.AtCell s c (name key) does) (f : KeyReply c → α)
    (g : α → ServiceResult T V) :
    Realises server name (((onKeys c : ServiceDialogue V _).bind fun r => .done (f r)).map g)
      fun now => CacheOp.atCell key fun cell =>
        ((does now cell).1, CacheOp.reads (does now cell).2 fun r => .ok (g (f r))) :=
  Realises.read hname hserver (fun r => .ok (f r)) g

/-- A command on one cell, whose reply is the result. -/
theorem Realises.reply (hname : Function.Injective name)
    (hserver : ∀ s, server.AtCell s c (name key) does) (g : KeyReply c → ServiceResult T V) :
    Realises server name ((onKeys c : ServiceDialogue V _).map g)
      fun now => CacheOp.atCell key fun cell =>
        ((does now cell).1, CacheOp.reads (does now cell).2 fun r => .ok (g r)) := by
  rw [onKeys_map]
  exact Realises.atCell hname hserver (fun _ _ => rfl) fun _ _ reply h => ⟨reply, h, rfl⟩

/-- The key of a cell is composed. -/
theorem build_cell (service : CacheService T) (key : CacheKey separator) :
    (service.build key.keyPrefix.text key.id.text : ServiceDialogue V Text) =
      .done (key.name service.keyBuilder) := by
  rw [CacheService.build, build_name, ofExcept_ok]

/-- The keys of a batch are composed. -/
theorem build_cells (service : CacheService T) (keyPrefix : KeyField separator)
    (ids : List (KeyField separator)) :
    (ids.map KeyField.text).mapM (service.keyBuilder.build keyPrefix.text) =
      .ok ((ids.map (CacheKey.mk keyPrefix)).map (CacheKey.name service.keyBuilder)) :=
  mapM_eq_ok_iff.mpr (keysOf_names service keyPrefix ids)

/-- They fit when the ids do. -/
theorem spread_cells (service : CacheService T) (keyPrefix : KeyField separator)
    {ids : List (KeyField separator)} (hfits : ids.length ≤ service.argumentLimit) :
    (service.spread ((ids.map (CacheKey.mk keyPrefix)).map (CacheKey.name service.keyBuilder)) :
      ServiceDialogue V _) =
      .done ((ids.map (CacheKey.mk keyPrefix)).map (CacheKey.name service.keyBuilder)) :=
  service.spread_fits (by simpa using hfits)

/-- Too many ids do not. -/
theorem spread_overlong (service : CacheService T) (keyPrefix : KeyField separator)
    {ids : List (KeyField separator)} (hover : service.argumentLimit < ids.length) :
    (service.spread ((ids.map (CacheKey.mk keyPrefix)).map (CacheKey.name service.keyBuilder)) :
      ServiceDialogue V _) = .fail argumentRangeError :=
  service.spread_overflows (by simpa using hover)

/-- A key and the texts behind it are one argument more than the texts. -/
theorem spread_cell (service : CacheService T) (key : CacheKey separator)
    {texts : List Text} (hfits : texts.length + 1 ≤ service.argumentLimit) :
    (service.spread (key.name service.keyBuilder :: texts) : ServiceDialogue V _) =
      .done (key.name service.keyBuilder :: texts) :=
  service.spread_fits hfits

/-- With a connected client, asking for it sends nothing. -/
theorem client_eq {service : CacheService T} {client : ClientKind}
    (hclient : service.connection.getClient = .ok client) :
    (service.client : ServiceDialogue V ClientKind) = .done client := by
  rw [CacheService.client, hclient, ofExcept_ok]

end Programs

/-! ## Numbers -/

/-- The safe integers of the model pass the check `Number.isSafeInteger`
of the code. -/
theorem isSafeInteger_ofInt {n : Int} (h : IsSafe n) : (JsNumber.ofInt n).isSafeInteger = true := by
  have hle : n.natAbs ≤ MAX_SAFE_INTEGER := h
  simp only [JsNumber.ofInt, JsNumber.isSafeInteger, Bool.and_eq_true, decide_eq_true_eq]
  exact ⟨by simp, by simpa using hle⟩

/-- A time to live is a safe integer by construction. -/
theorem Ttl.isSafe (ttl : Ttl) : IsSafe ttl.seconds := ttl.safe

/-- A write accepts the time. -/
theorem assertTtlSeconds_ttl (ttl : Ttl) :
    assertTtlSeconds ttl.number (some MIN_WRITE_TTL_SECONDS) = .ok () := by
  have hlt : ttl.number.lt MIN_WRITE_TTL_SECONDS = false := by
    have hpos : (1 : Rat) ≤ ((ttl.seconds : Int) : Rat) := by exact_mod_cast ttl.pos
    exact decide_eq_false (not_lt.mpr hpos)
  have hsafe : ttl.number.isSafeInteger = true := isSafeInteger_ofInt ttl.isSafe
  simp [assertTtlSeconds, hsafe, hlt]

/-- An amount of seconds that is a safe integer passes the check of the code;
how large or small it is, the code leaves to the server. -/
theorem assertTtlSeconds_safeInt (n : SafeInt) : assertTtlSeconds n.number none = .ok () := by
  simp [assertTtlSeconds, SafeInt.number, isSafeInteger_ofInt n.safe]

/-- The number 1 is the integer 1, so a step of one is told from all
other steps. -/
theorem SafeInt.number_eq_one (n : SafeInt) : n.number = 1 ↔ n.value = 1 := by
  have hone : (1 : JsNumber) = .finite ((1 : Int) : Rat) := rfl
  rw [SafeInt.number, JsNumber.ofInt, hone, JsNumber.finite.injEq]
  exact_mod_cast Iff.rfl

/-! ## Every operation -/

section Operations

variable {separator : Char} {T V σ W : Type} {server : RedisServer V σ W}
  {service : CacheService T}

/-- A mapped result that is a value comes from a value. -/
theorem map_eq_ok {ε α β : Type} {x : Except ε α} {f : α → β} {b : β} (h : x.map f = .ok b) :
    ∃ a, x = .ok a ∧ f a = b := by
  cases x with
  | error e => cases h
  | ok a => exact ⟨a, rfl, Except.ok.inj h⟩

/-- `SET` with the times a write passes on. -/
theorem set_atCell (hdoc : server.Documented) (key : Text) (payload : Payload)
    (ttlSeconds : Option Ttl) (nx : Bool) (s : σ) :
    server.AtCell s (.set key payload (ttlSeconds.map Ttl.number) nx) key fun now cell =>
      let (cell', reply) := Cell.assign now (payload.getD [])
        (ttlSeconds.map fun ttl => (ttl.seconds : Int)) nx cell
      (cell', (· = reply)) := by
  cases ttlSeconds with
  | none => exact hdoc.set s key payload nx
  | some ttl => exact hdoc.setEx s key payload ttl.seconds nx ttl.isSafe

/-- **Writing a string** realises the overwriting of its cell, with a time to
live or without one. -/
theorem write_realises (hdoc : server.Documented)
    (hname : Function.Injective (CacheKey.name service.keyBuilder : CacheKey separator → Text))
    {client : ClientKind} (hclient : service.connection.getClient = .ok client)
    (key : CacheKey separator) (payload : Payload) (ttlSeconds : Option Ttl) :
    Realises server (CacheKey.name service.keyBuilder)
      ((service.write (key.name service.keyBuilder) payload (ttlSeconds.map Ttl.number) :
        ServiceDialogue V Unit).map fun _ => .done)
      fun now cells => (CacheOp.setRaw key (payload.getD []) ttlSeconds).does
        service.serializer.deserialize now cells := by
  have hset := set_atCell hdoc (key.name service.keyBuilder) payload ttlSeconds false
  cases ttlSeconds with
  | none =>
      simp only [Option.map_none, CacheService.write, Dialogue.bind_eq, Dialogue.pure_eq,
        client_eq hclient, done_bind]
      exact .look hname hset (fun _ => ()) fun _ => .done
  | some ttl =>
      simp only [Option.map_some, CacheService.write, Dialogue.bind_eq, Dialogue.pure_eq,
        client_eq hclient, assertTtlSeconds_ttl, ofExcept_ok, done_bind]
      exact .look hname hset (fun _ => ()) fun _ => .done

/-- What `SET` may reply. -/
theorem assign_reply (now : Nat) (text : Text) (ex : Option Int) (nx : Bool) (cell : Option Cell) :
    (∃ reason, (Cell.assign now text ex nx cell).2 = .error reason) ∨
      (Cell.assign now text ex nx cell).2 = .ok none ∨
      (Cell.assign now text ex nx cell).2 = .ok (some "OK".toList) := by
  unfold Cell.assign
  split
  · exact .inl ⟨_, rfl⟩
  · split
    · exact .inr (.inl rfl)
    · exact .inr (.inr rfl)

/-- The service looks for `OK`, which is the only text that `SET` replies. -/
theorem reads_written (now : Nat) (text : Text) (ex : Option Int) (cell : Option Cell)
    {result : CacheResult T V}
    (h : CacheOp.reads (· = (Cell.assign now text ex true cell).2)
      (fun reply => .ok (.flag (reply == some "OK".toList))) result) :
    CacheOp.reads (· = (Cell.assign now text ex true cell).2)
      (fun written => .ok (.flag written.isSome)) result := by
  obtain ⟨reply, rfl, rfl⟩ := h
  refine ⟨_, rfl, ?_⟩
  rcases assign_reply now text ex true cell with ⟨reason, hreply⟩ | hreply | hreply <;>
    rw [hreply] <;> rfl

/-- `DEL` on the keys of cells. -/
theorem del_realises (hdoc : server.Documented) {name : CacheKey separator → Text}
    (hname : Function.Injective name) (keys : List (CacheKey separator)) (hne : keys ≠ []) :
    Realises server name
      ((onKeys (.del (keys.map name)) : ServiceDialogue V _).map .number :
        ServiceDialogue V (ServiceResult T V))
      fun _ cells => (dropAll keys cells,
        (· = .ok (.number (countHeld Option.isSome keys cells : Nat)))) := by
  refine ⟨.del (keys.map name), fun n => .ok (.number n), onKeys_map _, fun s =>
    ⟨_, _, hdoc.del s _ (by simpa using hne), dropAll_comp hname keys _, ?_⟩⟩
  rintro reply rfl
  rw [countHeld_comp hname]
  rfl

/-- `MGET` on the keys of cells. -/
theorem mget_realises (hdoc : server.Documented) (keyPrefix : KeyField separator)
    {ids : List (KeyField separator)} (hne : ids ≠ []) :
    Realises server (CacheKey.name service.keyBuilder)
      (((onKeys (.mget ((ids.map (CacheKey.mk keyPrefix)).map (CacheKey.name service.keyBuilder))) :
        ServiceDialogue V _).bind fun values => .ofExcept (values.mapM service.decode)).map .values)
      fun _ cells => (cells, (· = (ids.mapM fun id =>
        CacheOp.decodeText service.serializer.deserialize
          (Cell.textOrAbsent (cells ⟨keyPrefix, id⟩))).map .values)) := by
  refine ⟨.mget _, _, onKeys_read_map _ _, fun s => ⟨_, _, hdoc.mget s _ (by simpa using hne), rfl, ?_⟩⟩
  rintro reply rfl
  refine congrArg (Except.map ServiceResult.values) (mapM_congr_forall₂ ?_)
  rw [List.map_map, List.map_map, List.forall₂_map_left_iff]
  exact List.forall₂_same.mpr fun id _ => rfl

/-- What entries are sent as, and the cells they are for. The induction is on
the entries; each is composed and encoded on its own. -/
theorem exists_sent (service : CacheService T) (keyPrefix : KeyField separator)
    {entries : List (KeyField separator × T)} {texts : List (KeyField separator × Text)}
    (htexts : entries.mapM (encodeEntry service.serializer) = .ok texts) :
    ∃ given : List (Text × Payload),
      SentAs service keyPrefix.text (entries.map fun entry => (entry.1.text, entry.2)) given ∧
      (given.map fun entry => (entry.1, (⟨.string (entry.2.getD []), none⟩ : Cell))) =
        (texts.map fun entry => (CacheKey.mk keyPrefix entry.1,
          (⟨.string entry.2, none⟩ : Cell))).map
          fun entry => (entry.1.name service.keyBuilder, entry.2) := by
  have hall := mapM_eq_ok_iff.mp htexts
  clear htexts
  induction hall with
  | nil => exact ⟨[], .nil, rfl⟩
  | @cons entry written entries texts hentry _ ih =>
      obtain ⟨given, hgiven, hcells⟩ := ih
      obtain ⟨text, htext, rfl⟩ := map_eq_ok hentry
      obtain ⟨payload, hpayload, rfl⟩ := map_eq_ok htext
      refine ⟨((CacheKey.mk keyPrefix entry.1).name service.keyBuilder, payload) :: given,
        .cons ⟨build_name service.keyBuilder ⟨keyPrefix, entry.1⟩, hpayload⟩ hgiven, ?_⟩
      rw [List.map_cons, List.map_cons, List.map_cons, hcells]

/-- An entry is sent as two arguments. -/
theorem length_sent {keyPrefix : KeyField separator} {entries : List (KeyField separator × T)}
    {given : List (Text × Payload)}
    (hgiven : SentAs service keyPrefix.text (entries.map fun entry => (entry.1.text, entry.2))
      given) : (msetArguments given).length = 2 * entries.length := by
  rw [hgiven.length_arguments, List.length_map]

/-- `MSET` on the keys of cells. One command writes all of them, from left to
right, so that of two entries for one key the later one stays. -/
theorem mset_realises (hdoc : server.Documented)
    (hname : Function.Injective (CacheKey.name service.keyBuilder : CacheKey separator → Text))
    (keyPrefix : KeyField separator) {given : List (Text × Payload)}
    {texts : List (KeyField separator × Text)} (hne : given ≠ [])
    (hcells : (given.map fun entry => (entry.1, (⟨.string (entry.2.getD []), none⟩ : Cell))) =
        (texts.map fun entry => (CacheKey.mk keyPrefix entry.1,
          (⟨.string entry.2, none⟩ : Cell))).map
          fun entry => (entry.1.name service.keyBuilder, entry.2)) :
    Realises server (CacheKey.name service.keyBuilder)
      (((onKeys (.mset (msetArguments given)) : ServiceDialogue V _).bind fun _ =>
        .done ()).map fun _ => .done : ServiceDialogue V (ServiceResult T V))
      fun _ cells => (writeAll (texts.map fun entry => (⟨keyPrefix, entry.1⟩,
        ⟨.string entry.2, none⟩)) cells, (· = .ok .done)) := by
  refine ⟨.mset _, _, onKeys_done_map _ _, fun s => ⟨_, _, hdoc.mset s given hne, ?_, ?_⟩⟩
  · rw [hcells, writeAll_comp hname]
  · rintro reply rfl
    rfl

/-- The record of a hash is decoded field by field. The names come in the
order of the reply, and the values are looked up by name, so the order does
not matter to what is described. -/
theorem returnsRecord (service : CacheService T) (cell : Option Cell) {result : CacheResult T V}
    (h : CacheOp.reads (RepliesFields (Cell.fields cell))
      (fun all => ((objectEntries all).mapM service.decodeEntry).map .record) result) :
    match Cell.fields cell with
    | .error reason => result = .error (.raw reason)
    | .ok field => CacheOp.ReturnsRecord service.serializer.deserialize field result := by
  obtain ⟨reply, hreply, rfl⟩ := h
  cases hfields : Cell.fields cell with
  | error reason =>
      rw [hfields] at hreply
      obtain rfl : reply = .error reason := hreply
      rfl
  | ok field =>
      rw [hfields] at hreply
      obtain ⟨all, rfl, hnodup, hlookup⟩ := hreply
      have hperm := objectEntries_perm all
      have hnames := ((hperm.map Prod.fst).nodup_iff).mpr hnodup
      cases hrecord : (objectEntries all).mapM service.decodeEntry with
      | ok record =>
          have hdecoded := decodedAs_of_mapM hrecord
          refine .inl ⟨record, ?_, hdecoded.names ▸ hnames, fun name => ?_⟩
          · simp [awaitReply, Except.bind, Except.map, hrecord]
          · rw [← hlookup name, ← lookup_perm hperm hnames name]
            exact hdecoded.lookup name
      | error thrown =>
          obtain ⟨⟨name, raw⟩, hentry, hthrown⟩ := exists_of_mapM_error hrecord
          refine .inr ⟨name, raw, thrown, ?_, ?_, ?_⟩
          · rw [← hlookup name]
            exact (lookup_eq_some_iff_mem hnodup name raw).mpr (hperm.mem_iff.mp hentry)
          · cases hraw : service.serializer.deserialize raw with
            | ok value => simp [CacheService.decodeEntry, hraw, Except.map] at hthrown
            | error other => simpa [CacheService.decodeEntry, hraw, Except.map] using hthrown
          · simp [awaitReply, Except.bind, Except.map, hrecord]

variable (service) in
/-- **Every operation** that is ready sends one command and does what it
says. -/
theorem realises_run (hdoc : server.Documented)
    (hname : Function.Injective (CacheKey.name service.keyBuilder : CacheKey separator → Text))
    {op : CacheOp separator T} {raw : CacheOp separator Text}
    (hready : Ready service.serializer service.argumentLimit service.connection op raw) :
    Realises server (CacheKey.name service.keyBuilder)
      (service.run op.toCall : ServiceDialogue V (ServiceResult T V))
      fun now cells => raw.does service.serializer.deserialize now cells := by
  obtain ⟨hbusy, ⟨client, hclient⟩, hencoded, hfits⟩ := hready
  cases op with
  | get key =>
      obtain rfl := Except.ok.inj hencoded
      simp only [CacheOp.toCall, CacheService.run, CacheService.get, Dialogue.bind_eq, build_cell,
        client_eq hclient, done_bind]
      exact .read hname (fun s => hdoc.get s _) service.decode .value
  | getRaw key =>
      obtain rfl := Except.ok.inj hencoded
      simp only [CacheOp.toCall, CacheService.run, CacheService.getRaw, Dialogue.bind_eq,
        build_cell, client_eq hclient, done_bind]
      exact .reply hname (fun s => hdoc.get s _) .raw
  | set key value ttlSeconds =>
      obtain ⟨text, htext, rfl⟩ := map_eq_ok hencoded
      obtain ⟨payload, hpayload, rfl⟩ := map_eq_ok htext
      simp only [CacheOp.toCall, CacheService.run, CacheService.set, Dialogue.bind_eq, build_cell,
        hpayload, ofExcept_ok, done_bind]
      exact write_realises hdoc hname hclient key payload ttlSeconds
  | setRaw key value ttlSeconds =>
      obtain rfl := Except.ok.inj hencoded
      simp only [CacheOp.toCall, CacheService.run, CacheService.setRaw, Dialogue.bind_eq,
        build_cell, done_bind]
      exact write_realises hdoc hname hclient key (some value) ttlSeconds
  | setNx key value ttlSeconds =>
      obtain ⟨text, htext, rfl⟩ := map_eq_ok hencoded
      obtain ⟨payload, hpayload, rfl⟩ := map_eq_ok htext
      have hset := set_atCell hdoc (key.name service.keyBuilder) payload ttlSeconds true
      cases ttlSeconds with
      | none =>
          simp only [CacheOp.toCall, CacheService.run, CacheService.setNx, Option.map_none,
            Dialogue.bind_eq, Dialogue.pure_eq, build_cell, hpayload, client_eq hclient, ofExcept_ok,
            done_bind]
          exact .mono (.look hname hset _ .flag) (fun _ _ => rfl) fun now cells _ =>
            reads_written now _ _ (cells key)
      | some ttl =>
          simp only [CacheOp.toCall, CacheService.run, CacheService.setNx, Option.map_some,
            Dialogue.bind_eq, Dialogue.pure_eq, build_cell, hpayload, client_eq hclient, ofExcept_ok,
            done_bind, assertTtlSeconds_ttl]
          exact .mono (.look hname hset _ .flag) (fun _ _ => rfl) fun now cells _ =>
            reads_written now _ _ (cells key)
  | del key =>
      obtain rfl := Except.ok.inj hencoded
      simp only [CacheOp.toCall, CacheService.run, CacheService.del, Dialogue.bind_eq, build_cell,
        client_eq hclient, done_bind]
      exact del_realises hdoc hname [key] (by simp)
  | delMany keyPrefix ids =>
      obtain rfl := Except.ok.inj hencoded
      have hids : ids ≠ [] := by simpa [CacheOp.isIdle] using hbusy
      have hlength : ¬ (ids.map KeyField.text).length = 0 := by simpa using hids
      have hspread := spread_cells (V := V) service keyPrefix hfits
      simp only [CacheOp.toCall, CacheService.run, CacheService.delMany, if_neg hlength,
        build_cells, Dialogue.bind_eq, client_eq hclient, hspread, ofExcept_ok, done_bind]
      exact del_realises hdoc hname _ (by simpa using hids)
  | existsKey key =>
      obtain rfl := Except.ok.inj hencoded
      simp only [CacheOp.toCall, CacheService.run, CacheService.existsKey, Dialogue.bind_eq,
        Dialogue.pure_eq, build_cell, client_eq hclient, done_bind]
      refine .mono (.look hname (fun s => hdoc.existsKey s _) (fun count => decide (count > 0))
        .flag) (fun _ _ => rfl) ?_
      rintro now cells result ⟨_, rfl, rfl⟩
      change _ = Except.ok (ServiceResult.flag (cells key).isSome)
      cases (cells key).isSome <;> rfl
  | ttl key =>
      obtain rfl := Except.ok.inj hencoded
      simp only [CacheOp.toCall, CacheService.run, CacheService.ttl, Dialogue.bind_eq,
        build_cell, client_eq hclient, done_bind]
      exact .reply hname (fun s => hdoc.ttl s _) .number
  | incr key step =>
      obtain rfl := Except.ok.inj hencoded
      by_cases hone : step.value = 1
      · simp only [CacheOp.toCall, CacheService.run, CacheService.incr, Dialogue.bind_eq, build_cell,
          client_eq hclient, done_bind, if_pos (step.number_eq_one.mpr hone)]
        obtain ⟨_, hsafe⟩ := step
        subst hone
        exact .reply hname (fun s => hdoc.incr s _) .number
      · simp only [CacheOp.toCall, CacheService.run, CacheService.incr, Dialogue.bind_eq, build_cell,
          client_eq hclient, done_bind, if_neg (mt step.number_eq_one.mp hone)]
        exact .reply hname (fun s => hdoc.incrby s _ step.value step.safe) .number
  | decr key step =>
      obtain rfl := Except.ok.inj hencoded
      by_cases hone : step.value = 1
      · simp only [CacheOp.toCall, CacheService.run, CacheService.decr, Dialogue.bind_eq, build_cell,
          client_eq hclient, done_bind, if_pos (step.number_eq_one.mpr hone)]
        obtain ⟨_, hsafe⟩ := step
        subst hone
        exact .reply hname (fun s => hdoc.decr s _) .number
      · simp only [CacheOp.toCall, CacheService.run, CacheService.decr, Dialogue.bind_eq, build_cell,
          client_eq hclient, done_bind, if_neg (mt step.number_eq_one.mp hone)]
        exact .reply hname (fun s => hdoc.decrby s _ step.value step.safe) .number
  | expire key seconds =>
      obtain rfl := Except.ok.inj hencoded
      simp only [CacheOp.toCall, CacheService.run, CacheService.expire, Dialogue.bind_eq,
        Dialogue.pure_eq, assertTtlSeconds_safeInt, build_cell, client_eq hclient, ofExcept_ok,
        done_bind]
      exact .look hname (fun s => hdoc.expire s _ seconds.value seconds.safe) _ .flag
  | persist key =>
      obtain rfl := Except.ok.inj hencoded
      simp only [CacheOp.toCall, CacheService.run, CacheService.persist, Dialogue.bind_eq,
        Dialogue.pure_eq, build_cell, client_eq hclient, done_bind]
      refine .mono (.look hname (fun s => hdoc.persist s _) _ .flag) (fun _ _ => rfl) ?_
      rintro now cells result ⟨_, rfl, rfl⟩
      rfl
  | mget keyPrefix ids =>
      obtain rfl := Except.ok.inj hencoded
      have hids : ids ≠ [] := by simpa [CacheOp.isIdle] using hbusy
      have hlength : ¬ (ids.map KeyField.text).length = 0 := by simpa using hids
      have hspread := spread_cells (V := V) service keyPrefix hfits
      simp only [CacheOp.toCall, CacheService.run, CacheService.mget, if_neg hlength,
        build_cells, Dialogue.bind_eq, client_eq hclient, hspread, ofExcept_ok, done_bind]
      exact mget_realises hdoc keyPrefix hids
  | mset keyPrefix entries =>
      obtain ⟨texts, htexts, rfl⟩ := map_eq_ok hencoded
      have hne : entries ≠ [] := by simpa [CacheOp.isIdle] using hbusy
      have hlength : ¬ (entries.map fun entry => (entry.1.text, entry.2)).length = 0 := by
        simpa using hne
      obtain ⟨given, hgiven, hcells⟩ := exists_sent service keyPrefix htexts
      have hsent : given ≠ [] := by
        rintro rfl
        cases entries with
        | nil => exact hne rfl
        | cons entry entries => cases hgiven
      have hspread := service.spread_fits (V := V) ((length_sent hgiven).trans_le hfits)
      simp only [CacheOp.toCall, CacheService.run, CacheService.mset, if_neg hlength,
        hgiven.msetPairs, Dialogue.bind_eq, Dialogue.pure_eq, client_eq hclient, hspread,
        ofExcept_ok, done_bind]
      exact mset_realises hdoc hname keyPrefix hsent hcells
  | hget key field =>
      obtain rfl := Except.ok.inj hencoded
      simp only [CacheOp.toCall, CacheService.run, CacheService.hget, Dialogue.bind_eq, build_cell,
        client_eq hclient, done_bind]
      exact .read hname (fun s => hdoc.hget s _ field) service.decode .value
  | hset key field value =>
      obtain ⟨text, htext, rfl⟩ := map_eq_ok hencoded
      obtain ⟨payload, hpayload, rfl⟩ := map_eq_ok htext
      simp only [CacheOp.toCall, CacheService.run, CacheService.hset, Dialogue.bind_eq, build_cell,
        client_eq hclient, hpayload, ofExcept_ok, done_bind]
      exact .reply hname (fun s => hdoc.hset s _ field payload) .number
  | hgetall key =>
      obtain rfl := Except.ok.inj hencoded
      simp only [CacheOp.toCall, CacheService.run, CacheService.hgetall, Dialogue.bind_eq,
        build_cell, client_eq hclient, done_bind]
      refine .mono (.read hname (fun s => hdoc.hgetall s _) _ .record) (fun _ _ => rfl) ?_
      exact fun now cells result => returnsRecord service (cells key)
  | hdel key fields =>
      obtain rfl := Except.ok.inj hencoded
      have hne : fields ≠ [] := by simpa [CacheOp.isIdle] using hbusy
      have hlength : ¬ fields.length = 0 := by simpa using hne
      have hspread := spread_cell (V := V) service key hfits
      simp only [CacheOp.toCall, CacheService.run, CacheService.hdel, if_neg hlength,
        Dialogue.bind_eq, build_cell, client_eq hclient, hspread, done_bind]
      exact .reply hname (fun s => hdoc.hdel s _ fields hne) .number
  | sadd key members =>
      obtain rfl := Except.ok.inj hencoded
      have hne : members ≠ [] := by simpa [CacheOp.isIdle] using hbusy
      have hlength : ¬ members.length = 0 := by simpa using hne
      have hspread := spread_cell (V := V) service key hfits
      simp only [CacheOp.toCall, CacheService.run, CacheService.sadd, if_neg hlength,
        Dialogue.bind_eq, build_cell, client_eq hclient, hspread, done_bind]
      exact .reply hname (fun s => hdoc.sadd s _ members hne) .number
  | srem key members =>
      obtain rfl := Except.ok.inj hencoded
      have hne : members ≠ [] := by simpa [CacheOp.isIdle] using hbusy
      have hlength : ¬ members.length = 0 := by simpa using hne
      have hspread := spread_cell (V := V) service key hfits
      simp only [CacheOp.toCall, CacheService.run, CacheService.srem, if_neg hlength,
        Dialogue.bind_eq, build_cell, client_eq hclient, hspread, done_bind]
      exact .reply hname (fun s => hdoc.srem s _ members hne) .number
  | smembers key =>
      obtain rfl := Except.ok.inj hencoded
      simp only [CacheOp.toCall, CacheService.run, CacheService.smembers, Dialogue.bind_eq,
        build_cell, client_eq hclient, done_bind]
      exact .reply hname (fun s => hdoc.smembers s _) .texts
  | sismember key member =>
      obtain rfl := Except.ok.inj hencoded
      simp only [CacheOp.toCall, CacheService.run, CacheService.sismember, Dialogue.bind_eq,
        Dialogue.pure_eq, build_cell, client_eq hclient, done_bind]
      refine .mono (.look hname (fun s => hdoc.sismember s _ member) _ .flag) (fun _ _ => rfl) ?_
      rintro now cells result ⟨_, rfl, rfl⟩
      refine ⟨_, rfl, ?_⟩
      cases Cell.members (cells key) with
      | error reason => rfl
      | ok members => by_cases hmem : member ∈ members <;> simp [hmem, awaitReply, Except.map, Except.bind]
  | scard key =>
      obtain rfl := Except.ok.inj hencoded
      simp only [CacheOp.toCall, CacheService.run, CacheService.scard, Dialogue.bind_eq, build_cell,
        client_eq hclient, done_bind]
      refine .mono (.reply hname (fun s => hdoc.scard s _) .number) (fun _ _ => rfl) ?_
      rintro now cells result ⟨_, rfl, rfl⟩
      refine ⟨_, rfl, ?_⟩
      cases Cell.members (cells key) <;> rfl

/-! ## Operations that send nothing -/

/-- An operation that has nothing to send, such as a batch of no entries,
returns at once. -/
theorem run_idle {op : CacheOp separator T} (hidle : op.isIdle = true) :
    (service.run op.toCall : ServiceDialogue V (ServiceResult T V)) = .done op.idleResult := by
  cases op with
  | delMany keyPrefix ids =>
      obtain rfl : ids = [] := by simpa [CacheOp.isIdle] using hidle
      rfl
  | mget keyPrefix ids =>
      obtain rfl : ids = [] := by simpa [CacheOp.isIdle] using hidle
      rfl
  | mset keyPrefix entries =>
      obtain rfl : entries = [] := by simpa [CacheOp.isIdle] using hidle
      rfl
  | hdel key texts =>
      obtain rfl : texts = [] := by simpa [CacheOp.isIdle] using hidle
      rfl
  | sadd key texts =>
      obtain rfl : texts = [] := by simpa [CacheOp.isIdle] using hidle
      rfl
  | srem key texts =>
      obtain rfl : texts = [] := by simpa [CacheOp.isIdle] using hidle
      rfl
  | _ => cases hidle

/-- The program fails with one of the errors that keep the operation from being
ready. -/
def FailsUnready (service : CacheService T) (op : CacheOp separator T)
    (p : ServiceDialogue V (ServiceResult T V)) : Prop :=
  ∃ thrown, p = .fail thrown ∧
    Unready service.serializer service.argumentLimit service.connection op thrown

/-- A thrown exception ends the program. -/
@[simp] theorem fail_bind {α β : Type} (thrown : Thrown) (f : α → ServiceDialogue V β) :
    Dialogue.bind (.fail thrown) f = .fail thrown := rfl

/-- A thrown exception is not touched by what wraps results. -/
@[simp] theorem fail_map {α β : Type} (thrown : Thrown) (f : α → β) :
    Dialogue.map f (.fail thrown : ServiceDialogue V α) = .fail thrown := rfl

/-- An exception of a computation is one of the program. -/
@[simp] theorem ofExcept_error {α : Type} (thrown : Thrown) :
    (Dialogue.ofExcept (.error thrown) : ServiceDialogue V α) = .fail thrown := rfl

/-- Without a connected client, asking for one throws what `getClient`
throws. -/
theorem client_fail {thrown : Thrown} (h : service.connection.getClient = .error thrown) :
    (service.client : ServiceDialogue V ClientKind) = .fail thrown := by
  rw [CacheService.client, h, ofExcept_error]

/-- `set` and `setRaw` from the TTL check on, without a client. -/
theorem write_disconnected {thrown : Thrown}
    (hclient : service.connection.getClient = .error thrown) (key : Text) (payload : Payload)
    (ttlSeconds : Option Ttl) :
    (service.write key payload (ttlSeconds.map Ttl.number) : ServiceDialogue V Unit) =
      .fail thrown := by
  cases ttlSeconds <;>
    simp [CacheService.write, client_fail hclient, assertTtlSeconds_ttl]

/-- A value that cannot be encoded. -/
theorem encodeText_error {value : T} {thrown : Thrown}
    (h : service.serializer.serialize value = .error thrown) :
    encodeText service.serializer value = .error thrown := by
  simp [encodeText, h, Except.map]

/-- The first value that cannot be encoded refuses a batch. Entries before it
are composed and encoded, and nothing of them is sent. -/
theorem msetPairs_error (service : CacheService T) (keyPrefix : KeyField separator)
    {entries : List (KeyField separator × T)} {thrown : Thrown}
    (h : entries.mapM (encodeEntry service.serializer) = .error thrown) :
    service.msetPairs keyPrefix.text (entries.map fun entry => (entry.1.text, entry.2)) =
      .error thrown := by
  induction entries with
  | nil => cases h
  | cons entry entries ih =>
      have hkey := build_name service.keyBuilder ⟨keyPrefix, entry.1⟩
      simp only [List.map_cons, CacheService.msetPairs, hkey]
      rw [List.mapM_cons] at h
      cases hvalue : service.serializer.serialize entry.2 with
      | error other =>
          rw [show encodeEntry service.serializer entry = .error other by
            simp [encodeEntry, encodeText_error hvalue, Except.map]] at h
          obtain rfl : other = thrown := Except.error.inj h
          rfl
      | ok payload =>
          rw [show encodeEntry service.serializer entry = .ok (entry.1, payload.getD []) by
            simp [encodeEntry, encodeText, hvalue, Except.map]] at h
          cases hrest : entries.mapM (encodeEntry service.serializer) with
          | ok texts =>
              rw [hrest] at h
              cases h
          | error other =>
              rw [hrest] at h
              obtain rfl : other = thrown := Except.error.inj h
              rw [ih hrest]
              rfl

/-- An operation that is not ready sends nothing. One case for each operation
and each reason: no client, a value that does not encode, or an overlong
list. -/
theorem run_unready {op : CacheOp separator T} (hbusy : op.isIdle = false) {thrown : Thrown}
    (h : Unready service.serializer service.argumentLimit service.connection op thrown) :
    FailsUnready service op (service.run op.toCall : ServiceDialogue V (ServiceResult T V)) := by
  cases op with
  | get | getRaw | del | existsKey | incr | decr | expire | ttl | persist | hget | hgetall
  | smembers | sismember | scard =>
      have hclient := h.no_client rfl rfl
      refine ⟨thrown, ?_, .disconnected hclient⟩
      simp [CacheOp.toCall, CacheService.run, CacheService.get, CacheService.getRaw,
        CacheService.del, CacheService.existsKey, CacheService.incr, CacheService.decr,
        CacheService.expire, CacheService.ttl, CacheService.persist, CacheService.hget,
        CacheService.hgetall, CacheService.smembers, CacheService.sismember, CacheService.scard,
        build_cell, client_fail hclient, assertTtlSeconds_safeInt]
  | delMany keyPrefix ids | mget keyPrefix ids =>
      have hids : ¬ (ids.map KeyField.text).length = 0 := by simpa [CacheOp.isIdle] using hbusy
      cases hclient : service.connection.getClient with
      | error other =>
          refine ⟨other, ?_, .disconnected hclient⟩
          simp only [CacheOp.toCall, CacheService.run, CacheService.delMany, CacheService.mget,
            if_neg hids, build_cells, Dialogue.bind_eq, ofExcept_ok, done_bind,
            client_fail hclient, fail_bind, fail_map]
      | ok client =>
          have hover := h.too_long hclient rfl
          have hspread := spread_overlong (V := V) service keyPrefix hover
          refine ⟨argumentRangeError, ?_, .overlong hover⟩
          simp only [CacheOp.toCall, CacheService.run, CacheService.delMany, CacheService.mget,
            if_neg hids, build_cells, Dialogue.bind_eq, ofExcept_ok, done_bind, client_eq hclient,
            hspread, fail_bind, fail_map]
  | hdel key texts | sadd key texts | srem key texts =>
      have htexts : texts ≠ [] := by simpa [CacheOp.isIdle] using hbusy
      cases hclient : service.connection.getClient with
      | error other =>
          refine ⟨other, ?_, .disconnected hclient⟩
          simp [CacheOp.toCall, CacheService.run, CacheService.hdel, CacheService.sadd,
            CacheService.srem, htexts, build_cell, client_fail hclient]
      | ok client =>
          have hover := h.too_long hclient rfl
          have hspread : (service.spread (key.name service.keyBuilder :: texts) :
              ServiceDialogue V _) = .fail argumentRangeError := service.spread_overflows hover
          refine ⟨argumentRangeError, ?_, .overlong hover⟩
          simp [CacheOp.toCall, CacheService.run, CacheService.hdel, CacheService.sadd,
            CacheService.srem, htexts, build_cell, client_eq hclient, hspread]
  | setRaw key value ttlSeconds =>
      have hclient := h.no_client rfl rfl
      refine ⟨thrown, ?_, .disconnected hclient⟩
      simp [CacheOp.toCall, CacheService.run, CacheService.setRaw, build_cell,
        write_disconnected hclient]
  | set key value ttlSeconds =>
      cases hvalue : service.serializer.serialize value with
      | error other =>
          refine ⟨other, ?_, .unencoded
            (by simp [CacheOp.encoded, encodeText_error hvalue, Except.map])⟩
          simp [CacheOp.toCall, CacheService.run, CacheService.set, build_cell, hvalue]
      | ok payload =>
          have hencoded : (CacheOp.set key value ttlSeconds).encoded service.serializer =
              .ok (.set key (payload.getD []) ttlSeconds) := by
            simp [CacheOp.encoded, encodeText, hvalue, Except.map]
          have hclient := h.no_client hencoded rfl
          refine ⟨thrown, ?_, .disconnected hclient⟩
          simp [CacheOp.toCall, CacheService.run, CacheService.set, build_cell, hvalue,
            write_disconnected hclient]
  | setNx key value ttlSeconds =>
      cases hvalue : service.serializer.serialize value with
      | error other =>
          refine ⟨other, ?_, .unencoded
            (by simp [CacheOp.encoded, encodeText_error hvalue, Except.map])⟩
          simp [CacheOp.toCall, CacheService.run, CacheService.setNx, build_cell, hvalue]
      | ok payload =>
          have hencoded : (CacheOp.setNx key value ttlSeconds).encoded service.serializer =
              .ok (.setNx key (payload.getD []) ttlSeconds) := by
            simp [CacheOp.encoded, encodeText, hvalue, Except.map]
          have hclient := h.no_client hencoded rfl
          refine ⟨thrown, ?_, .disconnected hclient⟩
          cases ttlSeconds <;>
            simp [CacheOp.toCall, CacheService.run, CacheService.setNx, build_cell, hvalue,
              client_fail hclient, assertTtlSeconds_ttl]
  | hset key field value =>
      cases hclient : service.connection.getClient with
      | error other =>
          refine ⟨other, ?_, .disconnected hclient⟩
          simp [CacheOp.toCall, CacheService.run, CacheService.hset, build_cell,
            client_fail hclient]
      | ok client =>
          have hencoded := h.no_text hclient rfl
          refine ⟨thrown, ?_, .unencoded hencoded⟩
          cases hvalue : service.serializer.serialize value with
          | ok payload => simp [CacheOp.encoded, encodeText, hvalue, Except.map] at hencoded
          | error other =>
              obtain rfl : other = thrown := by
                simpa [CacheOp.encoded, encodeText, hvalue, Except.map] using hencoded
              simp [CacheOp.toCall, CacheService.run, CacheService.hset, build_cell,
                client_eq hclient, hvalue]
  | mset keyPrefix entries =>
      have hlength : ¬ (entries.map fun entry => (entry.1.text, entry.2)).length = 0 := by
        simpa [CacheOp.isIdle] using hbusy
      cases hencoded : entries.mapM (encodeEntry service.serializer) with
      | error other =>
          refine ⟨other, ?_, .unencoded (by simp [CacheOp.encoded, hencoded, Except.map])⟩
          simp only [CacheOp.toCall, CacheService.run, CacheService.mset, if_neg hlength,
            msetPairs_error service keyPrefix hencoded, Dialogue.bind_eq, ofExcept_error,
            fail_bind, fail_map]
      | ok texts =>
          obtain ⟨given, hgiven, -⟩ := exists_sent service keyPrefix hencoded
          cases hclient : service.connection.getClient with
          | error other =>
              refine ⟨other, ?_, .disconnected hclient⟩
              simp only [CacheOp.toCall, CacheService.run, CacheService.mset, if_neg hlength,
                hgiven.msetPairs, Dialogue.bind_eq, ofExcept_ok, done_bind, client_fail hclient,
                fail_bind, fail_map]
          | ok client =>
              have hencodes : (CacheOp.mset keyPrefix entries).encoded service.serializer =
                  .ok (.mset keyPrefix texts) := by simp [CacheOp.encoded, hencoded, Except.map]
              have hover := h.too_long hclient hencodes
              have hspread := service.spread_overflows (V := V)
                (hover.trans_eq (length_sent hgiven).symm)
              refine ⟨argumentRangeError, ?_, .overlong hover⟩
              simp only [CacheOp.toCall, CacheService.run, CacheService.mset, if_neg hlength,
                hgiven.msetPairs, Dialogue.bind_eq, ofExcept_ok, done_bind, client_eq hclient,
                hspread, fail_bind, fail_map]

end Operations

end NestCache
