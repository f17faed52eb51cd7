import NestCache.RedisCells

/-!
# A server that answers as documented

The commands on keys over a store of `RedisStore`: hashes and sets are lists in
the order of insertion, and an expired entry stays until it is overwritten.
`cellServer_documented` is the contract of `RedisServer.Documented`.
-/

namespace NestCache

open KeyedBatch

/-! ## Entries as cells -/

/-- What a client can tell of a stored value. -/
def StoredValue.cellValue : StoredValue → CellValue
  | string text => .string text
  | hash fields _ => .hash fun name => fields.lookup name
  | set members => .set members.toFinset
  | list _ | zset _ => .other

/-- What a client can tell of an entry at a time. -/
def cellOf (now : Nat) (entry : Option StoreEntry) : Option Cell :=
  Cell.alive now (entry.map fun e => ⟨e.value.cellValue, e.expiresAt⟩)

/-- The deadline of an entry that is there. -/
def deadlineAt (now : Nat) (entry : Option StoreEntry) : Option Nat :=
  (cellOf now entry).bind Cell.expiresAt

/-- Another value under the same deadline. -/
def holdEntry (now : Nat) (entry : Option StoreEntry) (value : StoredValue) : Option StoreEntry :=
  some ⟨value, deadlineAt now entry⟩

/-- A cell whose deadline has not passed is there. -/
theorem alive_some {now : Nat} {c : Cell} (h : c.expiresAt.all (now ≤ ·) = true) :
    Cell.alive now (some c) = some c := by
  simp [Cell.alive, Option.filter, h]

/-- What is left of a cell at a time has a deadline that has not passed then,
so a value held under the same deadline is there too. -/
theorem expiresAt_alive {now : Nat} {cell : Option Cell} :
    ((Cell.alive now cell).bind Cell.expiresAt).all (now ≤ ·) = true := by
  cases cell with
  | none => rfl
  | some c =>
      by_cases h : c.expiresAt.all (now ≤ ·) = true
      · rw [alive_some h]
        exact h
      · simp [Cell.alive, Option.filter, h]

/-- Holding another value under the deadline of an entry is `hold` on cells. -/
theorem cellOf_hold (now : Nat) (entry : Option StoreEntry) (value : StoredValue) :
    cellOf now (holdEntry now entry value) = Cell.hold (cellOf now entry) value.cellValue :=
  alive_some expiresAt_alive

/-- An entry without a deadline is a cell at any time. -/
theorem cellOf_plain (now : Nat) (value : StoredValue) :
    cellOf now (some ⟨value, none⟩) = some ⟨value.cellValue, none⟩ := rfl

/-- An entry whose deadline is still to come is a cell with that deadline. -/
theorem cellOf_later {now deadline : Nat} (h : now ≤ deadline) (value : StoredValue) :
    cellOf now (some ⟨value, some deadline⟩) = some ⟨value.cellValue, some deadline⟩ :=
  alive_some (by simpa using h)

/-- A deadline is not in the past. -/
theorem le_deadline {now deadline : Nat} {ex : Option Int}
    (h : Cell.deadline now ex = .ok (some deadline)) : now ≤ deadline := by
  cases ex with
  | none => cases h
  | some seconds =>
      simp only [Cell.deadline] at h
      split at h
      · rename_i hvalid
        obtain rfl : (now + 1000 * seconds).toNat = deadline := by simpa using h
        omega
      · cases h

/-- Updating one entry of the store updates one cell. -/
theorem cells_update (now : Nat) (store : RedisStore) (key : Text) (entry : Option StoreEntry) :
    (fun k => cellOf now (Function.update store key entry k)) =
      Function.update (fun k => cellOf now (store k)) key (cellOf now entry) :=
  (Function.comp_update (cellOf now) store key entry)

/-- Writing entries into the store writes them into the cells, from left to
right; the induction is on the entries. -/
theorem cells_writeAll (now : Nat) (entries : List (Text × Payload)) (store : RedisStore) :
    (fun k => cellOf now
      (writeAll (entries.map fun entry => (entry.1, plainString entry.2)) store k)) =
      writeAll (entries.map fun entry => (entry.1, ⟨.string (entry.2.getD []), none⟩))
        fun k => cellOf now (store k) := by
  induction entries generalizing store with
  | nil => rfl
  | cons entry entries ih =>
      rw [List.map_cons, List.map_cons, writeAll_cons, writeAll_cons, ih, cells_update]
      rfl

/-! ## Fields -/

/-- The fields with other names. -/
def removeFields (names : List Text) (fields : List (Text × Text)) : List (Text × Text) :=
  fields.filter fun f => f.1 ∉ names

/-- Fields that are removed are looked up as nothing, the others as before;
the induction is on the list of fields. -/
theorem lookup_removeFields (names : List Text) (fields : List (Text × Text)) (name : Text) :
    (removeFields names fields).lookup name = dropAll names (fun n => fields.lookup n) name := by
  unfold removeFields
  induction fields with
  | nil => simp [dropAll]
  | cons f fields ih =>
      obtain ⟨first, raw⟩ := f
      by_cases hname : name = first
      · subst hname
        by_cases hf : name ∈ names
        · rw [List.filter_cons_of_neg (by simpa using hf), ih]
          simp [dropAll, hf]
        · rw [List.filter_cons_of_pos (by simpa using hf)]
          simp [dropAll, hf]
      · have hbeq : (name == first) = false := by simpa using hname
        have hskip : ((first, raw) :: fields).lookup name = fields.lookup name := by
          rw [List.lookup_cons, hbeq]
        by_cases hf : first ∈ names
        · rw [List.filter_cons_of_neg (by simpa using hf), ih]
          simp [dropAll, hskip]
        · rw [List.filter_cons_of_pos (by simpa using hf), List.lookup_cons, hbeq, ih]
          simp [dropAll, hskip]

/-- Removing fields leaves the other names distinct. -/
theorem nodup_removeFields {names : List Text} {fields : List (Text × Text)}
    (h : (fields.map Prod.fst).Nodup) : ((removeFields names fields).map Prod.fst).Nodup :=
  h.sublist ((List.filter_sublist).map Prod.fst)

/-- A name is put in front only after it is removed, so the names stay
distinct. -/
theorem nodup_insertField {name text : Text} {fields : List (Text × Text)}
    (h : (fields.map Prod.fst).Nodup) :
    (((name, text) :: removeFields [name] fields).map Prod.fst).Nodup := by
  refine List.nodup_cons.mpr ⟨?_, nodup_removeFields h⟩
  simp [removeFields]

/-- Inserting a field updates the lookup at its name. -/
theorem lookup_insertField (name text : Text) (fields : List (Text × Text)) :
    (fun n => ((name, text) :: removeFields [name] fields).lookup n) =
      Function.update (fun n => fields.lookup n) name (some text) := by
  funext other
  by_cases h : other = name
  · subst h
    simp
  · have hbeq : (other == name) = false := by simpa using h
    simp [List.lookup_cons, hbeq, lookup_removeFields, dropAll, h]

/-- The fields of a hash that is there; an absent key has none. -/
def fieldsAt (now : Nat) (entry : Option StoreEntry) : Except Reason { l : List (Text × Text) //
    (l.map Prod.fst).Nodup } :=
  match heldAt now entry with
  | none => .ok ⟨[], List.nodup_nil⟩
  | some (.hash fields distinct) => .ok ⟨fields, distinct⟩
  | some _ => .error WRONGTYPE

/-- The members of a set that is there, without repetitions. -/
def membersAt (now : Nat) (entry : Option StoreEntry) : Except Reason (List Text) :=
  match heldAt now entry with
  | none => .ok []
  | some (.set members) => .ok members.dedup
  | some _ => .error WRONGTYPE

/-- A cell is what the entry holds at the time, with the deadline of the
entry. -/
theorem cellOf_eq (now : Nat) (entry : Option StoreEntry) :
    cellOf now entry = (heldAt now entry).map fun value =>
      ⟨value.cellValue, entry.bind StoreEntry.expiresAt⟩ := by
  cases entry with
  | none => rfl
  | some e =>
      by_cases h : e.expiresAt.all (now ≤ ·) = true
      · simp [cellOf, heldAt, Cell.alive, Option.filter, h]
      · simp [cellOf, heldAt, Cell.alive, Option.filter, h]

/-- The fields of the cell are the lookups in the fields of the entry, or the
same error of the type. -/
theorem fields_cellOf (now : Nat) (entry : Option StoreEntry) :
    Cell.fields (cellOf now entry) =
      (fieldsAt now entry).map fun fields name => fields.1.lookup name := by
  rw [cellOf_eq, fieldsAt]
  cases heldAt now entry with
  | none => rfl
  | some value => cases value <;> rfl

/-- The members of the cell are those of the entry without their order, or the
same error of the type. -/
theorem members_cellOf (now : Nat) (entry : Option StoreEntry) :
    Cell.members (cellOf now entry) = (membersAt now entry).map List.toFinset := by
  rw [cellOf_eq, membersAt]
  cases heldAt now entry with
  | none => rfl
  | some value =>
      cases value with
      | set members =>
          have hsame : members.toFinset = members.dedup.toFinset := by
            ext member
            simp
          simp [Cell.members, StoredValue.cellValue, Except.map, hsame]
      | _ => rfl

/-! ## Commands on one entry -/

/-- The integer that an argument spells. -/
def integerArgument : JsNumber → Option Int
  | .finite q => if q.den = 1 then some q.num else none
  | .nan | .negInf | .posInf => none

/-- An integer is sent as the argument that spells it. -/
@[simp] theorem integerArgument_ofInt (n : Int) : integerArgument (.ofInt n) = some n := by
  simp [integerArgument, JsNumber.ofInt]

/-- `SET`. -/
def assignEntry (now : Nat) (text : Text) (ex : Option Int) (nx : Bool)
    (entry : Option StoreEntry) : Option StoreEntry × Except Reason (Option Text) :=
  match Cell.deadline now ex with
  | .error reason => (entry, .error reason)
  | .ok expiresAt =>
      if nx && (cellOf now entry).isSome then (entry, .ok none)
      else (some ⟨.string text, expiresAt⟩, .ok (some "OK".toList))

/-- `INCRBY` and `DECRBY`. -/
def stepEntry (now : Nat) (step : Int) (entry : Option StoreEntry) :
    Option StoreEntry × Except Reason Int :=
  match Cell.increment step (cellOf now entry) with
  | .error reason => (entry, .error reason)
  | .ok n => (holdEntry now entry (.string (decimal n)), .ok n)

/-- `EXPIRE`. -/
def retimeEntry (now : Nat) (seconds : Int) (entry : Option StoreEntry) :
    Option StoreEntry × Except Reason Int :=
  if INT64_MAX < now + 1000 * seconds then (entry, .error (invalidExpire "expire"))
  else if heldAt now entry = none then (entry, .ok 0)
  else (if seconds ≤ 0 then none
    else entry.map fun e => { e with expiresAt := some (now + 1000 * seconds).toNat }, .ok 1)

/-- `PERSIST`. -/
def persistEntry (now : Nat) (entry : Option StoreEntry) : Option StoreEntry × Int :=
  if (deadlineAt now entry).isSome then (entry.map fun e => { e with expiresAt := none }, 1)
  else (entry, 0)

/-- `HSET`. -/
def setFieldEntry (now : Nat) (name text : Text) (entry : Option StoreEntry) :
    Option StoreEntry × Except Reason Int :=
  match fieldsAt now entry with
  | .error reason => (entry, .error reason)
  | .ok fields =>
      (holdEntry now entry (.hash ((name, text) :: removeFields [name] fields.1)
        (nodup_insertField fields.2)), .ok (if (fields.1.lookup name).isSome then 0 else 1))

/-- `HDEL`. -/
def dropFieldsEntry (now : Nat) (names : List Text) (entry : Option StoreEntry) :
    Option StoreEntry × Except Reason Int :=
  match fieldsAt now entry with
  | .error reason => (entry, .error reason)
  | .ok fields =>
      (if removeFields names fields.1 = [] then none
        else holdEntry now entry (.hash (removeFields names fields.1) (nodup_removeFields fields.2)),
        .ok (countHeld Option.isSome names fun name => fields.1.lookup name : Nat))

/-- `SADD`. -/
def addMembersEntry (now : Nat) (added : List Text) (entry : Option StoreEntry) :
    Option StoreEntry × Except Reason Int :=
  match membersAt now entry with
  | .error reason => (entry, .error reason)
  | .ok members =>
      (if members ++ added = [] then none else holdEntry now entry (.set (members ++ added)),
        .ok ((added.toFinset \ members.toFinset).card : Nat))

/-- `SREM`. -/
def dropMembersEntry (now : Nat) (removed : List Text) (entry : Option StoreEntry) :
    Option StoreEntry × Except Reason Int :=
  match membersAt now entry with
  | .error reason => (entry, .error reason)
  | .ok members =>
      (if members.filter (· ∉ removed) = [] then none
        else holdEntry now entry (.set (members.filter (· ∉ removed))),
        .ok ((removed.toFinset ∩ members.toFinset).card : Nat))

/-- **`SET`** on the entry is `assign` on its cell, with the same reply. -/
theorem cellOf_assign (now : Nat) (text : Text) (ex : Option Int) (nx : Bool)
    (entry : Option StoreEntry) : (cellOf now (assignEntry now text ex nx entry).1,
      (assignEntry now text ex nx entry).2) = Cell.assign now text ex nx (cellOf now entry) := by
  unfold assignEntry Cell.assign
  cases hdeadline : Cell.deadline now ex with
  | error reason => rfl
  | ok expiresAt =>
      by_cases hkept : (nx && (cellOf now entry).isSome) = true
      · simp [hkept]
      · simp only [if_neg hkept, Prod.mk.injEq, and_true]
        cases expiresAt with
        | none => rfl
        | some deadline => exact cellOf_later (le_deadline hdeadline) _

/-- **`INCRBY`** on the entry is `incremented` on its cell; the reply is the
total, exact where it is a safe integer. -/
theorem cellOf_step (now : Nat) (step : Int) (entry : Option StoreEntry) :
    cellOf now (stepEntry now step entry).1 = Cell.incremented step (cellOf now entry) ∧
      RepliesInteger (Cell.increment step (cellOf now entry)) (stepEntry now step entry).2 := by
  unfold stepEntry Cell.incremented
  cases Cell.increment step (cellOf now entry) with
  | error reason => exact ⟨rfl, rfl⟩
  | ok n => exact ⟨cellOf_hold now entry _, n, rfl, fun _ => rfl⟩

/-- Nothing is held under a key exactly if its cell is empty. -/
theorem cellOf_none_iff (now : Nat) (entry : Option StoreEntry) :
    heldAt now entry = none ↔ cellOf now entry = none := by
  rw [cellOf_eq, Option.map_eq_none_iff]

/-- An entry that is there is what its cell says. -/
theorem entry_of_cellOf {now : Nat} {entry : Option StoreEntry} {c : Cell}
    (h : cellOf now entry = some c) :
    ∃ e, entry = some e ∧ c = ⟨e.value.cellValue, e.expiresAt⟩ := by
  cases entry with
  | none => cases h
  | some e =>
      simp only [cellOf, Cell.alive, Option.map_some, Option.filter_eq_some_iff,
        Option.some.injEq] at h
      exact ⟨e, rfl, h.1.symm⟩

/-- **`EXPIRE`** on the entry is `retime` on its cell, with the same reply; a
time that is not positive removes both. -/
theorem cellOf_retime (now : Nat) (seconds : Int) (entry : Option StoreEntry) :
    (cellOf now (retimeEntry now seconds entry).1, (retimeEntry now seconds entry).2) =
      Cell.retime now seconds (cellOf now entry) := by
  unfold retimeEntry Cell.retime
  by_cases hoverflow : INT64_MAX < now + 1000 * seconds
  · simp [hoverflow]
  · rw [if_neg hoverflow, if_neg hoverflow]
    cases hcell : cellOf now entry with
    | none => simp [(cellOf_none_iff now entry).mpr hcell, hcell]
    | some c =>
        have hheld : ¬ heldAt now entry = none := by
          rw [cellOf_none_iff, hcell]
          exact nofun
        obtain ⟨e, rfl, rfl⟩ := entry_of_cellOf hcell
        rw [if_neg hheld]
        by_cases hpast : seconds ≤ 0
        · simp [hpast, cellOf, Cell.alive]
        · simp only [if_neg hpast, Option.map_some, Prod.mk.injEq, and_true]
          exact cellOf_later (by omega) e.value

/-- **`PERSIST`** on the entry is `persist` on its cell, with the same
reply. -/
theorem cellOf_persist (now : Nat) (entry : Option StoreEntry) :
    (cellOf now (persistEntry now entry).1, (persistEntry now entry).2) =
      Cell.persist (cellOf now entry) := by
  unfold persistEntry deadlineAt
  cases hcell : cellOf now entry with
  | none => simp [Cell.persist, hcell]
  | some c =>
      obtain ⟨e, rfl, rfl⟩ := entry_of_cellOf hcell
      cases hexpires : e.expiresAt with
      | none => simp [Cell.persist, hexpires, hcell]
      | some deadline => simp [Cell.persist, cellOf_plain]

/-- **`HSET`** on the entry is `setField` on its cell, with the same reply. -/
theorem cellOf_setField (now : Nat) (name text : Text) (entry : Option StoreEntry) :
    (cellOf now (setFieldEntry now name text entry).1, (setFieldEntry now name text entry).2) =
      Cell.setField name text (cellOf now entry) := by
  unfold setFieldEntry Cell.setField
  rw [fields_cellOf]
  cases fieldsAt now entry with
  | error reason => rfl
  | ok fields =>
      simp only [Except.map, cellOf_hold, StoredValue.cellValue, lookup_insertField]

/-- **`HDEL`** on the entry is `dropFields` on its cell, with the same reply:
a hash that loses its last field is gone on both sides. -/
theorem cellOf_dropFields (now : Nat) (names : List Text) (entry : Option StoreEntry) :
    (cellOf now (dropFieldsEntry now names entry).1, (dropFieldsEntry now names entry).2) =
      Cell.dropFields names (cellOf now entry) := by
  unfold dropFieldsEntry Cell.dropFields
  rw [fields_cellOf]
  cases fieldsAt now entry with
  | error reason => rfl
  | ok fields =>
      have hlookup : dropAll names (fun name => fields.1.lookup name) =
          fun name => (removeFields names fields.1).lookup name :=
        funext fun name => (lookup_removeFields names fields.1 name).symm
      have hempty : (∀ name, (removeFields names fields.1).lookup name = none) ↔
          removeFields names fields.1 = [] := by
        constructor
        · intro h
          cases hl : removeFields names fields.1 with
          | nil => rfl
          | cons f rest =>
              have hf := h f.1
              simp [hl] at hf
        · rintro h name
          simp [h]
      simp only [Except.map, hlookup, Cell.holdFields, hempty, Prod.mk.injEq, and_true]
      split
      · rfl
      · exact cellOf_hold now entry _

/-- An entry with these members, or none if there are none, is the cell that
holds them. -/
theorem cellOf_members (now : Nat) (entry : Option StoreEntry) (members : List Text) :
    cellOf now (if members = [] then none else holdEntry now entry (.set members)) =
      Cell.holdMembers (cellOf now entry) members.toFinset := by
  unfold Cell.holdMembers
  by_cases h : members = []
  · simp [h, cellOf, Cell.alive]
  · rw [if_neg h, if_neg (by simpa using h), cellOf_hold]
    rfl

/-- **`SADD`** on the entry is `addMembers` on its cell: a member that is
named twice is counted once on both sides. -/
theorem cellOf_addMembers (now : Nat) (added : List Text) (entry : Option StoreEntry) :
    (cellOf now (addMembersEntry now added entry).1, (addMembersEntry now added entry).2) =
      Cell.addMembers added (cellOf now entry) := by
  unfold addMembersEntry Cell.addMembers
  rw [members_cellOf]
  cases membersAt now entry with
  | error reason => rfl
  | ok members => simp only [Except.map, cellOf_members, List.toFinset_append]

/-- **`SREM`** on the entry is `dropMembers` on its cell, with the same
reply. -/
theorem cellOf_dropMembers (now : Nat) (removed : List Text) (entry : Option StoreEntry) :
    (cellOf now (dropMembersEntry now removed entry).1,
      (dropMembersEntry now removed entry).2) = Cell.dropMembers removed (cellOf now entry) := by
  unfold dropMembersEntry Cell.dropMembers
  rw [members_cellOf]
  cases membersAt now entry with
  | error reason => rfl
  | ok members =>
      have hfilter : (members.filter (· ∉ removed)).toFinset =
          members.toFinset \ removed.toFinset := by
        ext member
        simp
      simp only [Except.map, cellOf_members, hfilter]

/-! ## The server -/

/-- Act on one entry. -/
def atEntry {α : Type} (s : Nat × RedisStore) (key : Text)
    (f : Option StoreEntry → Option StoreEntry × α) : (Nat × RedisStore) × α :=
  ((s.1, Function.update s.2 key (f (s.2 key)).1), (f (s.2 key)).2)

/-- A count in decimal arguments, or the rejection of the argument. -/
def stepArgument (now : Nat) (step : JsNumber) (sign : Int) (entry : Option StoreEntry) :
    Option StoreEntry × Except Reason Int :=
  match integerArgument step with
  | some n => stepEntry now (sign * n) entry
  | none => (entry, .error NOT_AN_INTEGER)

/-- `SET` with its arguments as they are sent. -/
def setArgument (now : Nat) (text : Text) (ex : Option JsNumber) (nx : Bool)
    (entry : Option StoreEntry) : Option StoreEntry × Except Reason (Option Text) :=
  match ex with
  | none => assignEntry now text none nx entry
  | some seconds => match integerArgument seconds with
      | some n => assignEntry now text (some n) nx entry
      | none => (entry, .error NOT_AN_INTEGER)

/-- A step that is an integer is counted by, up or down. -/
theorem stepArgument_ofInt (now : Nat) (n sign : Int) :
    stepArgument now (.ofInt n) sign = stepEntry now (sign * n) := by
  funext entry
  simp [stepArgument]

/-- A time to live that is an integer is set as it is. -/
theorem setArgument_ofInt (now : Nat) (text : Text) (n : Int) (nx : Bool) :
    setArgument now text (some (.ofInt n)) nx = assignEntry now text (some n) nx := by
  funext entry
  simp [setArgument]

/-- The commands on keys; the server rejects the others. -/
def storeAnswer (s : Nat × RedisStore) : (c : ServiceCommand) →
    (Nat × RedisStore) × ServiceReply Unit c
  | .key (.get key) => atEntry s key fun entry => (entry, Cell.text (cellOf s.1 entry))
  | .key (.set key raw ex nx) => atEntry s key (setArgument s.1 (raw.getD []) ex nx)
  | .key (.del keys) => ((s.1, dropAll keys s.2),
      .ok (countHeld (fun entry => (cellOf s.1 entry).isSome) keys s.2 : Nat))
  | .key (.existsKey key) =>
      atEntry s key fun entry => (entry, .ok (if (cellOf s.1 entry).isSome then 1 else 0))
  | .key (.incr key) => atEntry s key (stepEntry s.1 1)
  | .key (.incrby key step) => atEntry s key (stepArgument s.1 step 1)
  | .key (.decr key) => atEntry s key (stepEntry s.1 (-1))
  | .key (.decrby key step) => atEntry s key (stepArgument s.1 step (-1))
  | .key (.expire key seconds) => atEntry s key fun entry =>
      match integerArgument seconds with
      | some n => retimeEntry s.1 n entry
      | none => (entry, .error NOT_AN_INTEGER)
  | .key (.ttl key) =>
      atEntry s key fun entry => (entry, .ok (Cell.remaining s.1 (cellOf s.1 entry)))
  | .key (.persist key) => atEntry s key fun entry =>
      ((persistEntry s.1 entry).1, .ok (persistEntry s.1 entry).2)
  | .key (.mget keys) =>
      (s, .ok (keys.map fun key => Cell.textOrAbsent (cellOf s.1 (s.2 key))))
  | .key (.mset pairs) =>
      ((s.1, writeAll ((msetEntries pairs).map fun entry => (entry.1, plainString entry.2)) s.2),
        .ok "OK".toList)
  | .key (.hget key name) => atEntry s key fun entry =>
      (entry, (fieldsAt s.1 entry).map fun fields => fields.1.lookup name)
  | .key (.hset key name raw) => atEntry s key (setFieldEntry s.1 name (raw.getD []))
  | .key (.hgetall key) => atEntry s key fun entry => (entry, (fieldsAt s.1 entry).map (·.1))
  | .key (.hdel key names) => atEntry s key (dropFieldsEntry s.1 names)
  | .key (.sadd key added) => atEntry s key (addMembersEntry s.1 added)
  | .key (.srem key removed) => atEntry s key (dropMembersEntry s.1 removed)
  | .key (.smembers key) => atEntry s key fun entry => (entry, membersAt s.1 entry)
  | .key (.sismember key member) => atEntry s key fun entry =>
      (entry, (membersAt s.1 entry).map fun members => if member ∈ members then 1 else 0)
  | .key (.scard key) => atEntry s key fun entry =>
      (entry, (membersAt s.1 entry).map fun members => (members.length : Int))
  | c => (s, (countingRedis 0 c).2)

/-- The server, with a clock that others set forward. -/
def cellServer : RedisServer Unit (Nat × RedisStore) Nat where
  answer := storeAnswer
  now s := s.1
  cells s key := cellOf s.1 (s.2 key)
  world time s := if s.1 ≤ time then some (time, s.2) else none
  time time := time

/-- A command on one entry that does to its cell what is documented. The clock
stays, and the cells of the other keys do. -/
theorem atCell_of_entry {c : KeyCommand} {key : Text}
    {f : Nat → Option StoreEntry → Option StoreEntry × Except Reason (KeyReply c)}
    {does : Nat → Option Cell → Option Cell × (Except Reason (KeyReply c) → Prop)}
    {s : Nat × RedisStore} (hanswer : storeAnswer s (.key c) = atEntry s key (f s.1))
    (hcell : ∀ now entry, cellOf now (f now entry).1 = (does now (cellOf now entry)).1)
    (hreply : ∀ now entry, (does now (cellOf now entry)).2 (f now entry).2) :
    cellServer.AtCell s c key does := by
  obtain ⟨now, store⟩ := s
  have heq : cellServer.answer (now, store) (.key c) = atEntry (now, store) key (f now) := hanswer
  refine ⟨by rw [heq]; rfl, .inl ⟨?_, ?_⟩⟩
  · rw [heq]
    exact (cells_update now store key _).trans (congrArg _ (hcell now (store key)))
  · rw [heq]
    exact hreply now (store key)

/-- A command on one entry that answers as its cell does. -/
theorem atCell_of_eq {c : KeyCommand} {key : Text}
    {f : Nat → Option StoreEntry → Option StoreEntry × Except Reason (KeyReply c)}
    {g : Nat → Option Cell → Option Cell × Except Reason (KeyReply c)} {s : Nat × RedisStore}
    (hanswer : storeAnswer s (.key c) = atEntry s key (f s.1))
    (hcell : ∀ now entry, (cellOf now (f now entry).1, (f now entry).2) = g now (cellOf now entry)) :
    cellServer.AtCell s c key fun now cell => ((g now cell).1, (· = (g now cell).2)) :=
  atCell_of_entry hanswer (fun now entry => congrArg Prod.fst (hcell now entry))
    fun now entry => congrArg Prod.snd (hcell now entry)

/-- A command that only reads an entry. -/
theorem atCell_of_read {c : KeyCommand} {key : Text}
    {f : Nat → Option StoreEntry → Except Reason (KeyReply c)}
    {replies : Nat → Option Cell → Except Reason (KeyReply c) → Prop} {s : Nat × RedisStore}
    (hanswer : storeAnswer s (.key c) = atEntry s key fun entry => (entry, f s.1 entry))
    (hreply : ∀ now entry, replies now (cellOf now entry) (f now entry)) :
    cellServer.AtCell s c key fun now cell => (cell, replies now cell) :=
  atCell_of_entry (f := fun now entry => (entry, f now entry)) hanswer (fun _ _ => rfl) hreply

/-- The list of fields is a reply that describes the fields of the cell. -/
theorem repliesFields_fieldsAt (now : Nat) (entry : Option StoreEntry) :
    RepliesFields (Cell.fields (cellOf now entry)) ((fieldsAt now entry).map (·.1)) := by
  rw [fields_cellOf]
  cases fieldsAt now entry with
  | error reason => rfl
  | ok fields => exact ⟨fields.1, rfl, fields.2, fun _ => rfl⟩

/-- The members of a set are distinct; an absent key has none. -/
theorem nodup_membersAt {now : Nat} {entry : Option StoreEntry} {members : List Text}
    (h : membersAt now entry = .ok members) : members.Nodup := by
  unfold membersAt at h
  split at h
  · obtain rfl := Except.ok.inj h
    exact List.nodup_nil
  · obtain rfl := Except.ok.inj h
    exact List.nodup_dedup _
  · cases h

/-- The list of members is a reply that describes the members of the cell. -/
theorem repliesMembers_membersAt (now : Nat) (entry : Option StoreEntry) :
    RepliesMembers (Cell.members (cellOf now entry)) (membersAt now entry) := by
  rw [members_cellOf]
  cases h : membersAt now entry with
  | error reason => rfl
  | ok members => exact ⟨members, rfl, nodup_membersAt h, rfl⟩

/-- **The server keeps the contract.** Each command is settled by the lemma on
its entry, so the contract is one that a server can meet. -/
theorem cellServer_documented : cellServer.Documented where
  get _ key := atCell_of_read (c := .get key) rfl fun _ _ => rfl
  set _ key raw nx := atCell_of_eq (c := .set key raw none nx) rfl fun now entry =>
    cellOf_assign now _ none nx entry
  setEx _ key raw n nx _ := by
    refine atCell_of_eq (c := .set key raw (some (.ofInt n)) nx)
      (f := fun now => assignEntry now (raw.getD []) (some n) nx) ?_
      fun now entry => cellOf_assign now _ (some n) nx entry
    exact congrArg (atEntry _ key) (setArgument_ofInt _ _ n nx)
  del s keys _ := by
    refine ⟨rfl, .inl ⟨?_, rfl⟩⟩
    funext key
    simp only [cellServer, storeAnswer, dropAll]
    split <;> rfl
  existsKey _ key := atCell_of_read (c := .existsKey key) rfl fun _ _ => rfl
  incr _ key := atCell_of_entry (c := .incr key) rfl (fun now entry => (cellOf_step now 1 entry).1)
    fun now entry => (cellOf_step now 1 entry).2
  incrby _ key n _ := by
    refine atCell_of_entry (c := .incrby key (.ofInt n)) (f := fun now => stepEntry now n) ?_
      (fun now entry => (cellOf_step now n entry).1) fun now entry => (cellOf_step now n entry).2
    exact congrArg (atEntry _ key) ((stepArgument_ofInt _ n 1).trans (by rw [one_mul]))
  decr _ key := atCell_of_entry (c := .decr key) rfl
    (fun now entry => (cellOf_step now (-1) entry).1)
    fun now entry => (cellOf_step now (-1) entry).2
  decrby _ key n _ := by
    refine atCell_of_entry (c := .decrby key (.ofInt n)) (f := fun now => stepEntry now (-n)) ?_
      (fun now entry => (cellOf_step now (-n) entry).1)
      fun now entry => (cellOf_step now (-n) entry).2
    exact congrArg (atEntry _ key) ((stepArgument_ofInt _ n (-1)).trans (by rw [neg_one_mul]))
  expire _ key n _ := by
    refine atCell_of_eq (c := .expire key (.ofInt n)) (f := fun now => retimeEntry now n) ?_
      fun now entry => cellOf_retime now n entry
    simp only [storeAnswer, integerArgument_ofInt]
  ttl _ key := atCell_of_read (c := .ttl key) rfl fun _ _ => ⟨_, rfl, fun _ => rfl⟩
  persist _ key := atCell_of_entry (c := .persist key)
    (f := fun now entry => ((persistEntry now entry).1, .ok (persistEntry now entry).2))
    rfl (fun now entry => congrArg Prod.fst (cellOf_persist now entry))
    fun now entry => congrArg (fun r => Except.ok r.2) (cellOf_persist now entry)
  mget _ _ _ := ⟨rfl, .inl ⟨rfl, rfl⟩⟩
  mset s entries _ := by
    refine ⟨rfl, .inl ⟨?_, rfl⟩⟩
    simp only [cellServer, storeAnswer, msetEntries_arguments]
    exact cells_writeAll s.1 entries s.2
  hget _ key name := atCell_of_read (c := .hget key name)
    (f := fun now entry => (fieldsAt now entry).map fun fields => fields.1.lookup name)
    rfl fun now entry => by
      rw [fields_cellOf]
      cases fieldsAt now entry <;> rfl
  hset _ key name raw := atCell_of_eq (c := .hset key name raw) rfl fun now entry =>
    cellOf_setField now name _ entry
  hgetall _ key := atCell_of_read (c := .hgetall key) rfl repliesFields_fieldsAt
  hdel _ key names _ := atCell_of_eq (c := .hdel key names) rfl fun now entry =>
    cellOf_dropFields now names entry
  sadd _ key added _ := atCell_of_eq (c := .sadd key added) rfl fun now entry =>
    cellOf_addMembers now added entry
  srem _ key removed _ := atCell_of_eq (c := .srem key removed) rfl fun now entry =>
    cellOf_dropMembers now removed entry
  smembers _ key := atCell_of_read (c := .smembers key) rfl repliesMembers_membersAt
  sismember _ key member := atCell_of_read (c := .sismember key member)
    (f := fun now entry => (membersAt now entry).map fun members =>
      if member ∈ members then 1 else 0)
    rfl fun now entry => by
      rw [members_cellOf]
      cases membersAt now entry with
      | error reason => rfl
      | ok members => simp [Except.map]
  scard _ key := atCell_of_read (c := .scard key)
    (f := fun now entry => (membersAt now entry).map fun members => (members.length : Int))
    rfl fun now entry => by
      rw [members_cellOf]
      cases h : membersAt now entry with
      | error reason => rfl
      | ok members => simp [Except.map, List.toFinset_card_of_nodup (nodup_membersAt h)]

/-- Others only set the clock. -/
theorem cellServer_keepsOut (region : Text → Prop) : cellServer.KeepsOut region := by
  intro time s s' h
  obtain ⟨hle, rfl⟩ : s.1 ≤ time ∧ (time, s.2) = s' := by
    simpa [cellServer] using h
  exact ⟨hle, rfl, fun key _ => (Cell.alive_alive hle _).symm⟩

end NestCache
