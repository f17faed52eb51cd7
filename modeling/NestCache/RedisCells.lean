import Mathlib.Data.Finset.Dedup
import NestCache.KeyedBatch
import NestCache.NumeralsAndDates
import NestCache.RedisStore
import NestCache.ServiceCalls

/-!
# The commands on keys, as documented

What clients can tell of a key is a `Cell`: a value and a deadline.  Fields of a
hash and members of a set have no order.  `RedisServer.Documented` is the
contract of the commands that the cache service sends for its keys: what each
does to the cells, and which replies it may give.  A server may also refuse a
command, which then changes nothing.
-/

namespace NestCache

open KeyedBatch

/-! ## Cells -/

/-- What a client can tell of a value. -/
inductive CellValue
  | string (text : Text)
  | hash (field : Text → Option Text)
  | set (members : Finset Text)
  | other

/-- A value and the last millisecond it is there, if it expires. -/
structure Cell where
  value : CellValue
  expiresAt : Option Nat

namespace Cell

/-- What is left of a cell at a time. -/
def alive (now : Nat) (cell : Option Cell) : Option Cell :=
  cell.filter fun c => c.expiresAt.all (now ≤ ·)

/-- Time takes away what has expired. -/
theorem alive_alive {now later : Nat} (h : now ≤ later) (cell : Option Cell) :
    alive later (alive now cell) = alive later cell := by
  unfold alive
  rw [Option.filter_filter]
  refine congrArg (Option.filter · cell) (funext fun c => ?_)
  cases c.expiresAt with
  | none => rfl
  | some deadline =>
      simp only [Option.all_some, Bool.and_eq_right_iff_imp, decide_eq_true_eq]
      exact fun hlater => h.trans hlater

/-- A cell without a deadline does not change by itself. -/
theorem alive_of_stays {cell : Option Cell} (h : cell.bind Cell.expiresAt = none) (now : Nat) :
    alive now cell = cell := by
  cases cell with
  | none => rfl
  | some c =>
      have hstays : c.expiresAt = none := h
      simp [alive, Option.filter, hstays]

/-- Another value under the same deadline. -/
def hold (cell : Option Cell) (value : CellValue) : Option Cell :=
  some ⟨value, cell.bind Cell.expiresAt⟩

/-- The string of a cell, if any. -/
def text : Option Cell → Except Reason (Option Text)
  | none => .ok none
  | some ⟨.string text, _⟩ => .ok (some text)
  | some _ => .error WRONGTYPE

/-- The string `MGET` answers: a value of another type reads as absent. -/
def textOrAbsent : Option Cell → Option Text
  | some ⟨.string text, _⟩ => some text
  | _ => none

/-- The fields of a hash; an absent key has none. -/
def fields : Option Cell → Except Reason (Text → Option Text)
  | none => .ok fun _ => none
  | some ⟨.hash field, _⟩ => .ok field
  | some _ => .error WRONGTYPE

/-- The members of a set; an absent key has none. -/
def members : Option Cell → Except Reason (Finset Text)
  | none => .ok ∅
  | some ⟨.set members, _⟩ => .ok members
  | some _ => .error WRONGTYPE

end Cell

/-! ## Counters -/

/-- The largest integer the server counts to. -/
def INT64_MAX : Int := 9223372036854775807

/-- An integer that the server can hold. -/
def IsInt64 (n : Int) : Prop := -INT64_MAX - 1 ≤ n ∧ n ≤ INT64_MAX

instance (n : Int) : Decidable (IsInt64 n) := by unfold IsInt64; infer_instance

/-- The decimal text of an integer. -/
def decimal (n : Int) : Text :=
  if n < 0 then '-' :: Nat.toDigits 10 n.natAbs else Nat.toDigits 10 n.natAbs

/-- The integer that a text spells in the one way the server accepts. -/
def parseInteger (t : Text) : Option Int :=
  let value : Int := match t with
    | '-' :: digits => -(digitsValue digits)
    | digits => digitsValue digits
  if decimal value = t ∧ IsInt64 value then some value else none

/-- The decimal digits of a number have it as their value. -/
theorem digitsValue_toDigits (n : Nat) : digitsValue (Nat.toDigits 10 n) = n :=
  Nat.ofDigitChars_ten_toDigits

/-- Decimal texts are read back. The sign is read first, then the digits, and
the value is in the range of 64 bits. -/
theorem parseInteger_decimal {n : Int} (h : IsInt64 n) : parseInteger (decimal n) = some n := by
  have hvalue : (match decimal n with
      | '-' :: digits => -(digitsValue digits : Int)
      | digits => digitsValue digits) = n := by
    unfold decimal
    by_cases hneg : n < 0
    · rw [if_pos hneg]
      show -(digitsValue (Nat.toDigits 10 n.natAbs) : Int) = n
      rw [digitsValue_toDigits, Int.ofNat_natAbs_of_nonpos (Int.le_of_lt hneg), Int.neg_neg]
    · rw [if_neg hneg]
      split
      · rename_i digits hdigits
        have hdigit := Nat.isDigit_of_mem_toDigits (by decide) (by decide)
          (hdigits ▸ List.mem_cons_self : '-' ∈ Nat.toDigits 10 n.natAbs)
        exact absurd hdigit (by decide)
      · rw [digitsValue_toDigits, Int.natAbs_of_nonneg (Int.not_lt.mp hneg)]
  simp only [parseInteger, hvalue]
  exact if_pos ⟨trivial, h⟩

/-- The rejection of a text that is no integer. -/
def NOT_AN_INTEGER : Reason := .error "ERR value is not an integer or out of range".toList

/-- The rejection of a count beyond the integers of the server. -/
def WOULD_OVERFLOW : Reason := .error "ERR increment or decrement would overflow".toList

/-- The rejection of a time that the server cannot hold. -/
def invalidExpire (command : String) : Reason :=
  .error ("ERR invalid expire time in '".toList ++ command.toList ++ "' command".toList)

namespace Cell

/-- The count of a cell; an absent key counts zero. -/
def integer : Option Cell → Except Reason Int
  | none => .ok 0
  | some ⟨.string text, _⟩ => match parseInteger text with
      | some n => .ok n
      | none => .error NOT_AN_INTEGER
  | some _ => .error WRONGTYPE

/-- The count after a step. -/
def increment (step : Int) (cell : Option Cell) : Except Reason Int := do
  let n ← integer cell
  if IsInt64 (n + step) then return n + step else throw WOULD_OVERFLOW

/-- The cell after a step; the deadline stays. -/
def incremented (step : Int) (cell : Option Cell) : Option Cell :=
  match increment step cell with
  | .ok n => hold cell (.string (decimal n))
  | .error _ => cell

/-! ## Times -/

/-- The deadline that a number of seconds from now gives. -/
def deadline (now : Nat) : Option Int → Except Reason (Option Nat)
  | none => .ok none
  | some seconds =>
      if 0 < seconds ∧ now + 1000 * seconds ≤ INT64_MAX then .ok (some (now + 1000 * seconds).toNat)
      else .error (invalidExpire "set")

/-- `SET`, with `EX` and `NX`. -/
def assign (now : Nat) (text : Text) (ex : Option Int) (nx : Bool) (cell : Option Cell) :
    Option Cell × Except Reason (Option Text) :=
  match deadline now ex with
  | .error reason => (cell, .error reason)
  | .ok expiresAt =>
      if nx && cell.isSome then (cell, .ok none)
      else (some ⟨.string text, expiresAt⟩, .ok (some "OK".toList))

/-- `EXPIRE`: a time that is not in the future removes the key. -/
def retime (now : Nat) (seconds : Int) (cell : Option Cell) : Option Cell × Except Reason Int :=
  if INT64_MAX < now + 1000 * seconds then (cell, .error (invalidExpire "expire"))
  else match cell with
    | none => (none, .ok 0)
    | some c =>
        (if seconds ≤ 0 then none else some { c with expiresAt := some (now + 1000 * seconds).toNat },
          .ok 1)

/-- `TTL`, to the nearest second. -/
def remaining (now : Nat) : Option Cell → Int
  | none => -2
  | some ⟨_, none⟩ => -1
  | some ⟨_, some expiresAt⟩ => ((expiresAt - now + 500) / 1000 : Nat)

/-- `PERSIST`. -/
def persist : Option Cell → Option Cell × Int
  | some ⟨value, some _⟩ => (some ⟨value, none⟩, 1)
  | cell => (cell, 0)

/-! ## Hashes and sets -/

open Classical in
/-- A hash under the same deadline; one without fields is no key. -/
noncomputable def holdFields (cell : Option Cell) (field : Text → Option Text) : Option Cell :=
  if ∀ name, field name = none then none else hold cell (.hash field)

/-- A set under the same deadline; one without members is no key. -/
def holdMembers (cell : Option Cell) (members : Finset Text) : Option Cell :=
  if members = ∅ then none else hold cell (.set members)

/-- `HSET`. -/
def setField (name text : Text) (cell : Option Cell) : Option Cell × Except Reason Int :=
  match fields cell with
  | .error reason => (cell, .error reason)
  | .ok field => (hold cell (.hash (Function.update field name (some text))),
      .ok (if (field name).isSome then 0 else 1))

/-- `HDEL`. -/
noncomputable def dropFields (names : List Text) (cell : Option Cell) :
    Option Cell × Except Reason Int :=
  match fields cell with
  | .error reason => (cell, .error reason)
  | .ok field => (holdFields cell (dropAll names field),
      .ok (countHeld Option.isSome names field : Nat))

/-- `SADD`. -/
def addMembers (added : List Text) (cell : Option Cell) : Option Cell × Except Reason Int :=
  match members cell with
  | .error reason => (cell, .error reason)
  | .ok members => (holdMembers cell (members ∪ added.toFinset),
      .ok ((added.toFinset \ members).card : Nat))

/-- `SREM`. -/
def dropMembers (removed : List Text) (cell : Option Cell) : Option Cell × Except Reason Int :=
  match members cell with
  | .error reason => (cell, .error reason)
  | .ok members => (holdMembers cell (members \ removed.toFinset),
      .ok ((removed.toFinset ∩ members).card : Nat))

end Cell

/-! ## The contract -/

/-- The number of an integer. -/
def JsNumber.ofInt (n : Int) : JsNumber := .finite n

/-- An integer that a number holds exactly. -/
def IsSafe (n : Int) : Prop := n.natAbs ≤ MAX_SAFE_INTEGER

instance (n : Int) : Decidable (IsSafe n) := by unfold IsSafe; infer_instance

/-- The reply for an integer: exact for a safe one. -/
def RepliesInteger (x : Except Reason Int) (reply : Except Reason Int) : Prop :=
  match x with
  | .error reason => reply = .error reason
  | .ok n => ∃ n', reply = .ok n' ∧ (IsSafe n → n' = n)

/-- The reply for the members of a set, in any order. -/
def RepliesMembers (x : Except Reason (Finset Text)) (reply : Except Reason (List Text)) : Prop :=
  match x with
  | .error reason => reply = .error reason
  | .ok members => ∃ l, reply = .ok l ∧ l.Nodup ∧ l.toFinset = members

/-- The reply for the fields of a hash, in any order. -/
def RepliesFields (x : Except Reason (Text → Option Text))
    (reply : Except Reason (List (Text × Text))) : Prop :=
  match x with
  | .error reason => reply = .error reason
  | .ok field => ∃ l, reply = .ok l ∧ (l.map Prod.fst).Nodup ∧ ∀ name, l.lookup name = field name

/-- A server: how it answers, what time it is there, what its keys hold, and
how others change it. -/
structure RedisServer (V σ W : Type) where
  answer : σ → (c : ServiceCommand) → σ × ServiceReply V c
  now : σ → Nat
  cells : σ → Text → Option Cell
  world : W → σ → Option σ
  time : W → Nat

namespace RedisServer

variable {V σ W : Type} (server : RedisServer V σ W)

/-- The command takes the cells to these and is answered so, or it is refused
and changes nothing. -/
def Performs (s : σ) (c : KeyCommand) (cells : Text → Option Cell)
    (replies : Except Reason (KeyReply c) → Prop) : Prop :=
  server.now (server.answer s (.key c)).1 = server.now s ∧
    ((server.cells (server.answer s (.key c)).1 = cells ∧ replies (server.answer s (.key c)).2) ∨
      (server.cells (server.answer s (.key c)).1 = server.cells s ∧
        ∃ reason, (server.answer s (.key c)).2 = .error reason))

/-- The command does this to one cell, at the time it is. -/
def AtCell (s : σ) (c : KeyCommand) (key : Text)
    (does : Nat → Option Cell → Option Cell × (Except Reason (KeyReply c) → Prop)) : Prop :=
  server.Performs s c
    (Function.update (server.cells s) key (does (server.now s) (server.cells s key)).1)
    (does (server.now s) (server.cells s key)).2

/-- The commands of the cache service on its keys, as documented. -/
structure Documented : Prop where
  get : ∀ s key, server.AtCell s (.get key) key fun _ cell => (cell, (· = Cell.text cell))
  set : ∀ s key raw nx, server.AtCell s (.set key raw none nx) key fun now cell =>
    let (cell', reply) := Cell.assign now (raw.getD []) none nx cell
    (cell', (· = reply))
  setEx : ∀ s key raw n nx, IsSafe n → server.AtCell s (.set key raw (some (.ofInt n)) nx) key
    fun now cell =>
      let (cell', reply) := Cell.assign now (raw.getD []) (some n) nx cell
      (cell', (· = reply))
  del : ∀ s keys, keys ≠ [] → server.Performs s (.del keys) (dropAll keys (server.cells s))
    (· = .ok (countHeld Option.isSome keys (server.cells s) : Nat))
  existsKey : ∀ s key, server.AtCell s (.existsKey key) key fun _ cell =>
    (cell, (· = .ok (if cell.isSome then 1 else 0)))
  incr : ∀ s key, server.AtCell s (.incr key) key fun _ cell =>
    (Cell.incremented 1 cell, RepliesInteger (Cell.increment 1 cell))
  incrby : ∀ s key n, IsSafe n → server.AtCell s (.incrby key (.ofInt n)) key fun _ cell =>
    (Cell.incremented n cell, RepliesInteger (Cell.increment n cell))
  decr : ∀ s key, server.AtCell s (.decr key) key fun _ cell =>
    (Cell.incremented (-1) cell, RepliesInteger (Cell.increment (-1) cell))
  decrby : ∀ s key n, IsSafe n → server.AtCell s (.decrby key (.ofInt n)) key fun _ cell =>
    (Cell.incremented (-n) cell, RepliesInteger (Cell.increment (-n) cell))
  expire : ∀ s key n, IsSafe n → server.AtCell s (.expire key (.ofInt n)) key fun now cell =>
    let (cell', reply) := Cell.retime now n cell
    (cell', (· = reply))
  ttl : ∀ s key, server.AtCell s (.ttl key) key fun now cell =>
    (cell, RepliesInteger (.ok (Cell.remaining now cell)))
  persist : ∀ s key, server.AtCell s (.persist key) key fun _ cell =>
    let (cell', reply) := Cell.persist cell
    (cell', (· = .ok reply))
  mget : ∀ s keys, keys ≠ [] → server.Performs s (.mget keys) (server.cells s)
    (· = .ok (keys.map fun key => Cell.textOrAbsent (server.cells s key)))
  mset : ∀ s entries, entries ≠ [] → server.Performs s (.mset (msetArguments entries))
    (writeAll (entries.map fun entry => (entry.1, ⟨.string (entry.2.getD []), none⟩))
      (server.cells s))
    (· = .ok "OK".toList)
  hget : ∀ s key name, server.AtCell s (.hget key name) key fun _ cell =>
    (cell, (· = (Cell.fields cell).map (· name)))
  hset : ∀ s key name raw, server.AtCell s (.hset key name raw) key fun _ cell =>
    let (cell', reply) := Cell.setField name (raw.getD []) cell
    (cell', (· = reply))
  hgetall : ∀ s key, server.AtCell s (.hgetall key) key fun _ cell =>
    (cell, RepliesFields (Cell.fields cell))
  hdel : ∀ s key names, names ≠ [] → server.AtCell s (.hdel key names) key fun _ cell =>
    let (cell', reply) := Cell.dropFields names cell
    (cell', (· = reply))
  sadd : ∀ s key added, added ≠ [] → server.AtCell s (.sadd key added) key fun _ cell =>
    let (cell', reply) := Cell.addMembers added cell
    (cell', (· = reply))
  srem : ∀ s key removed, removed ≠ [] → server.AtCell s (.srem key removed) key fun _ cell =>
    let (cell', reply) := Cell.dropMembers removed cell
    (cell', (· = reply))
  smembers : ∀ s key, server.AtCell s (.smembers key) key fun _ cell =>
    (cell, RepliesMembers (Cell.members cell))
  sismember : ∀ s key member, server.AtCell s (.sismember key member) key fun _ cell =>
    (cell, (· = (Cell.members cell).map fun members => if member ∈ members then 1 else 0))
  scard : ∀ s key, server.AtCell s (.scard key) key fun _ cell =>
    (cell, (· = (Cell.members cell).map fun members => (members.card : Int)))

/-- Others let time pass and leave these keys alone. -/
def KeepsOut (region : Text → Prop) : Prop :=
  ∀ w s s', server.world w s = some s' → server.now s ≤ server.time w ∧
    server.now s' = server.time w ∧
    ∀ key, region key → server.cells s' key = Cell.alive (server.time w) (server.cells s key)

end RedisServer

end NestCache
