import NestCache.CacheAdmin

/-!
# Values under a key

What Redis may hold under a key, and what the read commands reply for it.
-/

namespace NestCache

/-! ## Stored values -/

/-- A reply that is not an array. -/
def RedisReply.isScalar : RedisReply → Bool
  | .list _ => false
  | _ => true

/-- A member of a sorted set with its score, as the server sends them. -/
structure ScoredMember where
  member : RedisReply
  score : RedisReply
  member_scalar : member.isScalar = true
  score_scalar : score.isScalar = true

/-- What the service prints of a member. -/
def ScoredMember.print (p : ScoredMember) : Text × Text := (p.member.print, p.score.print)

/-- A value of a type the surface renders.  Fields, members and items stand in
the order the server returns them. -/
inductive StoredValue
  | string (value : Text)
  | hash (fields : List (Text × Text)) (distinct : (fields.map Prod.fst).Nodup)
  | set (members : List Text)
  | list (items : List Text)
  | zset (pairs : List ScoredMember)

/-- The type of a stored value. -/
def StoredValue.type : StoredValue → RedisKeyType
  | string _ => .string
  | hash _ _ => .hash
  | set _ => .set
  | list _ => .list
  | zset _ => .zset

/-- The two wire shapes of a with-scores reply. -/
inductive ScoresShape
  | resp3
  | resp2

/-- A list of `[member, score]` pairs, or a flat alternating list. -/
def ScoresShape.elements : ScoresShape → List ScoredMember → List RedisReply
  | resp3, pairs => pairs.map fun p => .list [p.member, p.score]
  | resp2, pairs => pairs.flatMap fun p => [p.member, p.score]

/-! ## The replies for one key -/

/-- The rejection of a command on a value of another type. -/
def WRONGTYPE : Reason :=
  .error "WRONGTYPE Operation against a key holding the wrong kind of value".toList

section

variable (held : Option StoredValue)

/-- `TYPE`. -/
def typeReply : Text :=
  match held with
  | none => TYPE_NONE
  | some (.string _) => "string".toList
  | some (.hash _ _) => "hash".toList
  | some (.set _) => "set".toList
  | some (.list _) => "list".toList
  | some (.zset _) => "zset".toList

/-- `GET`. -/
def getReply : Except Reason (Option Text) :=
  match held with
  | none => .ok none
  | some (.string value) => .ok (some value)
  | some _ => .error WRONGTYPE

/-- `HGETALL`. -/
def hgetallReply : Except Reason (List (Text × Text)) :=
  match held with
  | none => .ok []
  | some (.hash fields _) => .ok fields
  | some _ => .error WRONGTYPE

/-- `SMEMBERS`. -/
def smembersReply : Except Reason (List Text) :=
  match held with
  | none => .ok []
  | some (.set members) => .ok members
  | some _ => .error WRONGTYPE

/-- `LRANGE key 0 stop`, whose end is inclusive. -/
def lrangeReply (stop : Nat) : Except Reason (List Text) :=
  match held with
  | none => .ok []
  | some (.list items) => .ok (items.take (stop + 1))
  | some _ => .error WRONGTYPE

/-- `ZRANGE key 0 stop WITHSCORES`. -/
def zrangeReply (shape : ScoresShape) (stop : Nat) : Except Reason RedisReply :=
  match held with
  | none => .ok (.list [])
  | some (.zset pairs) => .ok (.list (shape.elements (pairs.take (stop + 1))))
  | some _ => .error WRONGTYPE

end

end NestCache
