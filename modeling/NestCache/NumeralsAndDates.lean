import NestCache.Binary64
import NestCache.CacheErrors
import NestCache.RedisUrl

/-!
# Numerals and dates

What the runtime makes of a decimal numeral, and of a number of milliseconds: a
date holds an integer within `8.64e15` of the epoch or is invalid, and only a
valid date has an ISO text.
-/

namespace NestCache

/-! ## Numerals -/

/-- The number nearest to a rational. -/
def JsNumber.ofRat (q : Rat) : JsNumber :=
  match Binary64.round q with
  | some v => .finite v
  | none => if q < 0 then .negInf else .posInf

/-- A numeral taken apart: sign, digits before and after the point,
exponent. -/
structure Numeral where
  negative : Bool
  whole : Text
  fraction : Text
  exponent : Int
  deriving DecidableEq

/-- The value of a run of digits. -/
def digitsValue (digits : Text) : Nat :=
  digits.foldl (fun n c => 10 * n + (c.toNat - '0'.toNat)) 0

/-- An optional sign. -/
def readSign : Text → Bool × Text
  | '-' :: rest => (true, rest)
  | '+' :: rest => (false, rest)
  | rest => (false, rest)

/-- One or more digits. -/
def readDigits (t : Text) : Option (Text × Text) :=
  if t.takeWhile isDigit = [] then none else some (t.takeWhile isDigit, t.dropWhile isDigit)

/-- The exponent that ends a numeral, zero when there is none. -/
def readExponent : Text → Option Int
  | [] => some 0
  | c :: rest =>
      if c = 'e' ∨ c = 'E' then
        let (negative, rest) := readSign rest
        match readDigits rest with
        | some (digits, []) => some (if negative then -(digitsValue digits) else digitsValue digits)
        | _ => none
      else none

/-- The match of `/^[+-]?\d+(\.\d+)?([eE][+-]?\d+)?$/`. -/
def readNumeral (t : Text) : Option Numeral := do
  let (negative, rest) := readSign t
  let (whole, rest) ← readDigits rest
  match rest with
  | '.' :: rest =>
      let (fraction, rest) ← readDigits rest
      let exponent ← readExponent rest
      return { negative, whole, fraction, exponent }
  | rest =>
      let exponent ← readExponent rest
      return { negative, whole, fraction := [], exponent }

/-- The exact value of a numeral. -/
def Numeral.value (numeral : Numeral) : Rat :=
  let digits := digitsValue (numeral.whole ++ numeral.fraction)
  let scale : Int := numeral.exponent - numeral.fraction.length
  mkRat ((if numeral.negative then -1 else 1) * digits * 10 ^ scale.toNat) (10 ^ (-scale).toNat)

/-! ## Dates -/

/-- The range of a date, in milliseconds. -/
def MAX_TIME_MS : Nat := 8640000000000000

/-- The time of a valid date. -/
structure TimeValue where
  ms : Int
  inRange : ms.natAbs ≤ MAX_TIME_MS
  deriving DecidableEq

/-- A date; `none` is the invalid one. -/
abbrev JsDate := Option TimeValue

/-- A number of milliseconds within the range of dates, on either side. -/
def JsNumber.inDateRange : JsNumber → Bool
  | .finite q => q.num.natAbs ≤ MAX_TIME_MS * q.den
  | .nan | .negInf | .posInf => false

/-- `new Date(ms)`: out of range is invalid, a fraction is cut off. -/
def newDate : JsNumber → JsDate
  | .finite q =>
      if h : q.num.natAbs ≤ MAX_TIME_MS * q.den then
        some ⟨q.num.tdiv q.den, by
          rw [Int.natAbs_tdiv, Int.natAbs_natCast]
          exact Nat.div_le_of_le_mul (by rwa [Nat.mul_comm])⟩
      else none
  | .nan | .negInf | .posInf => none

/-- A number is a date exactly in the range of dates. -/
theorem isSome_newDate (n : JsNumber) : (newDate n).isSome = n.inDateRange := by
  cases n with
  | finite q =>
      by_cases h : q.num.natAbs ≤ MAX_TIME_MS * q.den <;>
        simp [newDate, JsNumber.inDateRange, h]
  | _ => rfl

/-- Decimal digits, padded with zeros. -/
def padded (width n : Nat) : Text :=
  let digits := Nat.toDigits 10 n
  List.replicate (width - digits.length) '0' ++ digits

def MS_PER_DAY : Int := 86400000

/-- Year, month and day of a number of days since the epoch. The year starts
in March, so that the leap day is its last; eras have 400 years. -/
def civilFromDays (days : Int) : Int × Nat × Nat :=
  let shifted := days + 719468
  let era := shifted / 146097
  let dayOfEra := (shifted % 146097).toNat
  let yearOfEra := (dayOfEra - dayOfEra / 1460 + dayOfEra / 36524 - dayOfEra / 146096) / 365
  let dayOfYear := dayOfEra - (365 * yearOfEra + yearOfEra / 4 - yearOfEra / 100)
  let march := (5 * dayOfYear + 2) / 153
  let day := dayOfYear - (153 * march + 2) / 5 + 1
  let month := if march < 10 then march + 3 else march - 9
  (yearOfEra + era * 400 + (if month ≤ 2 then 1 else 0), month, day)

/-- Four digits, or a sign and six. -/
def yearText (year : Int) : Text :=
  if 0 ≤ year ∧ year ≤ 9999 then padded 4 year.toNat
  else (if year < 0 then '-' else '+') :: padded 6 year.natAbs

/-- The ISO text of a time. -/
def isoText (t : TimeValue) : Text :=
  let (year, month, day) := civilFromDays (t.ms / MS_PER_DAY)
  let ms := (t.ms % MS_PER_DAY).toNat
  yearText year ++ '-' :: padded 2 month ++ '-' :: padded 2 day ++
    'T' :: padded 2 (ms / 3600000) ++ ':' :: padded 2 (ms / 60000 % 60) ++
    ':' :: padded 2 (ms / 1000 % 60) ++ '.' :: padded 3 (ms % 1000) ++ ['Z']

/-- The `RangeError` of an invalid date. -/
def INVALID_TIME : Reason :=
  ⟨.text "Invalid time value".toList, some "RangeError: Invalid time value".toList⟩

/-- `toISOString`. -/
def toISOString : JsDate → Except Thrown Text
  | some t => .ok (isoText t)
  | none => .error (.raw INVALID_TIME)

example : toISOString (newDate 1755777600000) = .ok "2025-08-21T12:00:00.000Z".toList := by
  decide +kernel

end NestCache
