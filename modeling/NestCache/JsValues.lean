import Mathlib.Data.List.Infix
import Mathlib.Data.List.Sort
import Mathlib.Data.Rat.Defs
import Mathlib.Tactic.Common

/-!
# The JavaScript values the library computes with

Strings are words of characters, cut by their UTF-16 code units where the source
cuts them.  Numbers are the finite values with the two infinities and `NaN`, and
whatever a `catch` receives is a `Reason`: what reading its `message` gives and
what `String()` makes of it.
-/

namespace NestCache

/-- A JavaScript string. -/
abbrev Text := List Char

/-- White space and line terminators, as `String.prototype.trim` removes
them. -/
def isJsWhitespace (c : Char) : Bool :=
  c ∈ ['\t', '\n', '\x0b', '\x0c', '\r', ' ', '\u00a0', '\u1680', '\u2028', '\u2029',
    '\u202f', '\u205f', '\u3000', '\ufeff'] || ('\u2000' ≤ c && c ≤ '\u200a')

/-- `String.prototype.trim`. -/
def Text.trim (t : Text) : Text :=
  ((t.dropWhile isJsWhitespace).reverse.dropWhile isJsWhitespace).reverse

/-- `String.prototype.includes`. -/
def Text.includes (t word : Text) : Bool := decide (word <:+: t)

/-- A UTF-16 code unit, which is what `length` counts and `slice` cuts. -/
abbrev CodeUnit := UInt16

/-- The code units of a character: two beyond the basic plane. -/
def charCodeUnits (c : Char) : List CodeUnit :=
  if c.toNat < 0x10000 then [c.toNat.toUInt16]
  else
    let offset := c.toNat - 0x10000
    [(0xD800 + offset / 0x400).toUInt16, (0xDC00 + offset % 0x400).toUInt16]

/-- The code units of a string. -/
def Text.codeUnits (t : Text) : List CodeUnit := t.flatMap charCodeUnits

/-- A JavaScript number. -/
inductive JsNumber
  | nan
  | negInf
  | posInf
  | finite (q : Rat)
  deriving DecidableEq

namespace JsNumber

instance (n : Nat) : OfNat JsNumber n := ⟨finite n⟩

/-- The value of a natural number. -/
def ofNat (n : Nat) : JsNumber := finite n

/-- `a < b`: false as soon as one side is `NaN`. -/
def lt : JsNumber → JsNumber → Bool
  | nan, _ => false
  | _, nan => false
  | negInf, b => b != negInf
  | _, negInf => false
  | posInf, _ => false
  | _, posInf => true
  | finite a, finite b => a < b

/-- `a + b`. -/
def add : JsNumber → JsNumber → JsNumber
  | nan, _ => nan
  | _, nan => nan
  | posInf, negInf => nan
  | negInf, posInf => nan
  | posInf, _ => posInf
  | _, posInf => posInf
  | negInf, _ => negInf
  | _, negInf => negInf
  | finite a, finite b => finite (a + b)

end JsNumber

/-! ## Object properties -/

/-- The array index a property name spells, if any. -/
def arrayIndex? (name : Text) : Option Nat :=
  let value := name.foldl (fun n c => 10 * n + (c.toNat - '0'.toNat)) 0
  if name ≠ [] ∧ name.all (fun c => '0' ≤ c && c ≤ '9') ∧ (name.head? ≠ some '0' ∨ name = ['0']) ∧
      value < 4294967295 then some value
  else none

/-- `Object.entries` of an object filled in the given order: array indices
come first, in ascending order. -/
def objectEntries (fields : List (Text × Text)) : List (Text × Text) :=
  (fields.filter (arrayIndex? ·.1 |>.isSome)).insertionSort
      (fun a b => (arrayIndex? a.1).getD 0 ≤ (arrayIndex? b.1).getD 0) ++
    fields.filter (arrayIndex? ·.1 |>.isNone)

/-- The entries of an object are the fields it was filled with. -/
theorem objectEntries_perm (fields : List (Text × Text)) : (objectEntries fields).Perm fields := by
  have hnone : (fun f : Text × Text => (arrayIndex? f.1).isNone) =
      fun f => !(arrayIndex? f.1).isSome := by
    funext f
    simp
  unfold objectEntries
  rw [hnone]
  exact ((List.perm_insertionSort _ _).append_right _).trans (List.filter_append_perm _ fields)

/-- Without array indices among the names, the order is the one of filling. -/
theorem objectEntries_of_names {fields : List (Text × Text)}
    (hnames : ∀ f ∈ fields, arrayIndex? f.1 = none) : objectEntries fields = fields := by
  have hindices : fields.filter (fun f => (arrayIndex? f.1).isSome) = [] := by
    refine List.filter_eq_nil_iff.mpr fun f hf => ?_
    simp [hnames f hf]
  have hothers : fields.filter (fun f => (arrayIndex? f.1).isNone) = fields := by
    refine List.filter_eq_self.mpr fun f hf => ?_
    simp [hnames f hf]
  simp [objectEntries, hindices, hothers]

/-! ## Caught values -/

/-- What reading `reason?.message` gives: a string, anything else, or a throw
from a getter. -/
inductive MessageField
  | text (t : Text)
  | other
  | throws
  deriving DecidableEq, Repr

/-- A caught or rejected value of any type.  `printed` is what `String()`
returns for it, `none` when `String()` itself throws. -/
structure Reason where
  message : MessageField
  printed : Option Text
  deriving DecidableEq, Repr

/-- An ordinary `Error` with the given message. -/
def Reason.error (message : Text) : Reason := ⟨.text message, some ("Error: ".toList ++ message)⟩

/-- Text returned when the value cannot be printed at all. -/
def UNPRINTABLE : Text := "unprintable error".toList

/-- Describes a thrown or rejected value without throwing. -/
def describeError (reason : Reason) : Text :=
  match reason.message with
  | .throws => UNPRINTABLE
  | .text message => message
  | .other => reason.printed.getD UNPRINTABLE

end NestCache
