import Mathlib.Algebra.Field.Rat
import Mathlib.Algebra.Order.Ring.Rat
import Mathlib.Data.Rat.Cast.Order
import Mathlib.Tactic.Common

/-!
# Rounding to double precision

`round` is the nearest double of a rational number, ties to the even significand:
the number is measured in units of the last of 53 bits, or of the smallest
subnormal, and rounded to a whole number of them.  A number that rounds beyond
the largest double has none.  Integers below `2 ^ 53` are exact (`round_intCast`).
-/

namespace Binary64

/-- The nearest natural number of a fraction, ties to even. -/
def halfEven (n d : Nat) : Nat :=
  if 2 * (n % d) < d ∨ 2 * (n % d) = d ∧ n / d % 2 = 0 then n / d else n / d + 1

/-- The floor of the binary logarithm of a fraction. -/
def log2Ratio (n d : Nat) : Int :=
  let k : Int := Nat.log2 n - Nat.log2 d
  if n * 2 ^ (-k).toNat < d * 2 ^ k.toNat then k - 1 else k

/-- The exponent of the unit in the last place. -/
def unitExponent (n d : Nat) : Int := max (log2Ratio n d - 52) (-1074)

/-- Doubles are below `2 ^ 1024`. -/
def exponentLimit : Nat := 1024

/-- What rounds to this or more has no double. -/
def overflow : Nat := 2 ^ exponentLimit

/-- The nearest double, unless it overflows. -/
def round (q : Rat) : Option Rat :=
  let n := q.num.natAbs
  let e := unitExponent n q.den
  let units := halfEven (n * 2 ^ (-e).toNat) (q.den * 2 ^ e.toNat)
  let magnitude : Rat := (units * 2 ^ e.toNat : Nat) / (2 ^ (-e).toNat : Nat)
  if (overflow : Rat) ≤ magnitude then none
  else some (if q < 0 then -magnitude else magnitude)

/-- A whole number is rounded to itself. -/
@[simp] theorem halfEven_one (n : Nat) : halfEven n 1 = n := by
  simp [halfEven, Nat.mod_one]

/-- The unit of an integer below `2 ^ 53` is at most one. -/
theorem unitExponent_nonpos {n : Nat} (h : n < 2 ^ 53) : unitExponent n 1 ≤ 0 := by
  have hlog : Nat.log2 n < 53 := by
    by_cases hn : n = 0
    · subst hn
      decide
    · exact (Nat.log2_lt hn).mpr h
  have hone : Nat.log2 1 = 0 := by decide
  unfold unitExponent log2Ratio
  simp only [hone]
  split <;> omega

/-- **Exact integers.** An integer below `2 ^ 53` is a double. Such a number
has no bits to round away: its exponent is at most 52, so the unit is no
larger than one. -/
theorem round_intCast {z : Int} (h : z.natAbs < 2 ^ 53) : round (z : Rat) = some (z : Rat) := by
  have hzero : (unitExponent z.natAbs 1).toNat = 0 := by
    have hexp := unitExponent_nonpos h
    omega
  simp only [round, Rat.num_intCast, Rat.den_intCast, hzero, pow_zero, mul_one, halfEven_one]
  have hpow : ((2 ^ (-unitExponent z.natAbs 1).toNat : Nat) : Rat) ≠ 0 := by
    simp
  have hmagnitude : ((z.natAbs * 2 ^ (-unitExponent z.natAbs 1).toNat : Nat) : Rat) /
      ((2 ^ (-unitExponent z.natAbs 1).toNat : Nat) : Rat) = (z.natAbs : Rat) := by
    rw [Nat.cast_mul, mul_div_cancel_right₀ _ hpow]
  have hsmall : ¬ (overflow : Rat) ≤ (z.natAbs : Rat) := by
    rw [Nat.cast_le, not_le, overflow]
    exact h.trans (Nat.pow_lt_pow_right Nat.one_lt_two (by decide : 53 < exponentLimit))
  rw [hmagnitude, if_neg hsmall]
  congr 1
  by_cases hneg : z < 0
  · have hcast : (z : Rat) < 0 := by exact_mod_cast hneg
    have habs : ((z.natAbs : Int) : Rat) = ((-z : Int) : Rat) := by
      congr 1
      omega
    rw [if_pos hcast, ← Int.cast_natCast, habs, Int.cast_neg, neg_neg]
  · have hcast : ¬ (z : Rat) < 0 := by exact_mod_cast hneg
    have habs : ((z.natAbs : Int) : Rat) = (z : Rat) := by
      congr 1
      omega
    rw [if_neg hcast, ← Int.cast_natCast, habs]

end Binary64
