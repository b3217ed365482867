import Mathlib.Data.Nat.Sqrt
import Mathlib.Data.Rat.Floor

/-! # Decimal arithmetic

The operations of the source on floating-point numbers, left to the library that
rounds them. Exact fractions are one instance, for evaluation.
-/

namespace BacktestEngine

/-- The decimal arithmetic of the limits, with the rounding of its library. -/
class Decimal (D : Type) where
  ofInt : ℤ → D
  mul : D → D → D
  div : D → D → D
  lt : D → D → Bool
  toInt64 : D → ℤ

/-- Exact fractions, cut toward zero where an integer is asked for. -/
instance : Decimal ℚ where
  ofInt n := n
  mul := (· * ·)
  div := (· / ·)
  lt a b := decide (a < b)
  toInt64 q := q.num.tdiv q.den

/-- Rounding to the nearest integer, halves away from zero, with what is compared and rounded. -/
class Rounding (D : Type) extends Decimal D where
  beq : D → D → Bool
  abs : D → D
  llround : D → ℤ

instance : Rounding ℚ where
  beq a b := decide (a = b)
  abs q := if 0 ≤ q then q else -q
  llround q :=
    if 0 ≤ q then (2 * q.num + q.den) / (2 * q.den) else -((q.den - 2 * q.num) / (2 * q.den))

/-- Rounding up as well, for the rank of a percentile. -/
class Ceiling (D : Type) extends Rounding D where
  ceil : D → ℤ

instance : Ceiling ℚ where
  ceil q := -(-q.num / q.den)

/-- Decimals that are summed. -/
class Summing (D : Type) extends Decimal D where
  add : D → D → D

instance : Summing ℚ where
  add := (· + ·)

/-- The double arithmetic of the scores. A literal or a count becomes the double nearest to it. -/
class Doubles (F : Type) extends Add F, Sub F, Mul F, Div F where
  nearest : ℚ → F
  abs : F → F
  sqrt : F → F
  beq : F → F → Bool
  lt : F → F → Bool
  le : F → F → Bool
  isFinite : F → Bool

/-- Exact fractions, with the root cut to the denominator of its argument. -/
instance : Doubles ℚ where
  nearest := id
  abs q := if 0 ≤ q then q else -q
  sqrt q := (Nat.sqrt (q.num.toNat * q.den) : ℚ) / q.den
  beq a b := decide (a = b)
  lt a b := decide (a < b)
  le a b := decide (a ≤ b)
  isFinite _ := true

/-- The casts between the decimals and the doubles. -/
class Casts (D : Type) (F : outParam Type) where
  toDouble : D → F
  ofDouble : F → D

instance : Casts ℚ ℚ where
  toDouble := id
  ofDouble := id

end BacktestEngine
