/-!
# Settings

The limits and thresholds of a computation. `maxExactBits` is the size at which exact results give
way to approximate ones, `maxDecimalExponent` the size at which results are refused, and the rest
decides how numbers are written and how deep a tree may be.
-/

namespace Reckoner

structure Settings where
  /-- Decimal digits carried by approximate functions. -/
  precision : Nat := 50
  /-- Most decimal places of a number that is written exactly as a decimal. -/
  digitBudget : Nat := 20
  /-- Significant digits of an approximate text. -/
  approxDigits : Nat := 12
  /-- Most bits of the numerator and the denominator of an exact result. -/
  maxExactBits : Nat := 4096
  /-- Fractions with a larger denominator are not written as fractions. -/
  maxFractionDenom : Nat := 1000000
  /-- Fractions with a larger numerator are not written as fractions. -/
  maxFractionNumer : Nat := 1000000000
  /-- A decimal with more digits before its point gets an approximate text as well. -/
  maxExactIntDigits : Nat := 21
  /-- Largest power of ten, of either sign, that a result may reach. -/
  maxDecimalExponent : Nat := 100000
  /-- Approximate numbers are equal within a relative `10 ^ -equalityTolerance`. -/
  equalityTolerance : Nat := 12
  /-- Deepest level of an expression tree that is evaluated. -/
  maxDepth : Nat := 256
deriving DecidableEq, Inhabited

end Reckoner
