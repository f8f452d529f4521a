import Reckoner.Decimal.Binary
import Reckoner.Decimal.Elementary

/-!
# A bound on digit counts

`Decimal.digitsAtMost` bounds the number of digits of a significand from above without counting
them. It goes by the leading 24 bits: their binary logarithm is taken in single precision, that is
with 24 significant bits, it is moved up to the next such number wherever it may have been rounded
down, and multiplied with the decimal logarithm of 2. The bound is the digit count, or one more
for a number that is closer to the next power of ten than these steps can tell.

All quantities are natural numbers in units of `2 ^ -60`, the logarithms among them too.
-/

namespace Reckoner.Decimal

namespace Single

/-- The number 1 in the units of this module. -/
def one : Nat := 2 ^ 60

/-- A number rounded to 24 significant bits. -/
def round (n : Nat) : Nat := roundToBits 24 n

/-- The next number with 24 significant bits. -/
def next (n : Nat) : Nat := n + bitStep 24 n

/-- The binary logarithm of a positive number, exact to 18 decimal places at least. With `u` the
power of two below `n` it is `log u + artanh ((n - u) / (n + u)) / artanh (1 / 3)`. -/
def log2 (n : Nat) : Nat :=
  let u : Nat := 2 ^ n.log2
  let (a, _) := artanh ((n : Int) - u) (n + u) 30
  let (b, _) := artanh 1 3 30
  n.log2 * one + a.natAbs * one / b.natAbs

/-- A bound on the binary logarithm of a number, from its leading 24 bits. -/
def log2Bound (n : Nat) : Nat :=
  let excess := n.log2 - 23
  if excess = 0 then next (round (log2 n))
  else next (round (round (log2 (n / 2 ^ excess + 1)) + excess * one))

/-- `log2Bound` for numbers of any length. Of one that is longer than two words of 64 bits the words
below the first two are cut off. -/
def longLog2Bound (n : Nat) : Nat :=
  let words := n.log2 / 64 + 1
  if words ≤ 2 then log2Bound n
  else
    let below := 64 * (words - 2)
    next (round (log2Bound (n / 2 ^ below) + below * one))

/-- The decimal logarithm of 2 with 24 significant bits, in units of `2 ^ -25`. -/
def log10Two : Nat := 10100891

/-- A bound on the number of digits of a positive number. -/
def digitBound (n : Nat) : Nat := round (longLog2Bound n * log10Two) / (one * 2 ^ 25) + 1

end Single

/-- A bound on the number of digits of the significand. -/
def digitsAtMost (d : Decimal) : Nat := max d.digits (Single.digitBound d.significand.natAbs)

theorem digits_le_digitsAtMost (d : Decimal) : d.digits ≤ d.digitsAtMost := Nat.le_max_left _ _

end Reckoner.Decimal
