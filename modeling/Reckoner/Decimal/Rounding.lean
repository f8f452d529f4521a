import Reckoner.Decimal.DigitBound

/-!
# Rounding to whole numbers

Floor, ceiling and nearest integer of a decimal. A whole number is returned as it is. Of any other
the fraction is dropped, and with it as many digits of precision as the fraction had; values that
`digitsAtMost` shows to be small are decided by their sign alone.
-/

namespace Reckoner.Decimal

/-- Rounds to a whole number in a given direction: `whole` takes a significand and a power of ten
to the quotient. The digits dropped count against the precision. Of a value that is surely below
a hundredth only its sign is left, and no precision. -/
def roundWith (whole : Int → Int → Int) (d : Decimal) : Decimal :=
  if 0 ≤ d.exponent then d
  else if d.exponent + d.digitsAtMost < -1 then ofScaled (whole d.significand.sign 10) 0 0
  else ofScaled (whole d.significand (10 ^ d.exponent.natAbs)) 0 (d.precision - d.exponent.natAbs)

/-- The largest whole number that is not larger. -/
def floor (d : Decimal) : Decimal := roundWith Int.fdiv d

/-- The smallest whole number that is not smaller. -/
def ceil (d : Decimal) : Decimal := roundWith (fun n m => -((-n).fdiv m)) d

/-- One half, with a precision of one digit. -/
def half : Decimal := ofInteger 5 (-1)

/-- Adds one half in the direction of the sign and drops the fraction. The sum is rounded to the
precision of its operands before. -/
def round (d : Decimal) : Decimal :=
  if d.isNegative then (d.sub half).ceil else (d.add half).floor

end Reckoner.Decimal
