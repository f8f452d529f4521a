import Reckoner.Decimal.Arithmetic

/-!
# Logarithm and exponential

The natural logarithm and the exponential of a decimal, correctly rounded to its precision.

Both are computed as an `Enclosure`: two bounds on the value in units of `10 ^ -places`. When the
two bounds round to the same decimal, that decimal is the answer; otherwise the computation is
repeated with twice as many places (`settle`). Values other than those of `ln 1` and `exp 0` are
irrational, so some number of places decides.
-/

namespace Reckoner.Decimal

/-- A number known to lie between `low * 10 ^ exponent` and `high * 10 ^ exponent`. -/
structure Enclosure where
  low : Int
  high : Int
  exponent : Int

namespace Enclosure

/-- The numbers at most `error` units away from `middle`. -/
def around (middle : Int) (error : Nat) (exponent : Int) : Enclosure :=
  ⟨middle - error, middle + error, exponent⟩

/-- The rounding that all numbers of an enclosure have in common. -/
def common? (p : Nat) (e : Enclosure) : Option Decimal :=
  let low := rounded p e.low e.exponent
  let high := rounded p e.high e.exponent
  if low = high ∧ low.significand ≠ 0 then some low else none

end Enclosure

/-- Tries ever more places until an enclosure settles the rounding to `p` digits. -/
def settle (p : Nat) (enclose : (places : Nat) → Enclosure) : (attempts places : Nat) → Decimal
  | 0, places => rounded p (enclose places).low (enclose places).exponent
  | attempts + 1, places =>
    match (enclose places).common? p with
    | some d => d
    | none => settle p enclose attempts (2 * places)

/-- How often the number of places may be doubled. -/
def maxAttempts : Nat := 40

/-- The sum `term / k + term * r / (k + 2) + term * r ^ 2 / (k + 4) + …` for `r = n / d`, each
quotient truncated, and the number of terms summed, added to `count`. -/
def oddSeries (n d : Nat) : (fuel : Nat) → (k : Nat) → (term sum : Int) → (count : Nat) → Int × Nat
  | 0, _, _, sum, count => (sum, count)
  | fuel + 1, k, term, sum, count =>
    if term = 0 then (sum, count)
    else oddSeries n d fuel (k + 2) ((term * n).tdiv d) (sum + term.tdiv k) (count + 1)

/-- The inverse hyperbolic tangent of `n / d` for `|n / d| < 3 / 5`, in units of `10 ^ -places`, and
a bound on the error. Successive terms shrink by a factor of 2.7 at least, so that four units for
every term cover all truncations and the rest of the series. -/
def artanh (n : Int) (d : Nat) (places : Nat) : Int × Nat :=
  let (sum, count) :=
    oddSeries (n.natAbs ^ 2) (d ^ 2) (4 * places + 16) 1 ((n * 10 ^ places).tdiv d) 0 0
  (sum, 4 * count + 8)

/-- The logarithm of 10 by `ln 10 = 46 artanh (1/31) + 34 artanh (1/49) + 20 artanh (1/161)`. -/
def lnTen (places : Nat) : Int × Nat :=
  let (a, ea) := artanh 1 31 places
  let (b, eb) := artanh 1 49 places
  let (c, ec) := artanh 1 161 places
  (46 * a + 34 * b + 20 * c, 46 * ea + 34 * eb + 20 * ec)

/-- The logarithm of a positive `s * 10 ^ e`. With `s` of `k` digits the value is
`10 ^ (e + k - 1)` times a number from 1 to 10, or one order more where that brings the number
closer to 1. -/
def lnEnclosure (s : Nat) (e : Int) (places : Nat) : Enclosure :=
  let k := Text.digitCount s
  let order := if 10 ^ k < s * 3 then k else k - 1
  let unit : Nat := 10 ^ order
  let (near, nearError) := artanh ((s : Int) - unit) (s + unit) places
  let (ten, tenError) := lnTen places
  let power := e + order
  .around (2 * near + power * ten) (2 * nearError + power.natAbs * tenError) (-places)

/-- The natural logarithm of a positive decimal. -/
def ln (a : Decimal) : Decimal :=
  if a.significand = 1 ∧ a.exponent = 0 then zero
  else
    settle a.precision (lnEnclosure a.significand.natAbs a.exponent) maxAttempts (a.precision + 20)

/-- The sum of `term / 1 + term * x / 2 + …`, the terms of the exponential series of `x` in units
of `10 ^ -places`, and the number of terms summed. -/
def expSeries (x : Int) (places : Nat) : (fuel k : Nat) → (term sum : Int) → Int × Nat
  | 0, k, _, sum => (sum, k)
  | fuel + 1, k, term, sum =>
    if term = 0 then (sum, k)
    else expSeries x places fuel (k + 1) ((term * x).tdiv (10 ^ places * (k + 1))) (sum + term)

/-- The exponential of `s * 10 ^ e`. The argument is reduced to at most 1.2 by a multiple of
`ln 10`, which becomes the exponent of the result; eight units for every term cover the
truncations of the series and of the reduced argument. -/
def expEnclosure (s : Int) (e : Int) (places : Nat) : Enclosure :=
  let scaled (places : Nat) : Int :=
    if 0 ≤ e + places then s * 10 ^ (e + places).toNat
    else s.tdiv (10 ^ (-(e + places)).toNat)
  let power := (2 * scaled 4 + 23026).fdiv (2 * 23026)
  let extra := Text.digitCount power.natAbs + 4
  let (ten, tenError) := lnTen (places + extra)
  let shift := (power * ten).tdiv (10 ^ extra)
  let shiftError := power.natAbs * tenError / 10 ^ extra + 2
  let unit : Int := 10 ^ places
  let (sum, count) := expSeries (scaled places - shift) places (8 * places + 64) 0 unit 0
  .around sum (8 * count + 8 + 4 * shiftError) (power - places)

/-- The exponential of a decimal. -/
def exp (a : Decimal) : Decimal :=
  if a.isZero then one
  else settle a.precision (expEnclosure a.significand a.exponent) maxAttempts (a.precision + 20)

end Reckoner.Decimal
