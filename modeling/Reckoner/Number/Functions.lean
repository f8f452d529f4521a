import Reckoner.Number.Basic

/-!
# Powers, roots and elementary functions

Functions of a number to a given precision. Powers and roots stay exact where they can; logarithm,
exponential and the trigonometric functions are approximate except at the one exact point of
each (`ln 1`, `exp 0`, `sin 0`, `cos 0`).
-/

namespace Reckoner.Number

/-! ### Powers and roots -/

/-- `base ^ n` by repeated squaring: `result` holds the factors taken so far, and `square` the
power of the base that belongs to the lowest bit left in `n`. -/
def squareAndMultiply : (fuel n : Nat) → (result square : Decimal) → Decimal
  | 0, _, result, _ => result
  | fuel + 1, n, result, square =>
    if n = 0 then result
    else
      let result := if n % 2 = 1 then result.mul square else result
      let square := if n / 2 = 0 then square else square.mul square
      squareAndMultiply fuel (n / 2) result square

/-- An integer power of a decimal at precision `p`. -/
def decimalPower (base : Decimal) (e : Int) (p : Nat) : Decimal :=
  let unit := Decimal.one.withPrecision p
  let power := squareAndMultiply (bitCount e.natAbs) e.natAbs unit base
  if e < 0 then unit.div power else power

/-- The bits that `r ^ e` may need, up to the largest 64-bit count. -/
def powerBits (r : Rat) (e : Int) : Nat := min (ratBits r * e.natAbs) (2 ^ 64 - 1)

/-- An integer power. It is exact when the base is and the estimated size of the result stays
within `maxExactBits`. -/
def powInt (x : Number) (e : Int) (s : Settings) : Except NumberError Number :=
  if e = 0 then .ok (ofInt 1)
  else if x.isZero then
    if e < 0 then .error .divisionByZero else .ok (ofInt 0)
  else
    let approximate : Number := approx (decimalPower (x.toDecimal s.precision) e s.precision)
    match x with
    | exact r =>
      -- The size is estimated first, since the power itself may be too long to compute.
      if s.maxExactBits < powerBits r e then .ok approximate
      else if 2 ^ 32 ≤ e.natAbs then .error .overflow
      else .ok (exact (r ^ e))
    | approx _ => .ok approximate

/-- A power `x ^ y = exp (y * ln x)`, approximate unless it is a power of zero or to the zeroth. -/
def powReal (x y : Number) (p : Nat) : Except NumberError Number :=
  if y.isZero then .ok (ofInt 1)
  else if x.isZero then
    if y.isNegative then .error .divisionByZero else .ok (ofInt 0)
  else if x.isNegative then
    .error (.outsideDomain "negative base with non-integer exponent")
  else .ok (approx ((x.toDecimal p).ln.mul (y.toDecimal p)).exp)

/-- A power. An exact whole exponent gives an integer power, any other a real one. -/
def pow (x y : Number) (s : Settings) : Except NumberError Number :=
  match y with
  | exact r =>
    if r.den = 1 then
      if FitsSigned 64 r.num then x.powInt r.num s else .error .overflow
    else x.powReal y s.precision
  | approx _ => x.powReal y s.precision

/-- The square root of a rational that is the square of one. -/
def ratSqrt? (r : Rat) : Option Rat :=
  let n := r.num.natAbs.sqrt
  let d := r.den.sqrt
  if n * n = r.num.natAbs ∧ d * d = r.den then some (mkRat n d) else none

/-- The square root, exact for squares of rationals. -/
def sqrt (x : Number) (p : Nat) : Except NumberError Number :=
  if x.isNegative then .error (.outsideDomain "square root of negative number")
  else if x.isZero then .ok (ofInt 0)
  else
    match x.rat?.bind ratSqrt? with
    | some root => .ok (exact root)
    | none => .ok (approx (x.toDecimal p).sqrt)

/-! ### Logarithm and exponential -/

def ln (x : Number) (p : Nat) : Except NumberError Number :=
  if x.isZero || x.isNegative then .error (.outsideDomain "logarithm of non-positive number")
  else if x = ofInt 1 then .ok (ofInt 0)
  else .ok (approx (x.toDecimal p).ln)

def exp (x : Number) (p : Nat) : Number :=
  if x = ofInt 0 then ofInt 1 else approx (x.toDecimal p).exp

/-! ### Trigonometric functions -/

/-- How many terms of the sine and cosine series are summed. -/
def seriesTerms (p : Nat) : Nat := max 12 (min (p / 3) 50)

/-- The sum of `term`, `-term * square / divisor k`, … over the given `k`, each term made from the
one before and added to `sum`. -/
def alternatingSum (square : Decimal) (divisor : Nat → Nat) :
    List Nat → (term sum : Decimal) → Decimal
  | [], _, sum => sum
  | k :: ks, term, sum =>
    let next := (term.neg.mul square).div (Decimal.ofInteger (divisor k) 0)
    alternatingSum square divisor ks next (sum.add next)

/-- The indices of the series terms after the first one. -/
def seriesIndices (p : Nat) : List Nat := (List.range (seriesTerms p)).tail

/-- The sine, by its Taylor series at 0. -/
def sin (x : Number) (p : Nat) : Number :=
  if x = ofInt 0 then ofInt 0
  else
    let a := x.toDecimal p
    approx (alternatingSum (a.mul a) (fun k => 2 * k * (2 * k + 1)) (seriesIndices p) a a)

/-- The cosine, by its Taylor series at 0. -/
def cos (x : Number) (p : Nat) : Number :=
  if x = ofInt 0 then ofInt 1
  else
    let a := x.toDecimal p
    let unit := Decimal.one.withPrecision p
    approx (alternatingSum (a.mul a) (fun k => (2 * k - 1) * (2 * k)) (seriesIndices p) unit unit)

def tan (x : Number) (p : Nat) : Except NumberError Number :=
  let c := x.cos p
  if c.isZero then .error (.outsideDomain "tan undefined at odd multiples of π/2")
  else (x.sin p).div c

/-! ### Constants -/

/-- The decimal places of π in `piDigits`. -/
def piPlaces : Nat := 500

/-- The first digits of π, as one number. -/
def piDigits : Nat :=
  314159265358979323846264338327950288419716939937510582097494459230781640628620899862803482534211706798214808651328230664709384460955058223172535940812848111745028410270193852110555964462294895493038196442881097566593344612847564823378678316527120190914564856692346034861045432664821339360726024914127372458700660631558817488152092096282925409171536436789259036001133053054882046652138414695194151160943305727036575959195309218611738193261179310511854807446237996274956735188575272489122793818301194912

/-- The ratio of circumference and diameter to `p` decimal places, as far as they are known here,
at precision `p`. -/
def pi (p : Nat) : Number :=
  let places := min p piPlaces
  (exact (mkRat (piDigits / 10 ^ (piPlaces - places) : Nat) (10 ^ places))).toApprox p

/-- The base of the natural logarithm. -/
def e (p : Nat) : Number := ((ofInt 1).toApprox p).exp p

/-- The golden ratio `(1 + √5) / 2`. -/
def phi (p : Nat) : Number :=
  let root := match (ofInt 5).sqrt (p + 10) with
    | .ok root => root
    | .error _ => ofInt 2
  match ((ofInt 1).add root).div (ofInt 2) with
  | .ok ratio => ratio
  | .error _ => ofRatio 161803 100000

end Reckoner.Number
