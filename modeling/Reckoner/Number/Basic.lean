import Reckoner.Decimal.Rounding
import Reckoner.Settings
import Reckoner.Text.Integer

/-!
# Numbers

A number is an exact rational or an approximate decimal. Arithmetic on exact numbers is exact; with
an approximate operand it is decimal arithmetic on `workingPrecision` digits. `Number.value` is
the rational that a number of either kind stands for.
-/

namespace Reckoner

/-- An exact rational or an approximate decimal. -/
inductive Number where
  | exact (r : Rat)
  | approx (d : Decimal)
deriving DecidableEq

/-- Why a number cannot be had. -/
inductive NumberError where
  | malformed (text : String)
  | divisionByZero
  | outsideDomain (reason : String)
  | overflow
deriving DecidableEq

def NumberError.message : NumberError → String
  | malformed text => "Invalid number format: " ++ text
  | divisionByZero => "Division by zero"
  | outsideDomain reason => "Domain error: " ++ reason
  | overflow => "Overflow: result too large"

/-- The digits kept by basic arithmetic on approximate numbers. -/
def workingPrecision : Nat := 50

/-- The number of binary digits of a number; none for 0. -/
def bitCount (n : Nat) : Nat := if n = 0 then 0 else n.log2 + 1

/-- The larger bit count of numerator and denominator. -/
def ratBits (r : Rat) : Nat := max (bitCount r.num.natAbs) (bitCount r.den)

/-- The largest power of ten with a positive exponent that is expanded into digits. -/
def maxExpandedExponent : Nat := 100000

namespace Number

instance : Inhabited Number := ⟨exact 0⟩

def ofInt (n : Int) : Number := exact n

/-- The exact quotient; zero for a zero denominator. -/
def ofRatio (n d : Int) : Number := exact (Rat.divInt n d)

/-- The exact number `m * 10 ^ e`. -/
def ofScaled (m e : Int) : Number := exact (m * (10 : Rat) ^ e)

/-- The rational that a number stands for. -/
def value : Number → Rat
  | exact r => r
  | approx d => d.toRat

/-- The decimal quotient of numerator and denominator, each rounded to `p` digits first. -/
def ratToDecimal (r : Rat) (p : Nat) : Decimal :=
  let n := (Decimal.ofInteger r.num 0).withPrecision p
  if r.den = 1 then n else n.div ((Decimal.ofInteger r.den 0).withPrecision p)

/-- The number as a decimal of precision `p`. -/
def toDecimal (p : Nat) : Number → Decimal
  | exact r => ratToDecimal r p
  | approx d => d.withPrecision p

def toApprox (x : Number) (p : Nat) : Number := approx (x.toDecimal p)

/-! ### Predicates -/

def isExact : Number → Bool
  | exact _ => true
  | approx _ => false

def isZero : Number → Bool
  | exact r => r == 0
  | approx d => d.isZero

def isOne : Number → Bool
  | exact r => r == 1
  | approx d => d.compare Decimal.one == .eq

def isNegative : Number → Bool
  | exact r => r < 0
  | approx d => d.isNegative

def isInteger : Number → Bool
  | exact r => r.den == 1
  | approx d => d.isInteger

/-- The rational of an exact number. -/
def rat? : Number → Option Rat
  | exact r => some r
  | approx _ => none

/-- The rational that a number stands for, unless its power of ten is too large to expand. -/
def toRat? : Number → Option Rat
  | exact r => some r
  | approx d => if d.exponent.natAbs ≤ maxExpandedExponent then some d.toRat else none

/-! ### Arithmetic -/

/-- An operation given on rationals and on decimals. -/
def lift₂ (onRat : Rat → Rat → Rat) (onDecimal : Decimal → Decimal → Decimal) :
    Number → Number → Number
  | exact a, exact b => exact (onRat a b)
  | x, y => approx (onDecimal (x.toDecimal workingPrecision) (y.toDecimal workingPrecision))

def add : Number → Number → Number := lift₂ (· + ·) Decimal.add

def sub : Number → Number → Number := lift₂ (· - ·) Decimal.sub

def mul : Number → Number → Number := lift₂ (· * ·) Decimal.mul

def neg : Number → Number
  | exact r => exact (-r)
  | approx d => approx d.neg

def div (x y : Number) : Except NumberError Number :=
  if y.isZero then .error .divisionByZero else .ok (lift₂ (· / ·) Decimal.div x y)

def abs : Number → Number
  | exact r => exact r.abs
  | approx d => approx d.abs

def floor : Number → Number
  | exact r => ofInt r.floor
  | approx d => approx d.floor

def ceil : Number → Number
  | exact r => ofInt r.ceil
  | approx d => approx d.ceil

/-- The nearest integer to a rational, halves away from zero. -/
def roundRat (r : Rat) : Int := r.num.sign * roundQuotient r.num.natAbs r.den

/-- The nearest integer, halves away from zero. -/
def round : Number → Number
  | exact r => ofInt (roundRat r)
  | approx d => approx d.round

/-! ### Comparison -/

def compare : Number → Number → Ordering
  | exact a, exact b => if a < b then .lt else if b < a then .gt else .eq
  | x, y => (x.toDecimal workingPrecision).compare (y.toDecimal workingPrecision)

/-- Equality within a relative tolerance of `10 ^ -tolerance`; exact numbers compare exactly. -/
def approxEq (tolerance : Nat) : Number → Number → Bool
  | exact a, exact b => a == b
  | x, y =>
    let a := x.toDecimal workingPrecision
    let b := y.toDecimal workingPrecision
    let difference := (a.sub b).abs
    let scale := if a.abs.compare b.abs == .gt then a.abs else b.abs
    if scale.isZero then difference.isZero
    else difference.compare (scale.mul (Decimal.ofInteger 1 (-tolerance))) != .gt

/-- Equality within the default tolerance. -/
def equals (x y : Number) : Bool := x.approxEq (default : Settings).equalityTolerance y

/-! ### Size limits -/

/-- A lower bound on the power of ten of the leading digit of a number of the given bit count, with
`log 2` to 18 decimal places. -/
def bitExponent (bits : Nat) : Nat := (bits - 1) * 301029995663981195 / 10 ^ 18

/-- The power of ten of the leading digit; for exact numbers an estimate from their bit counts. -/
def decimalExponent : Number → Int
  | exact r => (bitExponent (bitCount r.num.natAbs) : Int) - bitExponent (bitCount r.den)
  | approx d => d.leadingExponent

/-- Whether the size of a number stays within the range that results may have. -/
def inRange (s : Settings) (x : Number) : Bool :=
  x.decimalExponent.natAbs ≤ s.maxDecimalExponent

/-- Fails for a number out of range. -/
def checkRange (s : Settings) (x : Number) : Except NumberError Unit :=
  if x.inRange s then .ok () else .error .overflow

/-- Turns an exact number that needs too many bits into an approximate one, and refuses a number
out of range. -/
def withinLimits (s : Settings) (x : Number) : Except NumberError Number :=
  if x.inRange s then
    match x with
    | exact r => .ok (if s.maxExactBits < ratBits r then x.toApprox s.precision else x)
    | approx _ => .ok x
  else .error .overflow

/-- The number as a 64-bit integer. -/
def toInt64? (x : Number) : Option Int :=
  if !x.isInteger || 19 < x.decimalExponent then none
  else (x.toRat?.map Rat.floor).filter fun n => FitsSigned 64 n

end Number

end Reckoner
