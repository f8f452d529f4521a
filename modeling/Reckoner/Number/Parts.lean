import Reckoner.Number.Reader

/-!
# Number parts

The parts of a number that a reader of results is shown: numerator and denominator, an exact and an
approximate text, and whether the number is approximate.

* `Number.toParts` writes them,
* `Number.ofParts` reads them back. Numerator and denominator decide where they can be read, so that
  an exact number that is only shown approximately comes back exact.

The layout of texts: plain notation for magnitudes from `10 ^ -6` to below `10 ^ 21`, scientific
notation outside.
-/

namespace Reckoner

/-- The shown parts of a number. -/
structure NumberParts where
  numer : String
  denom : String
  exactValue : Option String := none
  approxValue : Option String := none
  /-- The number is a decimal; `numer` and `denom` are its significand and a power of ten. -/
  approximate : Bool := false
deriving DecidableEq, Inhabited

namespace NumberParts

/-- The parts of an integer literal. -/
def integer (n : Int) : NumberParts where
  numer := Text.decimalInt n
  denom := "1"
  exactValue := some (Text.decimalInt n)

/-- The parts of a literal fraction, which is not reduced. -/
def fraction (n d : Int) : NumberParts where
  numer := Text.decimalInt n
  denom := Text.decimalInt d

/-- The text shown first. -/
def display (p : NumberParts) : String := (p.exactValue <|> p.approxValue).getD p.numer

end NumberParts

namespace Number

/-! ### Texts -/

def zeros (n : Nat) : List Char := List.replicate n '0'

def signText (negative : Bool) : List Char := if negative then ['-'] else []

/-- Sets a decimal point `places` digits from the right. -/
def insertPoint (digits : List Char) (places : Nat) : List Char :=
  if places = 0 then digits
  else
    let padded := Text.padStart '0' (places + 1) digits
    let split := padded.length - places
    padded.take split ++ '.' :: padded.drop split

/-- The number of places of a terminating decimal with denominator `d`; `none` if it does not
terminate. -/
def terminatingPlaces? (d : Nat) : Option Nat :=
  let (rest, twos) := stripAll 2 (by decide) d
  let (rest, fives) := stripAll 5 (by decide) rest
  if rest = 1 then some (max twos fives) else none

/-- The digits of a rational up to the point and behind it, if it terminates within `budget`
places. -/
def terminatingDecimal? (r : Rat) (budget : Nat) : Option (List Char) :=
  ((terminatingPlaces? r.den).filter (· ≤ budget)).map fun places =>
    let scaled := r.num.natAbs * 10 ^ places / r.den
    signText (r < 0) ++ insertPoint (Text.decimalDigits scaled) places

/-- Plain layout of digits, the first of which stands at `10 ^ e`. -/
def layoutPlain (digits : List Char) (e : Int) : List Char :=
  if 0 ≤ e then
    let whole := e.toNat + 1
    if digits.length ≤ whole then digits ++ zeros (whole - digits.length)
    else digits.take whole ++ '.' :: digits.drop whole
  else '0' :: '.' :: zeros (e.natAbs - 1) ++ digits

/-- Scientific layout of digits, the first of which stands at `10 ^ e`. -/
def layoutScientific (digits : List Char) (e : Int) : List Char :=
  let fraction := digits.drop 1
  let point := if fraction.isEmpty then [] else '.' :: fraction
  digits.take 1 ++ point ++ 'e' :: (Text.decimalInt e).toList

/-- The layout of the digits `cs`, the first of which stands at `10 ^ e`, without the zeros at their
end. -/
def layoutDigits (negative : Bool) (cs : List Char) (e : Int) : List Char :=
  let digits := Text.dropEndWhile (· == '0') cs
  let digits := if digits.isEmpty then ['0'] else digits
  signText negative ++
    if -7 < e ∧ e < 21 then layoutPlain digits e else layoutScientific digits e

/-- A power of ten under an exponent of 32 bits; of a longer one the last 32 bits count. -/
def tenPow (e : Nat) : Nat := 10 ^ (e % 2 ^ 32)

/-- A positive rational times a power of ten. -/
def scaleByTen (r : Rat) (k : Int) : Rat :=
  if 0 ≤ k then r * tenPow k.toNat else r / tenPow k.natAbs

/-- The power of ten of the leading digit of a positive rational. -/
def leadingExponent (r : Rat) : Int :=
  let guess : Int := (Text.digitCount r.num.natAbs : Int) - Text.digitCount r.den
  if scaleByTen r (-guess) < 1 then guess - 1 else guess

/-- The text of a rational rounded to `n` significant digits, halves away from zero. -/
def roundSignificant (r : Rat) (n : Nat) : List Char :=
  if r = 0 then ['0']
  else
    let n := max n 1
    let e := leadingExponent r.abs
    -- The power of ten that brings the digits in front of the point is a 64-bit integer.
    let scaled := scaleByTen r.abs (Int.bmod (n - 1 - e) (2 ^ 64))
    let mantissa := roundQuotient scaled.num.natAbs scaled.den
    -- Nines that are rounded up carry into a new leading digit.
    if mantissa = tenPow n then layoutDigits (r < 0) (Text.decimalDigits (tenPow (n - 1))) (e + 1)
    else layoutDigits (r < 0) (Text.decimalDigits mantissa) e

/-- The text of the digits `cs`, the first of which stands at `10 ^ e`, rounded to `n` significant
digits by the first digit dropped. -/
def formatDigits (negative : Bool) (cs : List Char) (e : Int) (n : Nat) : List Char :=
  let digits := cs.dropWhile (· == '0')
  if digits.isEmpty then ['0']
  else
    let n := max n 1
    match digits.drop n with
    | [] => layoutDigits negative digits e
    | next :: _ =>
      let head := Text.digitsValue (digits.take n)
      let mantissa := if '5' ≤ next then head + 1 else head
      if mantissa = 10 ^ n then
        layoutDigits negative (Text.decimalDigits (10 ^ (n - 1))) (e + 1)
      else layoutDigits negative (Text.decimalDigits mantissa) e

/-! ### Writing -/

/-- The parts of an exact number. A terminating decimal within the budget is written out; any other
number is a fraction if its terms are small, and has an approximate text beside it. -/
def ratParts (r : Rat) (s : Settings) : NumberParts :=
  let numer := Text.decimalInt r.num
  let denom := Text.decimal r.den
  let approx := String.ofList (roundSignificant r s.approxDigits)
  match terminatingDecimal? r s.digitBudget with
  | some text =>
    let wholeDigits := ((text.dropWhile (· == '-')).takeWhile (· != '.')).length
    { numer, denom
      exactValue := some (String.ofList text)
      approxValue := if s.maxExactIntDigits < wholeDigits then some approx else none }
  | none =>
    let small := r.den ≤ s.maxFractionDenom && r.num.natAbs ≤ s.maxFractionNumer
    { numer, denom
      exactValue := if small then some (numer ++ "/" ++ denom) else none
      approxValue := some approx }

/-- The parts of an approximate number: all digits of its significand over a power of ten, and a
rounded text. -/
def decimalParts (d : Decimal) (s : Settings) : NumberParts :=
  let negative := d.significand < 0
  let digits := Text.decimalDigits d.significand.natAbs
  let shift := zeros d.exponent.natAbs
  let whole := 0 ≤ d.exponent
  { numer := String.ofList (signText negative ++ if whole then digits ++ shift else digits)
    denom := String.ofList (if whole then ['1'] else '1' :: shift)
    approxValue := some (String.ofList
      (formatDigits negative digits (d.exponent + digits.length - 1) s.approxDigits))
    approximate := true }

def toParts (s : Settings) : Number → NumberParts
  | exact r => ratParts r s
  | approx d => decimalParts d s

/-- The text of a number under the default settings. -/
def display (x : Number) : String := (x.toParts default).display

/-! ### Reading -/

/-- A significand over a power of ten, read without expanding the zeros of either. -/
def readScaled? (numer denom : String) : Option Decimal :=
  match Text.trim denom.toList with
  | '1' :: denomZeros =>
    if denomZeros.all (· == '0') then
      let cs := Text.trim numer.toList
      let digits := Text.dropEndWhile (· == '0') cs
      let digits := if digits.isEmpty then ['0'] else digits
      let trailing := cs.length - digits.length
      (Text.readLoose? digits).map fun n =>
        Decimal.ofInteger n ((trailing : Int) - denomZeros.length)
    else none
  | _ => none

/-- The approximate text of parts, as a number. -/
def ofApproxText (parts : NumberParts) : Except NumberError Number :=
  match parts.approxValue with
  | none => .error (.malformed parts.numer)
  | some text =>
    match Decimal.ofText? (Text.trim text.toList) with
    | some d => .ok (approx (d.withPrecision workingPrecision))
    | none => .error (.malformed text)

/-- Parts marked approximate: a significand over a power of ten, else any quotient, else the
approximate text. -/
def ofApproximateParts (parts : NumberParts) : Except NumberError Number :=
  match readScaled? parts.numer parts.denom with
  | some d => .ok (approx (d.withPrecision workingPrecision))
  | none =>
    match ofFraction parts.numer parts.denom with
    | .ok x => .ok (x.toApprox workingPrecision)
    | .error .divisionByZero => .error .divisionByZero
    | .error _ => ofApproxText parts

/-- Other parts: the quotient, else the exact text, else the approximate one. -/
def ofExactParts (parts : NumberParts) : Except NumberError Number :=
  match ofFraction parts.numer parts.denom with
  | .ok x => .ok x
  | .error .divisionByZero => .error .divisionByZero
  | .error reason =>
    match parts.exactValue, parts.approxValue with
    | some text, _ => ofText text
    | none, some _ => ofApproxText parts
    | none, none => .error reason

/-- The number that parts stand for. -/
def ofParts (parts : NumberParts) : Except NumberError Number :=
  if parts.approximate then ofApproximateParts parts else ofExactParts parts

end Number

end Reckoner
