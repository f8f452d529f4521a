import Reckoner.Number.Basic
import Reckoner.Text.Split

/-!
# Reading numbers

`Number.ofText` reads the number texts that people write: decimals with an optional exponent, and
quotients of two of them. Every such text denotes a rational, and it is read exactly.

Exponents are 64-bit integers. The least of these has no absolute value among them, so that it
passes for a small one (`readExponent?`), and the digits under it stand at a power of ten that is
not theirs (`scaleUnder`).
-/

namespace Reckoner

/-- The largest exponent of ten, of either sign, that a decimal text may have. -/
def maxTextExponent : Nat := 100000

namespace Number

/-- `n * 10 ^ e`, for a natural number. -/
def scaledRat (n : Nat) (e : Int) : Rat :=
  if 0 ≤ e then ((n * 10 ^ e.toNat : Nat) : Rat) else mkRat n (10 ^ e.natAbs)

/-- The least exponent that can be read. -/
def leastExponent : Int := -2 ^ 63

/-- The exponent part of a decimal text; what stands behind the `e`. -/
def readExponent? (cs : List Char) : Option Int :=
  (Text.readSignedWord? 64 cs).filter fun e => e.natAbs ≤ maxTextExponent ∨ e = leastExponent

/-- The power of ten of a digit that stands `places` behind the point. The difference with the
least exponent wraps around, and its last 32 bits count. -/
def scaleUnder (e : Int) (places : Nat) : Int :=
  if e = leastExponent then -(places : Int) % 2 ^ 32 else e - places

/-- Digits with an optional point, at least one digit, times `10 ^ e`. -/
def readMantissa? (cs : List Char) (e : Int) : Option Rat :=
  let (whole, fraction) := (Text.cutFirst? (· == '.') cs).getD (cs, [])
  let digits := whole ++ fraction
  if digits.isEmpty || !digits.all Char.isDigit then none
  else some (scaledRat (Text.digitsValue digits) (scaleUnder e fraction.length))

/-- A decimal without a sign. -/
def readUnsignedDecimal? (cs : List Char) : Option Rat :=
  match Text.cutFirst? (fun c => c == 'e' || c == 'E') cs with
  | some (mantissa, e) => (readExponent? e).bind (readMantissa? mantissa)
  | none => readMantissa? cs 0

/-- A decimal with an optional sign. -/
def readDecimal? : List Char → Option Rat
  | '-' :: cs => (readUnsignedDecimal? cs).map fun r => -r
  | '+' :: cs => readUnsignedDecimal? cs
  | cs => readUnsignedDecimal? cs

/-- A decimal, or the quotient of two decimals around a slash. Blanks around the parts are
ignored. -/
def ofText (text : String) : Except NumberError Number :=
  let cs := Text.trim text.toList
  let malformed := NumberError.malformed (String.ofList cs)
  match Text.cutFirst? (· == '/') cs with
  | none => (readDecimal? cs).elim (.error malformed) fun r => .ok (exact r)
  | some (n, d) =>
    match readDecimal? (Text.trim n), readDecimal? (Text.trim d) with
    | some n, some d => if d = 0 then .error .divisionByZero else .ok (exact (n / d))
    | _, _ => .error malformed

/-- An integer text of a numerator or a denominator. -/
def readInteger (text : String) : Except NumberError Int :=
  ((Text.readGrouped? (Text.trim text.toList)).elim (.error (.malformed text))) .ok

/-- The quotient of two integer texts. -/
def ofFraction (numer denom : String) : Except NumberError Number := do
  let n ← readInteger numer
  let d ← readInteger denom
  if d = 0 then .error .divisionByZero else .ok (ofRatio n d)

end Number

namespace Decimal

/-- The digits on one side of the point, underscores ignored, with an optional `+` of their own. -/
def readPart? : List Char → Option Nat
  | '+' :: cs => Text.readLooseDigits? cs
  | cs => Text.readLooseDigits? cs

/-- Digits with an optional point, of which one side may be absent, and the count of places behind
the point. A `+` there is a place as well: `1.+5` is `1.05`. -/
def readBody? (cs : List Char) : Option (Nat × Nat) :=
  match Text.cutFirst? (· == '.') cs with
  | none => (readPart? cs).map fun n => (n, 0)
  | some ([], []) => none
  | some (whole, []) => (readPart? whole).map fun n => (n, 0)
  | some (whole, fraction) => do
    let places := (fraction.filter (· != '_')).length
    let n ← if whole.isEmpty then some 0 else readPart? whole
    return (n * 10 ^ places + (← readPart? fraction), places)

/-- A decimal text without its sign: digits, and an exponent after the last `e`, `E` or `@`. -/
def readUnsigned? (negative : Bool) (cs : List Char) : Option Decimal :=
  let (body, e) : List Char × Option Int :=
    match Text.cutLast? (fun c => c == 'e' || c == 'E' || c == '@') cs with
    | some (body, _, e) => (body, Text.readSignedWord? 64 e)
    | none => (cs, some 0)
  match readBody? body, e with
  | some (n, places), some e =>
    some (ofScaled (if negative then -n else n) (e - places) (max 1 (Text.digitCount n)))
  | _, _ => none

/-- The decimal that a text denotes. -/
def ofText? : List Char → Option Decimal
  | '-' :: cs => readUnsigned? true cs
  | '+' :: cs => readUnsigned? false cs
  | cs => readUnsigned? false cs

end Decimal

end Reckoner
