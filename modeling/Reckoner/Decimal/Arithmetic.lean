import Reckoner.Decimal.Basic

/-!
# Decimal arithmetic

The operations of `Decimal`. A result carries the larger precision of its operands and is rounded
to it, with two exceptions that keep more: a quotient may have one digit more, and a sum with zero
is the other operand as it is.

A sum is not computed exactly when the operands lie far apart. It is held as a `Partial`: a head of
about as many digits as will be kept, and a tail that only decides the rounding.
-/

namespace Reckoner.Decimal

def neg (d : Decimal) : Decimal :=
  { d with
    significand := -d.significand
    normal := by rcases d.normal with h | h <;> simp only [Normal] <;> omega }

def abs (d : Decimal) : Decimal := if d.isNegative then d.neg else d

def mul (a b : Decimal) : Decimal :=
  rounded (max a.precision b.precision) (a.significand * b.significand) (a.exponent + b.exponent)

/-- A sum on the way to its rounding: `(head + tail / 10 ^ width) * 10 ^ exponent`, where the tail
is less than one unit of the head. -/
structure Partial where
  head : Int
  exponent : Int
  tail : Int
  width : Nat

namespace Partial

/-- The parts of `n` above and below its last `width` digits, both with the sign of `n`. -/
def splitDigits (n : Int) (width : Nat) : Int × Int :=
  if Text.digitCount n.natAbs ≤ width then (0, n)
  else (n.tdiv (10 ^ width), n.tmod (10 ^ width))

/-- The sum of a significand and another one `gap` places below it, where `p` digits are kept of
the sum and `q` digits of its head.

A lower operand that lies wholly below the kept digits counts as a unit far down, for only its
sign matters. -/
def ofSum (p q : Nat) (upper lower : Int) (gap : Nat) (exponent : Int) : Partial :=
  let opposite := upper.sign ≠ lower.sign
  let ud := Text.digitCount upper.natAbs
  let ld := Text.digitCount lower.natAbs
  let exact : Partial := ⟨upper * 10 ^ gap + lower, exponent - gap, 0, 0⟩
  if opposite ∧ ud + gap ≤ ld + p then exact
  else if ld + 1 < gap ∧ ld + 1 + q < ud + gap then ⟨upper, exponent, lower.sign, q + 2⟩
  -- The upper operand alone fills the precision.
  else if p ≤ ud then
    let (high, low) := splitDigits lower gap
    ⟨upper + high, exponent, low, gap⟩
  -- It does so with some digits of the lower one.
  else if p < gap + ud then
    let shift := p - ud
    let (high, low) := splitDigits lower (gap - shift)
    ⟨upper * 10 ^ shift + high, exponent - shift, low, gap - shift⟩
  else exact

/-- Moves digits between head and tail until the head has `q` digits, as far as there are any. -/
def fit (q : Nat) (s : Partial) : Partial :=
  let d := Text.digitCount s.head.natAbs
  if q < d then
    let (head, low) := splitDigits s.head (d - q)
    ⟨head, s.exponent + (d - q : Nat), low * 10 ^ s.width + s.tail, s.width + (d - q)⟩
  else if d < q ∧ s.tail ≠ 0 then
    let shift := min s.width (q - d)
    let (high, low) := splitDigits s.tail (s.width - shift)
    ⟨s.head * 10 ^ shift + high, s.exponent - shift, low, s.width - shift⟩
  else s

/-- Rounds the head by its tail. A tail of exactly one half counts away from zero. -/
def round (p : Nat) (s : Partial) : Decimal :=
  let unit : Int := 10 ^ s.width
  let twice := 2 * s.tail.natAbs
  let away := s.head = 0 ∨ s.head.sign = s.tail.sign
  let step := if unit < twice ∨ (unit = twice ∧ away) then s.tail.sign else 0
  ofScaled (s.head + step) s.exponent p

end Partial

/-- The sum of two decimals other than zero, the exponent of the first one being larger. -/
def addApart (p : Nat) (upper lower : Decimal) : Decimal :=
  let gap := (upper.exponent - lower.exponent).toNat
  if p = 0 then
    ofScaled (upper.significand * 10 ^ gap + lower.significand) lower.exponent 0
  else
    let q := if upper.isNegative = lower.isNegative then p else p + 1
    let sum := Partial.ofSum p q upper.significand lower.significand gap upper.exponent
    (sum.fit q).round p

def add (a b : Decimal) : Decimal :=
  let p := max a.precision b.precision
  if a.isZero then { b with precision := p }
  else if b.isZero then { a with precision := p }
  else if a.exponent = b.exponent then rounded p (a.significand + b.significand) a.exponent
  else if b.exponent < a.exponent then addApart p a b
  else addApart p b a

def sub (a b : Decimal) : Decimal := a.add b.neg

/-- The quotient. One that is a whole multiple of the power of ten is exact; any other gets enough
digits for the precision, rounded once. -/
def div (a b : Decimal) : Decimal :=
  let p := max a.precision b.precision
  let sign := a.significand.sign * b.significand.sign
  let n := a.significand.natAbs
  let d := b.significand.natAbs
  let e := a.exponent - b.exponent
  if n % d = 0 then ofScaled (sign * (n / d : Nat)) e p
  else
    let shift :=
      if n < d then Text.digitCount d + p - Text.digitCount (n % d)
      else p - Text.digitCount (n / d)
    ofScaled (sign * roundQuotient (n * 10 ^ shift) d) (e - shift) p

/-- The square root of a decimal that is not negative. The significand is widened to twice the
precision, with an even exponent, and the root is rounded to nearest. -/
def sqrt (a : Decimal) : Decimal :=
  let p := a.precision
  let shift : Int := 2 * p - (a.digits % 2 : Nat) + a.exponent % 2 - a.digits
  let n := a.significand.natAbs
  let wide := if 0 ≤ shift then n * 10 ^ shift.toNat else n / 10 ^ (-shift).toNat
  let root := wide.sqrt
  let nearest := if wide - root ^ 2 > root then root + 1 else root
  rounded p nearest ((a.exponent - shift) / 2)

end Reckoner.Decimal
