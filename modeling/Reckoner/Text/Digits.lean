/-!
# Decimal digits

Natural numbers as runs of decimal digits. `digitsValue` reads a run, `decimalDigits` writes the
shortest one, and `digitCount` is the number of digits it needs, counted without writing them.

Writing splits a number by a power `10 ^ 2 ^ k` into an upper and a lower half and writes each
with half the digits, so that long numbers take time close to that of one division.
-/

namespace Reckoner

/-! ### Powers

A power of naturals or integers is that of the core library, also where a module imports a library
that brings its own. So `10 ^ n` is the same term in a program and in what is said about it. -/

@[default_instance 20001]
scoped instance (priority := 2000) natPow : Pow Nat Nat := instPowNat

@[default_instance 20000]
scoped instance (priority := 2000) intPow : Pow Int Nat := instPowNat

end Reckoner

namespace Reckoner.Text

def digitValue (c : Char) : Nat := c.toNat - 48

/-- The number that a run of digits denotes. -/
def digitsValue (cs : List Char) : Nat := cs.foldl (fun n c => 10 * n + digitValue c) 0

/-- `[10 ^ 2 ^ (k - 1), …, 10 ^ 2, 10]`. -/
def splitPowers : Nat → List Nat
  | 0 => []
  | k + 1 =>
    match splitPowers k with
    | [] => [10]
    | b :: bs => b * b :: b :: bs

/-- Writes a number below the square of the first power with exactly `2 ^ powers.length` digits,
in front of `rest`. -/
def writeDigits : (powers : List Nat) → Nat → (rest : List Char) → List Char
  | [], n, rest => n.digitChar :: rest
  | b :: bs, n, rest => writeDigits bs (n / b) (writeDigits bs (n % b) rest)

/-- The number of decimal digits of a number; none for 0. -/
def countDigits (n : Nat) : Nat :=
  if n = 0 then 0 else countDigits (n / 10) + 1
decreasing_by omega

/-- The number of decimal digits of a number; none for 0. The bit length gives a lower bound, and
only the few digits above it are counted one by one. -/
def digitCount (n : Nat) : Nat :=
  let sure := n.log2 * 301 / 1000
  sure + countDigits (n / 10 ^ sure)

/-- The decimal digits of a number without leading zeros; a single `0` for 0. -/
def decimalDigits (n : Nat) : List Char :=
  if n < 10 then [n.digitChar]
  else (writeDigits (splitPowers ((digitCount n - 1).log2 + 1)) n []).dropWhile (· == '0')

/-- The decimal text of a natural number. -/
def decimal (n : Nat) : String := String.ofList (decimalDigits n)

/-- The decimal text of an integer, with a minus sign in front of a negative one. -/
def decimalInt (n : Int) : String :=
  if n < 0 then "-" ++ decimal n.natAbs else decimal n.natAbs

/-- A number read from a nonempty run of digits. -/
def readDigits? (cs : List Char) : Option Nat :=
  if !cs.isEmpty && cs.all Char.isDigit then some (digitsValue cs) else none

end Reckoner.Text
