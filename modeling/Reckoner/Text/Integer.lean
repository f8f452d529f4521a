import Reckoner.Text.Digits

/-!
# Integer texts

Three spellings of whole numbers: the plain one of fixed-width numbers, the grouped one that
allows underscores between the digits, and the loose one that ignores underscores everywhere.
The widths of fixed-width numbers are stated as predicates on integers.
-/

namespace Reckoner

/-- The integers of a two's complement number of the given width. -/
abbrev FitsSigned (bits : Nat) (n : Int) : Prop := -2 ^ (bits - 1) ≤ n ∧ n < 2 ^ (bits - 1)

/-- The integers of an unsigned number of the given width. -/
abbrev FitsUnsigned (bits : Nat) (n : Int) : Prop := 0 ≤ n ∧ n < 2 ^ bits

namespace Text

/-- An optional `+`, then digits. -/
def readUnsigned? : List Char → Option Nat
  | '+' :: cs => readDigits? cs
  | cs => readDigits? cs

/-- An optional sign, then digits. -/
def readSigned? : List Char → Option Int
  | '-' :: cs => (readDigits? cs).map fun n => -(n : Int)
  | cs => (readUnsigned? cs).map fun n => (n : Int)

/-- A signed integer of a given width. -/
def readSignedWord? (bits : Nat) (cs : List Char) : Option Int :=
  (readSigned? cs).filter fun n => FitsSigned bits n

/-- An unsigned integer of a given width. -/
def readUnsignedWord? (bits : Nat) (cs : List Char) : Option Nat :=
  (readUnsigned? cs).filter fun n => n < 2 ^ bits

/-- Digits with underscores among them, but not in front. -/
def readGroupedDigits? (cs : List Char) : Option Nat :=
  if cs.head? == some '_' then none else readDigits? (cs.filter (· != '_'))

/-- An optional sign, then digits with underscores among them. -/
def readGrouped? : List Char → Option Int
  | '-' :: cs => (readGroupedDigits? cs).map fun n => -(n : Int)
  | '+' :: cs => (readGroupedDigits? cs).map fun n => (n : Int)
  | cs => (readGroupedDigits? cs).map fun n => (n : Int)

/-- Digits and underscores in any order, at least one character; without a digit the value is 0. -/
def readLooseDigits? (cs : List Char) : Option Nat :=
  let digits := cs.filter (· != '_')
  if !cs.isEmpty && digits.all Char.isDigit then some (digitsValue digits) else none

/-- An optional sign, then digits and underscores in any order. -/
def readLoose? : List Char → Option Int
  | '-' :: cs => (readLooseDigits? cs).map fun n => -(n : Int)
  | '+' :: cs => (readLooseDigits? cs).map fun n => (n : Int)
  | cs => (readLooseDigits? cs).map fun n => (n : Int)

end Text

end Reckoner
