import Reckoner.Text.Integer

/-!
# Dimensions

A dimension is a vector of exponents over nine base dimensions. Exponents are 32-bit integers; an
operation whose result needs a larger one has no result.

The algebra is that of integer vectors: `multiply`, `divide` and `power` are the sum, the difference
and the multiple of the vectors whenever those are in range.
-/

namespace Reckoner

/-- The base dimensions, in the order of the vector. -/
inductive BaseDimension where
  | length | mass | time | current | temperature | amount | luminosity | currency | information
deriving DecidableEq, Repr

namespace BaseDimension

def name : BaseDimension → String
  | length => "length"
  | mass => "mass"
  | time => "time"
  | current => "current"
  | temperature => "temperature"
  | amount => "amount"
  | luminosity => "luminosity"
  | currency => "currency"
  | information => "information"

/-- The letter of a base dimension in signatures such as `L T^-1`. -/
def letter : BaseDimension → String
  | length => "L"
  | mass => "M"
  | time => "T"
  | current => "I"
  | temperature => "Θ"
  | amount => "N"
  | luminosity => "J"
  | currency => "$"
  | information => "B"

def all : List BaseDimension :=
  [length, mass, time, current, temperature, amount, luminosity, currency, information]

end BaseDimension

/-- The range of exponents, of dimensions as of units. -/
abbrev IsExponent (n : Int) : Prop := FitsSigned 32 n

/-- Exponents over the base dimensions. -/
structure Dimension where
  exponents : Vector Int 9
  inRange : ∀ e ∈ exponents.toList, IsExponent e
deriving DecidableEq

namespace Dimension

/-- The dimension of a vector, if all its exponents are in range. -/
def ofVector? (v : Vector Int 9) : Option Dimension :=
  if h : ∀ e ∈ v.toList, IsExponent e then some ⟨v, h⟩ else none

def dimensionless : Dimension := ⟨#v[0, 0, 0, 0, 0, 0, 0, 0, 0], by decide⟩

instance : Inhabited Dimension := ⟨dimensionless⟩

def length : Dimension := ⟨#v[1, 0, 0, 0, 0, 0, 0, 0, 0], by decide⟩

def mass : Dimension := ⟨#v[0, 1, 0, 0, 0, 0, 0, 0, 0], by decide⟩

def time : Dimension := ⟨#v[0, 0, 1, 0, 0, 0, 0, 0, 0], by decide⟩

def current : Dimension := ⟨#v[0, 0, 0, 1, 0, 0, 0, 0, 0], by decide⟩

def temperature : Dimension := ⟨#v[0, 0, 0, 0, 1, 0, 0, 0, 0], by decide⟩

def amount : Dimension := ⟨#v[0, 0, 0, 0, 0, 1, 0, 0, 0], by decide⟩

def luminosity : Dimension := ⟨#v[0, 0, 0, 0, 0, 0, 1, 0, 0], by decide⟩

def currency : Dimension := ⟨#v[0, 0, 0, 0, 0, 0, 0, 1, 0], by decide⟩

def information : Dimension := ⟨#v[0, 0, 0, 0, 0, 0, 0, 0, 1], by decide⟩

def velocity : Dimension := ⟨#v[1, 0, -1, 0, 0, 0, 0, 0, 0], by decide⟩

def acceleration : Dimension := ⟨#v[1, 0, -2, 0, 0, 0, 0, 0, 0], by decide⟩

def force : Dimension := ⟨#v[1, 1, -2, 0, 0, 0, 0, 0, 0], by decide⟩

def energy : Dimension := ⟨#v[2, 1, -2, 0, 0, 0, 0, 0, 0], by decide⟩

def powerRate : Dimension := ⟨#v[2, 1, -3, 0, 0, 0, 0, 0, 0], by decide⟩

def pressure : Dimension := ⟨#v[-1, 1, -2, 0, 0, 0, 0, 0, 0], by decide⟩

def area : Dimension := ⟨#v[2, 0, 0, 0, 0, 0, 0, 0, 0], by decide⟩

def volume : Dimension := ⟨#v[3, 0, 0, 0, 0, 0, 0, 0, 0], by decide⟩

def frequency : Dimension := ⟨#v[0, 0, -1, 0, 0, 0, 0, 0, 0], by decide⟩

def charge : Dimension := ⟨#v[0, 0, 1, 1, 0, 0, 0, 0, 0], by decide⟩

def voltage : Dimension := ⟨#v[2, 1, -3, -1, 0, 0, 0, 0, 0], by decide⟩

def resistance : Dimension := ⟨#v[2, 1, -3, -2, 0, 0, 0, 0, 0], by decide⟩

def illuminance : Dimension := ⟨#v[-2, 0, 0, 0, 0, 0, 1, 0, 0], by decide⟩

def capacitance : Dimension := ⟨#v[-2, -1, 4, 2, 0, 0, 0, 0, 0], by decide⟩

def dataRate : Dimension := ⟨#v[0, 0, -1, 0, 0, 0, 0, 0, 1], by decide⟩

/-! ### Algebra -/

def isDimensionless (d : Dimension) : Bool := d.exponents.toList.all (· == 0)

/-- The dimension of a product. -/
def multiply (a b : Dimension) : Option Dimension :=
  ofVector? (Vector.zipWith (· + ·) a.exponents b.exponents)

/-- The dimension of a quotient. -/
def divide (a b : Dimension) : Option Dimension :=
  ofVector? (Vector.zipWith (· - ·) a.exponents b.exponents)

/-- The dimension of an integer power. -/
def power (d : Dimension) (n : Int) : Option Dimension := ofVector? (d.exponents.map (· * n))

/-- The dimension of an `n`-th root; there is one only if `n` divides every exponent. -/
def root (d : Dimension) (n : Int) : Option Dimension :=
  if n ≠ 0 ∧ d.exponents.toList.all (·.tmod n == 0) then ofVector? (d.exponents.map (·.tdiv n))
  else none

def invert (d : Dimension) : Option Dimension := d.power (-1)

/-! ### Names -/

/-- The base dimensions with their exponents. -/
def terms (d : Dimension) : List (BaseDimension × Int) :=
  BaseDimension.all.zip d.exponents.toList

/-- The dimensions with a name of their own, the base dimensions apart. -/
def named : List (Dimension × String) :=
  [(dimensionless, "dimensionless"), (velocity, "velocity"), (acceleration, "acceleration"),
    (force, "force"), (energy, "energy"), (powerRate, "power"), (pressure, "pressure"),
    (area, "area"), (volume, "volume"), (frequency, "frequency"), (charge, "charge"),
    (voltage, "voltage"), (resistance, "resistance"), (dataRate, "data rate")]

/-- The name of a dimension that has one. -/
def name? (d : Dimension) : Option String :=
  match d.terms.filter (fun t => t.2 != 0) with
  | [(base, 1)] => some base.name
  | _ => named.lookup d

/-- A term with its exponent, which is left out when it is 1. -/
def termText (name : String) (e : Int) : String :=
  if e = 1 then name else name ++ "^" ++ Text.decimalInt e

/-- The terms with a nonzero exponent, written with the given names. -/
def writeTerms (names : BaseDimension → String) (d : Dimension) : String :=
  " ".intercalate ((d.terms.filter (fun t => t.2 != 0)).map fun t => termText (names t.1) t.2)

/-- The name of a dimension, or its terms written out. -/
def describe (d : Dimension) : String := d.name?.getD (d.writeTerms BaseDimension.name)

/-- The signature of a dimension in letters, `1` for no dimension. -/
def signature (d : Dimension) : String :=
  if d.isDimensionless then "1" else d.writeTerms BaseDimension.letter

end Dimension

end Reckoner
