import Reckoner.Number.Functions
import Reckoner.Number.Parts
import Reckoner.Unit.Exponents

/-!
# Units of measure

A unit has a dimension and an affine scale to the coherent unit of that dimension:
`coherent = value * factor + offset`. Beside its dimension a unit may count things of freely chosen
names; each such name acts as a dimension of its own.

The symbol of a unit built by multiplication is composed from named units and their exponents, its
`components` (`composeSymbol`).
-/

namespace Reckoner

structure MeasureUnit where
  symbol : String
  name : String
  dimension : Dimension
  factor : Number
  offset : Number
  category : String
  /-- The named units that the symbol is composed of. -/
  components : Exponents
  /-- The length in calendar months, for units such as the year. -/
  calendarMonths : Option Int := none
  /-- The names of things counted. -/
  adHoc : Exponents
deriving DecidableEq

/-- Why units cannot be combined or converted. -/
inductive ConversionError where
  | incompatible (source target sourceDimension targetDimension : String)
  | unknownUnit (name : String)
  | invalidExponent (details : String)
  | number (error : NumberError)
deriving DecidableEq

def ConversionError.message : ConversionError → String
  | incompatible source target sourceDimension targetDimension =>
    "cannot combine " ++ source ++ " (" ++ sourceDimension ++ ") with " ++ target ++ " (" ++
      targetDimension ++ "): incompatible dimensions"
  | unknownUnit name => "unknown unit: " ++ name
  | invalidExponent details => "invalid unit exponent: " ++ details
  | number error => "numeric error: " ++ error.message

/-- A failed computation with numbers as a failed one with units. -/
def liftNumber {α : Type} : Except NumberError α → Except ConversionError α
  | .ok a => .ok a
  | .error e => .error (.number e)

/-- The symbol of named units with exponents: `kg·m/s^2`, `1/s`. Names come in ascending order,
those with a positive exponent in front of the slash. -/
def composeSymbol (components : Exponents) : String :=
  let terms (keep : Int → Bool) : List String :=
    (components.entries.filter fun c => keep c.2).map fun c =>
      Dimension.termText c.1 c.2.natAbs
  let above := "·".intercalate (terms (0 < ·))
  let below := "·".intercalate (terms (· < 0))
  if (terms (· < 0)).isEmpty then above
  else if (terms (0 < ·)).isEmpty then "1/" ++ below
  else above ++ "/" ++ below

namespace MeasureUnit

/-- A unit whose scale starts at zero. A nonempty symbol is its one component. -/
def new (symbol name : String) (dimension : Dimension) (factor : Number) (category : String) :
    MeasureUnit where
  symbol := symbol
  name := name
  dimension := dimension
  factor := factor
  offset := Number.ofInt 0
  category := category
  components := if symbol.isEmpty then .empty else .single symbol
  adHoc := .empty

/-- The unit of a plain number. -/
def dimensionless : MeasureUnit := new "" "" .dimensionless (Number.ofInt 1) "dimensionless"

instance : Inhabited MeasureUnit := ⟨dimensionless⟩

/-- The unit that counts things of one name. -/
def counting (name : String) : MeasureUnit :=
  { new name name .dimensionless (Number.ofInt 1) "ad hoc" with adHoc := .single name }

/-- The absolute scale that temperatures with an offset are combined in. -/
def kelvin : MeasureUnit := new "K" "kelvin" .temperature (Number.ofInt 1) "temperature"

/-! ### Predicates -/

/-- The scale is that of the coherent unit. -/
def isCoherent (u : MeasureUnit) : Bool := u.factor.isOne && u.offset.isZero

def hasOffset (u : MeasureUnit) : Bool := !u.offset.isZero

/-- Values of the two units can be converted into each other. -/
def isCompatible (u v : MeasureUnit) : Bool := u.dimension == v.dimension && u.adHoc == v.adHoc

def isDimensionless (u : MeasureUnit) : Bool := u.dimension.isDimensionless && u.adHoc.isEmpty

/-- No dimension, no symbol and no scale: the unit of a plain number. -/
def isUnity (u : MeasureUnit) : Bool := u.isDimensionless && u.components.isEmpty && u.isCoherent

def isCalendar (u : MeasureUnit) : Bool := u.calendarMonths.isSome

/-- Equality of units, where scales are equal within the default tolerance. -/
def same (u v : MeasureUnit) : Bool :=
  u.symbol == v.symbol && u.name == v.name && u.dimension == v.dimension &&
    u.factor.equals v.factor && u.offset.equals v.offset && u.category == v.category &&
    u.components == v.components && u.calendarMonths == v.calendarMonths && u.adHoc == v.adHoc

/-- The things counted, followed by the dimension: `length`, `apples^2 length^-1`. -/
def describe (u : MeasureUnit) : String :=
  if u.adHoc.isEmpty then u.dimension.describe
  else
    let things := u.adHoc.entries.map fun c => Dimension.termText c.1 c.2
    let rest := if u.dimension.isDimensionless then [] else [u.dimension.describe]
    " ".intercalate (things ++ rest)

/-! ### Conversion -/

/-- The coherent value of a value in this unit. -/
def toCoherent (u : MeasureUnit) (x : Number) : Number := (x.mul u.factor).add u.offset

/-- The value in this unit of a coherent value. -/
def ofCoherent (u : MeasureUnit) (x : Number) : Except NumberError Number :=
  (x.sub u.offset).div u.factor

/-- Fails for units of different dimensions. -/
def ensureCompatible (u v : MeasureUnit) : Except ConversionError Unit :=
  if u.isCompatible v then .ok ()
  else .error (.incompatible u.symbol v.symbol u.describe v.describe)

/-- A value in this unit as a value in another one. -/
def convert (u target : MeasureUnit) (x : Number) : Except ConversionError Number := do
  u.ensureCompatible target
  liftNumber (target.ofCoherent (u.toCoherent x))

/-- The ratio of the scales of two units, their offsets left aside. -/
def factorTo (u target : MeasureUnit) : Except ConversionError Number := do
  u.ensureCompatible target
  liftNumber (u.factor.div target.factor)

end MeasureUnit

end Reckoner
