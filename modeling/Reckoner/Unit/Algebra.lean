import Reckoner.Unit.Basic

/-!
# The algebra of units

Products, quotients, powers and roots of units. The exponents of components and of things counted
follow the dimension: added, subtracted, multiplied or divided. A unit made this way has no offset
and no calendar length; its symbol is composed from its components. The unit of plain numbers is
neutral and leaves the other operand untouched.
-/

namespace Reckoner.MeasureUnit

/-- A unit made by the algebra of units. Its category is the name of its dimension, if it has
one. -/
def derived (components adHoc : Exponents) (name : String) (dimension : Dimension)
    (factor : Number) : MeasureUnit where
  symbol := composeSymbol components
  name := name
  dimension := dimension
  factor := factor
  offset := Number.ofInt 0
  category := if adHoc.isEmpty then dimension.name?.getD "derived" else "derived"
  components := components
  adHoc := adHoc

/-- The value of an operation on exponents, or the failure of an exponent out of range. -/
def exponentsOr {α : Type} (details : String) : Option α → Except ConversionError α
  | some a => .ok a
  | none => .error (.invalidExponent details)

def overflowText (u v : MeasureUnit) (sign : String) : String :=
  "exponent overflow in " ++ u.symbol ++ " " ++ sign ++ " " ++ v.symbol

def multiply (u v : MeasureUnit) : Except ConversionError MeasureUnit :=
  if v.isUnity then .ok u
  else if u.isUnity then .ok v
  else do
    let components ← exponentsOr (overflowText u v "*") (u.components.add v.components)
    let adHoc ← exponentsOr (overflowText u v "*") (u.adHoc.add v.adHoc)
    let dimension ← exponentsOr (overflowText u v "*") (u.dimension.multiply v.dimension)
    return derived components adHoc (u.name ++ " " ++ v.name) dimension (u.factor.mul v.factor)

def divide (u v : MeasureUnit) : Except ConversionError MeasureUnit :=
  if v.isUnity then .ok u
  else do
    let factor ← liftNumber (u.factor.div v.factor)
    let name := if u.isUnity then "per " ++ v.name else u.name ++ " per " ++ v.name
    let components ← exponentsOr (overflowText u v "/") (u.components.sub v.components)
    let adHoc ← exponentsOr (overflowText u v "/") (u.adHoc.sub v.adHoc)
    let dimension ← exponentsOr (overflowText u v "/") (u.dimension.divide v.dimension)
    return derived components adHoc name dimension factor

/-- An integer power of a unit. -/
def power (u : MeasureUnit) (n : Int) (s : Settings) : Except ConversionError MeasureUnit :=
  if n = 1 ∨ u.isUnity then .ok u
  else do
    let details := "exponent overflow raising " ++ u.symbol ++ " to " ++ Text.decimalInt n
    let components ← exponentsOr details (u.components.scale n)
    let adHoc ← exponentsOr details (u.adHoc.scale n)
    let dimension ← exponentsOr details (u.dimension.power n)
    let factor ← liftNumber (u.factor.powInt n s)
    return derived components adHoc (u.name ++ " to the " ++ Text.decimalInt n) dimension factor

/-- An integer root of a unit, all of whose exponents must be multiples of `n`. -/
def root (u : MeasureUnit) (n : Int) (s : Settings) : Except ConversionError MeasureUnit :=
  if u.isUnity then .ok u
  else do
    let details := "cannot take root " ++ Text.decimalInt n ++ " of " ++ u.symbol
    let dimension ← exponentsOr details (u.dimension.root n)
    let components ← exponentsOr details (u.components.root n)
    let adHoc ← exponentsOr details (u.adHoc.root n)
    let factor ← liftNumber <|
      if n = 2 then u.factor.sqrt s.precision
      else u.factor.powReal (Number.ofRatio 1 n) s.precision
    return derived components adHoc ("root " ++ Text.decimalInt n ++ " of " ++ u.name) dimension
      factor

/-- The operations that combine the units of two operands. -/
inductive Combination where
  | add | sub | equals | mul | frac
deriving DecidableEq

/-- The unit of a combination. Sums and comparisons need compatible units and keep the left
one. -/
def combine (kind : Combination) (u v : MeasureUnit) : Except ConversionError MeasureUnit :=
  match kind with
  | .add | .sub | .equals => do
    u.ensureCompatible v
    return u
  | .mul => u.multiply v
  | .frac => u.divide v

end Reckoner.MeasureUnit
