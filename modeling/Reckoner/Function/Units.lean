import Reckoner.Function.Basic
import Reckoner.Unit.Coherent
import Reckoner.Unit.Expression

/-!
# Unit functions

Conversion of quantities, and questions about units. A unit is given as a text or as a quantity that
has it.
-/

namespace Reckoner.Function

/-- A unit among the arguments. -/
def unitArg (c : Call) (i : Nat) : Except Diagnostic MeasureUnit := do
  match ← c.arg i with
  | .text s => parseUnit s
  | .quantity q => return q.unit
  | v => .error (c.wrongType i "Text or Quantity" v.typeName)

def convert : Function := define
  { name := "convert"
    description := "Express a quantity in another unit of the same dimension"
    usage := "convert(value, to_unit)"
    parameters := [⟨"value", "Quantity", "Quantity to convert", none⟩,
      ⟨"to_unit", "Text", "Target unit (e.g., \"mi\")", none⟩]
    returns := "Quantity"
    examples := ["convert(100 km, \"mi\") → 62.1371192237 mi",
      "convert(100 °C, \"°F\") → 212 °F", "convert(1 kg, \"lb\") → 2.20462262185 lb"]
    category := "units"
    related := ["to_base", "compatible"] }
  fun c => do
    let q ← c.quantity 0
    let u ← unitArg c 1
    return .quantity (← Diagnostic.lift .ofConversion (q.convert u))

def toBase : Function := define
  { name := "to_base"
    description := "Express a quantity in coherent SI base units"
    usage := "to_base(value)"
    parameters := [⟨"value", "Quantity", "Quantity to convert", none⟩]
    returns := "Quantity"
    examples := ["to_base(5 km) → 5000 m", "to_base(100 °C) → 373.15 K"]
    category := "units"
    related := ["convert"] }
  fun c => do
    let q ← c.quantity 0
    let u ← q.unit.coherentUnit c.settings
    return .quantity (Quantity.mk q.coherentValue u).fold

def magnitude : Function := define
  { name := "magnitude"
    description := "The number of a quantity, without its unit"
    usage := "magnitude(value)"
    parameters := [⟨"value", "Quantity", "Quantity to inspect", none⟩]
    returns := "Number"
    examples := ["magnitude(5 km) → 5", "magnitude of 3 h → 3"]
    category := "units"
    related := ["unit", "dimension"] }
  fun c => do return .number (← c.quantity 0).value

def unit : Function := define
  { name := "unit"
    description := "The unit symbol of a quantity"
    usage := "unit(value)"
    parameters := [⟨"value", "Quantity", "Quantity to inspect", none⟩]
    returns := "Text"
    examples := ["unit(5 km) → \"km\"", "unit of 9.81 m/s^2 → \"m/s^2\""]
    category := "units"
    related := ["magnitude", "dimension"] }
  fun c => do return .text (← c.quantity 0).unit.symbol

def dimension : Function := define
  { name := "dimension"
    description := "The name of a quantity's dimension"
    usage := "dimension(value)"
    parameters := [⟨"value", "Quantity", "Quantity or unit to inspect", none⟩]
    returns := "Text"
    examples := ["dimension(5 km) → \"length\"", "dimension(\"N\") → \"force\"",
      "dimension(\"m^4\") → \"length^4\""]
    category := "units"
    related := ["dimensions", "compatible"] }
  fun c => do return .text (← unitArg c 0).describe

def dimensions : Function := define
  { name := "dimensions"
    description := "Get the dimensional signature of a unit"
    usage := "dimensions(unit)"
    parameters := [⟨"unit", "Text", "Unit string like \"m/s\", or a quantity", none⟩]
    returns := "Text"
    examples := ["dimensions(\"m\") → \"L\"", "dimensions(\"m/s\") → \"L T^-1\"",
      "dimensions(\"N\") → \"L M T^-2\""]
    category := "units"
    related := ["dimension", "compatible"] }
  fun c => do return .text (← unitArg c 0).dimension.signature

def isDimensionless : Function := define
  { name := "is_dimensionless"
    description := "Check if a unit is dimensionless"
    usage := "is_dimensionless(unit)"
    parameters := [⟨"unit", "Text", "Unit string, or a quantity", none⟩]
    returns := "Bool"
    examples := ["is_dimensionless(\"rad\") → true", "is_dimensionless(\"m\") → false",
      "is_dimensionless(\"m/km\") → true"]
    category := "units"
    related := ["dimensions", "compatible"] }
  fun c => do return .bool (← unitArg c 0).isDimensionless

def compatible : Function := define
  { name := "compatible"
    description := "Check if two units are dimensionally compatible"
    usage := "compatible(unit1, unit2)"
    parameters := [⟨"unit1", "Text", "First unit or quantity", none⟩,
      ⟨"unit2", "Text", "Second unit or quantity", none⟩]
    returns := "Bool"
    examples := ["compatible(\"km\", \"mi\") → true", "compatible(\"m\", \"s\") → false",
      "compatible(\"N\", \"kg*m/s^2\") → true"]
    category := "units"
    related := ["dimensions", "convert"] }
  fun c => do
    let u ← unitArg c 0
    let v ← unitArg c 1
    return .bool (u.isCompatible v)

def units : List Function :=
  [convert, toBase, magnitude, unit, dimension, dimensions, isDimensionless, compatible]

end Reckoner.Function
