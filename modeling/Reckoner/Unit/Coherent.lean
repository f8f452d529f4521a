import Reckoner.Unit.Catalogue

/-!
# Coherent units

The unit of every dimension that is a product of powers of base units.
-/

namespace Reckoner

/-- The symbol of the unit of a base dimension. -/
def BaseDimension.unitSymbol : BaseDimension → String
  | length => "m"
  | mass => "kg"
  | time => "s"
  | current => "A"
  | temperature => "K"
  | amount => "mol"
  | luminosity => "cd"
  | currency => "$"
  | information => "bit"

/-- The coherent unit of a dimension. -/
def Dimension.coherentUnit (d : Dimension) (s : Settings) : Except Diagnostic MeasureUnit :=
  (d.terms.filter fun t => t.2 != 0).foldlM (fun u (base, e) => do
    let v ← standardUnits.resolve base.unitSymbol
    Diagnostic.lift .ofConversion (do u.multiply (← v.power e s))) .dimensionless

/-- The coherent unit of the dimension and the things counted of a unit. -/
def MeasureUnit.coherentUnit (u : MeasureUnit) (s : Settings) : Except Diagnostic MeasureUnit := do
  let base ← u.dimension.coherentUnit s
  Diagnostic.lift .ofConversion <|
    u.adHoc.entries.foldlM (fun v (name, e) => do v.multiply (← (counting name).power e s)) base

end Reckoner
