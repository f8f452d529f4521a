import Reckoner.Exchange.Number
import Reckoner.Quantity

/-!
# Exchange of units

The JSON form of dimensions, units and quantities.
-/

namespace Reckoner

namespace Dimension

def toJson (d : Dimension) : Json :=
  .object [("exponents", .array (d.exponents.toList.map .integer))]

/-- A dimension from its list of exponents. -/
def ofExponents? (v : Json) : Option Dimension := do
  let es ← Json.list? (Json.integer? (IsExponent ·)) v
  if h : es.length = 9 then ofVector? ⟨es.toArray, by simp [h]⟩ else none

def ofJson? (v : Json) : Option Dimension := do
  (← v.record? ["exponents"]).required? "exponents" ofExponents?

end Dimension

namespace Exponents

def toJson (m : Exponents) : Json := .object (m.entries.map fun e => (e.1, .integer e.2))

def ofJson? (v : Json) : Option Exponents := do
  let entries ← (← v.members?).mapM fun m => do
    return (m.1, ← Json.integer? (IsExponent ·) m.2)
  ofList? entries

end Exponents

namespace MeasureUnit

def toJson (u : MeasureUnit) : Json :=
  .object <|
    [("symbol", .string u.symbol), ("name", .string u.name), ("dimension", u.dimension.toJson),
      ("to_si_factor", u.factor.toJson), ("to_si_offset", u.offset.toJson),
      ("category", .string u.category), ("components", u.components.toJson)] ++
      Json.member? "calendar_months" (u.calendarMonths.map .integer) ++
      if u.adHoc.isEmpty then [] else [("ad_hoc", u.adHoc.toJson)]

def ofJson? (v : Json) : Option MeasureUnit := do
  let r ← v.record? ["symbol", "name", "dimension", "to_si_factor", "to_si_offset", "category",
    "components", "calendar_months", "ad_hoc"]
  return {
    symbol := ← r.required? "symbol" Json.string?
    name := ← r.required? "name" Json.string?
    dimension := ← r.required? "dimension" Dimension.ofJson?
    factor := ← r.required? "to_si_factor" Number.ofJson?
    offset := ← r.required? "to_si_offset" Number.ofJson?
    category := ← r.required? "category" Json.string?
    components := ← r.optional? "components" .empty Exponents.ofJson?
    calendarMonths :=
      ← r.optional? "calendar_months" none (Json.nullable? (Json.integer? (FitsSigned 64 ·)))
    adHoc := ← r.optional? "ad_hoc" .empty Exponents.ofJson? }

end MeasureUnit

namespace Quantity

def toJson (q : Quantity) : Json :=
  .object [("value", q.value.toJson), ("unit", q.unit.toJson)]

def ofJson? (v : Json) : Option Quantity := do
  let r ← v.record? ["value", "unit"]
  return ⟨← r.required? "value" Number.ofJson?, ← r.required? "unit" MeasureUnit.ofJson?⟩

end Quantity

end Reckoner
