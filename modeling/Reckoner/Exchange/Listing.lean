import Reckoner.Exchange.Value
import Reckoner.Library

/-!
# Exchange of listings

The JSON form of what is shown about functions and constants.
-/

namespace Reckoner

def Parameter.toJson (p : Parameter) : Json :=
  .object <|
    [("name", .string p.name), ("typ", .string p.type), ("description", .string p.description),
      ("optional", .bool p.isOptional)] ++
      Json.member? "default" (p.default.map .string)

def FunctionInfo.toJson (f : FunctionInfo) : Json :=
  .object [("name", .string f.name), ("description", .string f.description),
    ("usage", .string f.usage), ("args", .array (f.parameters.map Parameter.toJson)),
    ("returns", .string f.returns), ("examples", Json.strings f.examples),
    ("category", .string f.category), ("related", Json.strings f.related)]

namespace Constant

def toJson (c : Constant) : Json :=
  .object [("name", .string c.name), ("formula", .string c.formula), ("unit", .string c.unit),
    ("source", .string c.source), ("category", .string c.category)]

def ofJson? (v : Json) : Option Constant := do
  let r ← v.record? ["name", "formula", "unit", "source", "category"]
  return {
    name := ← r.required? "name" Json.string?
    formula := ← r.required? "formula" Json.string?
    unit := ← r.optional? "unit" "" Json.string?
    source := ← r.required? "source" Json.string?
    category := ← r.required? "category" Json.string? }

end Constant

end Reckoner
