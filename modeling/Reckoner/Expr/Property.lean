import Reckoner.Expr.Basic
import Reckoner.Library

/-!
# Properties

The properties that values can be asked for: a percentage of a quantity, a part of a quantity or of
a moment, and, beyond these, any function of one argument.
-/

namespace Reckoner

/-- The number in front of a percent sign or of the word `percent`. -/
def percentDigits? (cs : List Char) : Option (List Char) :=
  ((Text.dropLast? "%" cs <|> Text.dropLast? "percent" cs).map Text.trim).filter fun cs =>
    !cs.isEmpty

/-- The fraction that a percentage denotes. -/
def readPercentage (digits : List Char) : Except NumberError Number := do
  (← Number.ofText (String.ofList digits)).div (Number.ofInt 100)

namespace Value

/-- A fraction of a quantity, which keeps its unit. -/
def fraction (x : Number) : Value → Except Diagnostic Value
  | quantity q => .ok (.quantity ⟨q.value.mul x, q.unit⟩)
  | v => .error (.typeError "Quantity" v.typeName)

/-- A field of a moment by its name in lower case. -/
def momentField? (m : Moment) : String → Option Int
  | "year" => some m.year
  | "month" => some m.month
  | "day" => some m.day
  | "hour" => some m.hour
  | "minute" => some m.minute
  | "second" => some m.second
  | "weekday" => some m.weekday
  | "dayofyear" => some m.dayOfYear
  | _ => none

/-- A part of a quantity by its name in lower case. -/
def quantityPart? (q : Quantity) : String → Option Value
  | "magnitude" | "value" => some (.number q.value)
  | "unit" => some (.text q.unit.symbol)
  | "dimension" => some (.text q.unit.describe)
  | _ => none

/-- A property that is part of the value itself. -/
def part? (v : Value) (key : String) : Option Value :=
  match v with
  | .quantity q => quantityPart? q key
  | .moment m => (momentField? m key).map fun n => .number (.ofInt n)
  | _ => none

end Value

/-- A property of a value. -/
def Library.property (l : Library) (env : Environment) (property : String) (v : Value) : Value :=
  let name := Text.trim property.toList
  match percentDigits? name with
  | some digits =>
    .ofExcept (do v.fraction (← Diagnostic.lift .ofNumber (readPercentage digits)))
  | none =>
    let key := String.ofList (Text.lower name)
    match v.part? key with
    | some part => part
    | none =>
      if (l.function? key).isSome then l.call env key [v]
      else
        let name := String.ofList name
        .error ((Diagnostic.unknownProperty name).withSuggestion
          ("'" ++ name ++ "' is not a property of " ++ v.typeName))

end Reckoner
