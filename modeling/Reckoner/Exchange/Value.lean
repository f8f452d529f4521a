import Reckoner.Exchange.Unit
import Reckoner.Moment.Reader
import Reckoner.Value

/-!
# Exchange of values

The JSON form of diagnostics and values. A value is an object with its type and its content, a
moment is its ISO 8601 text.
-/

namespace Reckoner

/-- The word for a severity. -/
def Severity.word : Severity → String
  | error => "error"
  | fatal | abort => "fatal"

def Severity.ofWord? : String → Option Severity
  | "error" => some error
  | "fatal" => some fatal
  | _ => none

namespace Diagnostic

def Origin.toJson (o : Origin) : Json :=
  .object <|
    Json.member? "node" (o.node.map .string) ++
      if o.notes.isEmpty then [] else [("notes", Json.strings o.notes)]

/-- In an array the node has to be given. -/
def Origin.ofJson? : Json → Option Origin
  | .array [] => none
  | v => do
    let r ← v.record? ["node", "notes"]
    return {
      node := ← r.optional? "node" none (Json.nullable? Json.string?)
      notes := ← r.optional? "notes" [] (Json.list? Json.string?) }

def toJson (d : Diagnostic) : Json :=
  .object <|
    [("code", .string d.code), ("message", .string d.message)] ++
      Json.member? "suggestion" (d.suggestion.map .string) ++
      Json.member? "context" (d.origin.map Origin.toJson) ++
      [("severity", .string d.severity.word)]

def ofJson? (v : Json) : Option Diagnostic := do
  let r ← v.record? ["code", "message", "suggestion", "context", "severity"]
  return {
    code := ← r.required? "code" Json.string?
    message := ← r.required? "message" Json.string?
    suggestion := ← r.optional? "suggestion" none (Json.nullable? Json.string?)
    origin := ← r.optional? "context" none (Json.nullable? Origin.ofJson?)
    severity := ← r.required? "severity" fun w => (w.word? false).bind Severity.ofWord? }

end Diagnostic

namespace Moment

def toJson (m : Moment) : Json := .string m.toIso

def ofJson? (v : Json) : Option Moment := do (ofText (← v.string?)).toOption

end Moment

namespace Value

/-- An object of a type and a content. -/
def tagged (type : String) (content : Json) : Json :=
  .object [("type", .string type), ("value", content)]

def toJson : Value → Json
  | quantity q => tagged "Quantity" q.toJson
  | moment m => tagged "DateTime" m.toJson
  | text s => tagged "Text" (.string s)
  | bool b => tagged "Bool" (.bool b)
  | error d => tagged "Error" d.toJson

/-- The value of a content whose type is named. -/
def ofContent? (type : String) (content : Json) : Option Value :=
  match type with
  | "Quantity" => (Quantity.ofJson? content).map quantity
  | "DateTime" => (Moment.ofJson? content).map moment
  | "Text" => content.string?.map text
  | "Bool" => content.bool?.map bool
  | "Error" => (Diagnostic.ofJson? content).map error
  | _ => none

def ofJson? (v : Json) : Option Value := do
  let r ← v.record? ["type", "value"]
  ofContent? (← r.required? "type" (Json.word? false)) (← r.required? "value" some)

end Value

end Reckoner
