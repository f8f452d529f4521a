import Reckoner.Diagnostic
import Reckoner.Expr.Basic
import Reckoner.Moment.Reader

/-!
# Date literals

A date literal is the text of its tokens. It is read as a moment; a time of day alone is a time of
the current day.
-/

namespace Reckoner

/-- Whether a text begins with the hours of a time of day: a colon within the first three bytes, and
no dash in front of it. -/
def isTimeOfDay (cs : List Char) : Bool :=
  match Text.cutFirst? (· == ':') cs with
  | some (hours, _) => Text.byteLength hours ≤ 2 && !hours.contains '-'
  | none => false

namespace Moment

/-- A time of day on the day of a clock reading; with a `Z` behind it, on the day of that instant in
UTC. -/
def ofTimeOfDay (cs : List Char) (now : Moment) : Except DateError Moment := do
  match Text.dropLast? "Z" cs with
  | some clock => (now.withOffset 0).atTime (← ClockTime.ofText (Text.trimEnd clock))
  | none => now.atTime (← ClockTime.ofText cs)

/-- The moment of the tokens of a date literal. -/
def ofTokens (tokens : List DateToken) (now : Moment) : Except Diagnostic Moment :=
  let cs := Text.trim (tokens.flatMap fun t => t.text.toList)
  if cs.isEmpty then .error (.dateParseError "empty date literal")
  else
    Diagnostic.lift .ofDate
      (if isTimeOfDay cs then ofTimeOfDay cs now else ofText (String.ofList cs))

end Moment

end Reckoner
