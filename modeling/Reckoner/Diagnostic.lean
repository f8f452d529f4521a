import Reckoner.Moment.Error
import Reckoner.Unit.Basic

/-!
# Diagnostics

A diagnostic is an error as a value: a code, a message, perhaps a suggestion, and the places of an
expression it has passed through. The functions below name the kinds of diagnostics and fix their
texts; the last ones turn errors of numbers, units and dates into diagnostics.

A diagnostic remembers the innermost node that raised it (`atNode`), and collects one note for
every step outwards (`withNote`).
-/

namespace Reckoner

inductive Severity where
  /-- The expression has no value. -/
  | error
  /-- The evaluation was given up. -/
  | fatal
  /-- No answer of any kind can be given. -/
  | abort
deriving DecidableEq

/-- Where a diagnostic comes from. -/
structure Diagnostic.Origin where
  /-- The kind of the node that raised it. -/
  node : Option String := none
  /-- The steps it was passed on by, the innermost one first. -/
  notes : List String := []
deriving DecidableEq

structure Diagnostic where
  code : String
  message : String
  suggestion : Option String := none
  origin : Option Diagnostic.Origin := none
  severity : Severity := .error
deriving DecidableEq

namespace Diagnostic

instance : Inhabited Diagnostic := ⟨{ code := "", message := "" }⟩

def withSuggestion (d : Diagnostic) (text : String) : Diagnostic :=
  { d with suggestion := some text }

def withSeverity (d : Diagnostic) (severity : Severity) : Diagnostic :=
  { d with severity := severity }

/-- Records the kind of a node, unless an inner node is recorded already. -/
def atNode (d : Diagnostic) (kind : String) : Diagnostic :=
  let origin := d.origin.getD {}
  { d with origin := some { origin with node := some (origin.node.getD kind) } }

/-- Adds a note about one more step outwards. -/
def withNote (d : Diagnostic) (note : String) : Diagnostic :=
  let origin := d.origin.getD {}
  { d with origin := some { origin with notes := origin.notes ++ [note] } }

def isAbort (d : Diagnostic) : Bool := d.severity = .abort

def notes (d : Diagnostic) : List String := (d.origin.map Origin.notes).getD []

/-- The text of a diagnostic: code, message and suggestion. -/
def text (d : Diagnostic) : String :=
  let suggestion := match d.suggestion with
    | some s => " (suggestion: " ++ s ++ ")"
    | none => ""
  "[" ++ d.code ++ "] " ++ d.message ++ suggestion

/-- A diagnostic of the given code and message with a suggestion. -/
def advising (code message suggestion : String) : Diagnostic :=
  { code, message, suggestion := some suggestion }

/-! ### Kinds -/

def parseError (details : String) : Diagnostic :=
  advising "PARSE_ERROR" ("Parse error: " ++ details) "Check the number or literal syntax"

def divisionByZero : Diagnostic :=
  advising "DIV_ZERO" "Division by zero" "Ensure divisor is not zero"

def unknownUnit (name : String) : Diagnostic :=
  { code := "UNKNOWN_UNIT", message := "Unknown unit: " ++ name }

def incompatibleUnits (details : String) : Diagnostic :=
  advising "INCOMPATIBLE_UNITS" ("Incompatible units: " ++ details)
    "Both operands must have the same dimension"

def invalidUnitExponent (details : String) : Diagnostic :=
  advising "INVALID_UNIT_EXPONENT" ("Invalid unit exponent: " ++ details)
    "Exponents must be dimensionless; fractional powers need whole roots of the unit"

def unknownProperty (name : String) : Diagnostic :=
  { code := "UNKNOWN_PROPERTY", message := "Unknown property: " ++ name }

def unknownFunction (name : String) : Diagnostic :=
  { code := "UNKNOWN_FUNCTION", message := "Unknown function: " ++ name }

def arityMismatch (function expected : String) (count : Nat) : Diagnostic :=
  advising "ARITY_MISMATCH"
    (function ++ "() expects " ++ expected ++ " arguments, got " ++ Text.decimal count)
    ("Check the usage of " ++ function ++ "()")

def tooComplex (maxDepth : Nat) : Diagnostic :=
  (advising "TOO_COMPLEX"
    ("Expression nests deeper than " ++ Text.decimal maxDepth ++ " levels")
    "Split the expression into smaller parts").withSeverity .fatal

/-- An error that the expression itself contains; its message is kept as it is. -/
def embedded (message : String) : Diagnostic := { code := "EMBEDDED_ERROR", message }

def typeError (expected got : String) : Diagnostic :=
  { code := "TYPE_ERROR", message := "Expected " ++ expected ++ ", got " ++ got }

def argumentType (function argument expected got : String) : Diagnostic :=
  { code := "ARG_TYPE"
    message := function ++ "() argument '" ++ argument ++ "': expected " ++ expected ++
      ", got " ++ got }

def domainError (details : String) : Diagnostic :=
  { code := "DOMAIN_ERROR", message := "Domain error: " ++ details }

def internal (details : String) : Diagnostic :=
  (advising "INTERNAL" ("Internal error: " ++ details)
    "This is a bug, please report it").withSeverity .fatal

def overflow : Diagnostic := { code := "OVERFLOW", message := "Numeric overflow" }

def invalidDate (details : String) : Diagnostic :=
  advising "INVALID_DATE" ("Invalid date: " ++ details)
    "Check date components (year, month 1-12, day 1-31)"

def invalidTime (details : String) : Diagnostic :=
  advising "INVALID_TIME" ("Invalid time: " ++ details)
    "Check time components (hour 0-23, minute 0-59, second 0-59)"

def dateOverflow : Diagnostic :=
  { code := "DATE_OVERFLOW", message := "Date out of supported range" }

def dateParseError (details : String) : Diagnostic :=
  advising "DATE_PARSE_ERROR" ("Date parse error: " ++ details)
    "Use YYYY-MM-DD, YYYY-MM-DD HH:MM[:SS] or HH:MM[:SS]"

/-! ### Errors of numbers, units and dates -/

def ofNumber : NumberError → Diagnostic
  | .malformed text => parseError text
  | .divisionByZero => divisionByZero
  | .outsideDomain reason => domainError reason
  | .overflow => overflow

def ofConversion : ConversionError → Diagnostic
  | .incompatible source target sourceDimension targetDimension =>
    advising "INCOMPATIBLE_UNITS"
      (ConversionError.incompatible source target sourceDimension targetDimension).message
      "Both operands must have the same dimension"
  | .unknownUnit name => unknownUnit name
  | .invalidExponent details => invalidUnitExponent details
  | .number e => ofNumber e

def ofDate (e : DateError) : Diagnostic :=
  match e with
  | .month _ | .day _ _ _ => invalidDate e.message
  | .hour _ | .minute _ | .second _ | .nanosecond _ => invalidTime e.message
  | .malformed details => dateParseError details
  | .outOfRange => dateOverflow
  | .notADuration _ => incompatibleUnits e.message
  | .splitCharacter => (internal e.message).withSeverity .abort

/-- A computation whose errors are turned into diagnostics. -/
def lift {ε α : Type} (diagnose : ε → Diagnostic) : Except ε α → Except Diagnostic α
  | .ok a => .ok a
  | .error e => .error (diagnose e)

end Diagnostic

end Reckoner
