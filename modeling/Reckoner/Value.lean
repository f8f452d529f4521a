import Reckoner.Diagnostic
import Reckoner.Moment.Printer
import Reckoner.Moment.Shift

/-!
# Values

What an expression evaluates to: a quantity, a moment, a text, a truth value, or a diagnostic.
Diagnostics are values like the others, so that a failed part of an expression can be passed on to
the whole.
-/

namespace Reckoner

inductive Value where
  | quantity (q : Quantity)
  | moment (m : Moment)
  | text (s : String)
  | bool (b : Bool)
  | error (d : Diagnostic)
deriving DecidableEq

namespace Value

/-- The value of a plain number. -/
def number (x : Number) : Value := .quantity (.plain x)

instance : Inhabited Value := ⟨number default⟩

/-- The value of a computation; its failure is a value as well. -/
def ofExcept : Except Diagnostic Value → Value
  | .ok v => v
  | .error d => .error d

/-! ### Views -/

def quantity? : Value → Option Quantity
  | quantity q => some q
  | _ => none

/-- The number of a quantity without a unit. -/
def number? (v : Value) : Option Number := (v.quantity?.filter Quantity.isPlain).map Quantity.value

def moment? : Value → Option Moment
  | moment m => some m
  | _ => none

def text? : Value → Option String
  | text s => some s
  | _ => none

def bool? : Value → Option Bool
  | bool b => some b
  | _ => none

def error? : Value → Option Diagnostic
  | error d => some d
  | _ => none

def isError (v : Value) : Bool := v.error?.isSome

/-- No answer may be given. -/
def isAbort (v : Value) : Bool := v.error?.any Diagnostic.isAbort

/-- The name of the type of a value, as diagnostics give it. -/
def typeName : Value → String
  | quantity q => if q.isPlain then "Number" else "Quantity"
  | moment _ => "DateTime"
  | text _ => "Text"
  | bool _ => "Bool"
  | error _ => "Error"

/-! ### Texts -/

/-- The parts of the number of a quantity. -/
def parts? (v : Value) (s : Settings) : Option NumberParts :=
  v.quantity?.map fun q => q.value.toParts s

/-- The text of a value under the default settings. -/
def toText : Value → String
  | quantity q => q.display
  | moment m => m.toIso
  | text s => s
  | bool b => if b then "true" else "false"
  | error d => "#ERROR: " ++ d.message

/-- The text of parts, with the approximate text behind the exact one where there are both. -/
def partsText (p : NumberParts) : String :=
  match p.exactValue, p.approxValue with
  | some exact, some approx => exact ++ " (approx. " ++ approx ++ ")"
  | _, _ => p.display

/-- The text of a value. -/
def display (s : Settings) : Value → String
  | quantity q =>
    let number := partsText (q.value.toParts s)
    if q.unit.symbol.isEmpty then number else number ++ " " ++ q.unit.symbol
  | v => v.toText

end Value

end Reckoner
