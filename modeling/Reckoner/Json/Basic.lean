/-!
# JSON values

The data of JSON texts. An object is the list of its members in the order of the text, so that a
name given twice is visible. Numbers written as plain integers are kept apart from all others.
-/

namespace Reckoner

inductive Json where
  | null
  | bool (b : Bool)
  | integer (n : Int)
  /-- A number with a fraction or an exponent: `mantissa * 10 ^ exponent`. -/
  | real (mantissa exponent : Int)
  | string (s : String)
  | array (elements : List Json)
  | object (members : List (String × Json))
deriving Inhabited

namespace Json

/-- Reads `null` as nothing. -/
def nullable? {α : Type} (read : Json → Option α) : Json → Option (Option α)
  | null => some none
  | v => (read v).map some

def string? : Json → Option String
  | string s => some s
  | _ => none

def bool? : Json → Option Bool
  | bool b => some b
  | _ => none

/-- An integer of a class of integers. -/
def integer? (fits : Int → Bool) : Json → Option Int
  | integer n => if fits n then some n else none
  | _ => none

/-- The elements of an array, each read by `read`. -/
def list? {α : Type} (read : Json → Option α) : Json → Option (List α)
  | array elements => elements.mapM read
  | _ => none

def members? : Json → Option (List (String × Json))
  | object members => some members
  | _ => none

/-- A member that is left out when it has no value. -/
def member? (name : String) (v : Option Json) : List (String × Json) :=
  (v.map fun v => (name, v)).toList

def strings (texts : List String) : Json := array (texts.map string)

end Json

end Reckoner
