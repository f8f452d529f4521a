import Reckoner.Value

/-!
# Functions

A function that expressions can call: what is shown about it, and what it does. The description of
its parameters decides how many arguments it takes (`FunctionInfo.checkArity`).

The functions of this library are written against a `Call`, which reads the arguments by position
and names the parameter at fault when one has the wrong type.
-/

namespace Reckoner

/-- What an evaluation is given beside the expression. -/
structure Environment where
  settings : Settings := {}
  /-- The reading of the clock. -/
  now : Moment

/-- A parameter of a function. -/
structure Parameter where
  name : String
  /-- The name of the type expected. -/
  type : String
  description : String
  /-- What stands for an argument left out; none for one that is required. -/
  default : Option String := none
deriving DecidableEq

def Parameter.isOptional (p : Parameter) : Bool := p.default.isSome

/-- What is shown about a function. -/
structure FunctionInfo where
  name : String
  description : String
  usage : String
  parameters : List Parameter
  returns : String
  examples : List String
  category : String
  related : List String
deriving DecidableEq

namespace FunctionInfo

def minArity (f : FunctionInfo) : Nat := (f.parameters.filter fun p => !p.isOptional).length

def maxArity (f : FunctionInfo) : Nat := f.parameters.length

/-- The numbers of arguments that a function takes. -/
abbrev Admits (f : FunctionInfo) (count : Nat) : Prop := f.minArity ≤ count ∧ count ≤ f.maxArity

/-- Fails for a number of arguments that the function does not take. -/
def checkArity (f : FunctionInfo) (count : Nat) : Except Diagnostic PUnit :=
  if f.Admits count then .ok ()
  else
    let least := Text.decimal f.minArity
    let expected :=
      if f.minArity = f.maxArity then least else least ++ " to " ++ Text.decimal f.maxArity
    .error ((Diagnostic.arityMismatch f.name expected count).withSuggestion ("Usage: " ++ f.usage))

end FunctionInfo

structure Function where
  info : FunctionInfo
  run : Environment → List Value → Value

/-- The call of a function with its arguments. -/
structure Call where
  info : FunctionInfo
  environment : Environment
  args : List Value

namespace Call

def settings (c : Call) : Settings := c.environment.settings

def precision (c : Call) : Nat := c.settings.precision

/-- The diagnostic of an argument of the wrong type. -/
def wrongType (c : Call) (i : Nat) (expected got : String) : Diagnostic :=
  .argumentType c.info.name ((c.info.parameters[i]?.map Parameter.name).getD "") expected got

/-- The argument at a position. -/
def arg (c : Call) (i : Nat) : Except Diagnostic Value :=
  match c.args[i]? with
  | some v => .ok v
  | none => .error (c.wrongType i "a value" "nothing")

/-- The argument at a position as a value of one type, which `view?` extracts. -/
def argAs {α : Type} (c : Call) (i : Nat) (expected : String) (view? : Value → Option α) :
    Except Diagnostic α := do
  let v ← c.arg i
  match view? v with
  | some a => return a
  | none => .error (c.wrongType i expected v.typeName)

def quantity (c : Call) (i : Nat) : Except Diagnostic Quantity :=
  c.argAs i "Quantity" Value.quantity?

def moment (c : Call) (i : Nat) : Except Diagnostic Moment := c.argAs i "DateTime" Value.moment?

def text (c : Call) (i : Nat) : Except Diagnostic String := c.argAs i "Text" Value.text?

/-- A plain number; the scale of a unit without a dimension, such as `%`, is folded in. -/
def number (c : Call) (i : Nat) : Except Diagnostic Number := do
  let q := (← c.quantity i).fold
  if q.isPlain then return q.value
  else .error (c.wrongType i "dimensionless number" q.unit.symbol)

/-- A whole number of a class of integers within 64 bits. -/
def integer (c : Call) (i : Nat) (fits : Int → Bool) : Except Diagnostic Int := do
  let x ← c.number i
  match x.toInt64? with
  | none => .error (c.wrongType i "integer" "non-integer")
  | some n =>
    if fits n then return n
    else
      let name := (c.info.parameters[i]?.map Parameter.name).getD ""
      .error (.domainError (name ++ " out of range for " ++ c.info.name))

/-- An argument that may be left out, read by `read`. -/
def optional {α : Type} (c : Call) (i : Nat) (default : α)
    (read : Nat → Except Diagnostic α) : Except Diagnostic α :=
  if i < c.args.length then read i else .ok default

end Call

/-- The function that is described by `info` and does `body`. -/
def Function.define (info : FunctionInfo) (body : Call → Except Diagnostic Value) : Function where
  info := info
  run environment args := .ofExcept (body ⟨info, environment, args⟩)

end Reckoner
