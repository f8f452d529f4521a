import Reckoner.Number.Parts

/-!
# Expressions

The trees that are evaluated. Every node has a `kind`, a short name under which trees are exchanged
and diagnostics refer to nodes.
-/

namespace Reckoner

inductive BinaryOp where
  | add | sub | frac | pow | equals
deriving DecidableEq, Inhabited

inductive UnaryOp where
  | negative | positive
deriving DecidableEq, Inhabited

/-- The pieces of a date literal. -/
inductive DateToken where
  | number (text : String)
  | literal (text : String)
  | dash | colon | plus | space | dot
deriving DecidableEq, Inhabited

inductive Expr where
  /-- The name of a unit or a constant, or `now`. -/
  | name (name : String)
  | quote (text : String)
  | const (parts : NumberParts)
  | date (tokens : List DateToken)
  | binary (op : BinaryOp) (left right : Expr)
  | unary (op : UnaryOp) (operand : Expr)
  /-- A chain of factors, of which a number and a unit side by side are a case. -/
  | product (factors : List Expr)
  /-- A property of a value, such as a percentage or the year of a date. -/
  | property (property : String) (operand : Expr)
  | call (function : String) (args : List Expr)
  /-- An error found before evaluation. -/
  | error (message : String)
deriving Inhabited

namespace Expr

/-- The short name of the kind of a node. -/
def kind : Expr → String
  | name _ => "unit"
  | quote _ => "quote"
  | const _ => "const"
  | date _ => "date"
  | binary _ _ _ => "binop"
  | unary _ _ => "unaryop"
  | product _ => "mul"
  | property _ _ => "of"
  | call _ _ => "call"
  | error _ => "error"

/-- An integer literal. -/
def int (n : Int) : Expr := const (.integer n)

/-- A literal fraction. -/
def fraction (n d : Int) : Expr := const (.fraction n d)

/-- The literal of a number text. A text that is no number becomes a literal with that text, which
is read again when it is evaluated. -/
def decimal (text : String) : Expr :=
  match Number.ofText text with
  | .ok x => const (x.toParts default)
  | .error _ => const { numer := text, denom := "1", exactValue := some text }

end Expr

/-- The text that a piece of a date literal stands for. -/
def DateToken.text : DateToken → String
  | number text | literal text => text
  | dash => "-"
  | colon => ":"
  | plus => "+"
  | space => " "
  | dot => "."

end Reckoner
