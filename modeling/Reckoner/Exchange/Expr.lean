import Reckoner.Exchange.Number
import Reckoner.Expr.Basic
import Reckoner.Json.Reader

/-!
# Exchange of expressions

The JSON form of expressions and of the parts of date literals. They are written as objects, and
read in all forms that nodes have. `ofJson?` reads what stands on its own, `read? true` what stands
inside another node.
-/

namespace Reckoner

/-- The word for an operator. -/
def BinaryOp.word : BinaryOp → String
  | add => "add"
  | sub => "sub"
  | frac => "frac"
  | pow => "pow"
  | equals => "equals"

def BinaryOp.ofWord? : String → Option BinaryOp
  | "add" => some add
  | "sub" => some sub
  | "frac" => some frac
  | "pow" => some pow
  | "equals" => some equals
  | _ => none

def BinaryOp.read? (inner : Bool) (v : Json) : Option BinaryOp := (v.word? inner).bind ofWord?

def BinaryOp.ofJson? (v : Json) : Option BinaryOp := read? false v

/-- The word for an operator. -/
def UnaryOp.word : UnaryOp → String
  | negative => "negative"
  | positive => "positive"

def UnaryOp.ofWord? : String → Option UnaryOp
  | "negative" => some negative
  | "positive" => some positive
  | _ => none

def UnaryOp.read? (inner : Bool) (v : Json) : Option UnaryOp := (v.word? inner).bind ofWord?

def UnaryOp.ofJson? (v : Json) : Option UnaryOp := read? false v

namespace DateToken

def toJson : DateToken → Json
  | number text => .object [("type", .string "number"), ("value", .string text)]
  | literal text => .object [("type", .string "literal"), ("value", .string text)]
  | dash => .object [("type", .string "dash")]
  | colon => .object [("type", .string "colon")]
  | plus => .object [("type", .string "plus")]
  | space => .object [("type", .string "space")]
  | dot => .object [("type", .string "dot")]

/-- The kinds of tokens with their members. -/
def kinds : List (String × List String) :=
  [("number", ["value"]), ("literal", ["value"]), ("dash", []), ("colon", []), ("plus", []),
    ("space", []), ("dot", [])]

def read? (inner : Bool) (v : Json) : Option DateToken := do
  let (kind, r) ← v.node? kinds inner
  match kind with
  | "number" => return number (← r.required? "value" Json.string?)
  | "literal" => return literal (← r.required? "value" Json.string?)
  | "dash" => return dash
  | "colon" => return colon
  | "plus" => return plus
  | "space" => return space
  | "dot" => return dot
  | _ => none

def ofJson? (v : Json) : Option DateToken := read? false v

end DateToken

namespace Expr

/-- The JSON object of a node of a kind. -/
def node (kind : String) (members : List (String × Json)) : Json :=
  .object (("type", .string kind) :: members)

mutual

def toJson : Expr → Json
  | name n => node "unit" [("name", .string n)]
  | quote text => node "quote" [("string", .string text)]
  | const parts => node "const" [("value", parts.toJson)]
  | date tokens => node "date" [("tokens", .array (tokens.map DateToken.toJson))]
  | binary op left right =>
    node "binop" [("op", .string op.word), ("left", toJson left), ("right", toJson right)]
  | unary op operand => node "unaryop" [("op", .string op.word), ("expr", toJson operand)]
  | product factors => node "mul" [("exprs", .array (toJsonList factors))]
  | property p operand => node "of" [("property", .string p), ("expr", toJson operand)]
  | call f args => node "call" [("func", .string f), ("args", .array (toJsonList args))]
  | error message => node "error" [("message", .string message)]

def toJsonList : List Expr → List Json
  | [] => []
  | e :: es => toJson e :: toJsonList es

end

/-- The kinds of nodes with their members. -/
def kinds : List (String × List String) :=
  [("unit", ["name"]), ("quote", ["string"]), ("const", ["value"]), ("date", ["tokens"]),
    ("binop", ["op", "left", "right"]), ("unaryop", ["op", "expr"]), ("mul", ["exprs"]),
    ("of", ["property", "expr"]), ("call", ["func", "args"]), ("error", ["message"])]

mutual

/-- The expression of a JSON value. -/
def read? (inner : Bool) (v : Json) : Option Expr := do
  let (kind, r) ← v.node? kinds inner
  match kind with
  | "unit" => return name (← r.required? "name" Json.string?)
  | "quote" => return quote (← r.required? "string" Json.string?)
  | "const" => return const (← r.required? "value" NumberParts.ofJson?)
  | "date" => return date (← r.required? "tokens" (Json.list? (DateToken.read? true)))
  | "binop" =>
    let op ← r.required? "op" (BinaryOp.read? true)
    match r.field "left", r.field "right" with
    | .present left _, .present right _ =>
      return binary op (← read? true left) (← read? true right)
    | _, _ => none
  | "unaryop" =>
    let op ← r.required? "op" (UnaryOp.read? true)
    match r.field "expr" with
    | .present operand _ => return unary op (← read? true operand)
    | _ => none
  | "mul" =>
    match r.field "exprs" with
    | .present (.array factors) _ => return product (← readList? factors)
    | _ => none
  | "of" =>
    let p ← r.required? "property" Json.string?
    match r.field "expr" with
    | .present operand _ => return property p (← read? true operand)
    | _ => none
  | "call" =>
    let f ← r.required? "func" Json.string?
    match r.field "args" with
    | .present (.array args) _ => return call f (← readList? args)
    | _ => none
  | "error" => return error (← r.required? "message" Json.string?)
  | _ => none
termination_by sizeOf v
decreasing_by
  all_goals try simp only [Json.array.sizeOf_spec] at *
  all_goals omega

/-- The expressions of the elements of an array. -/
def readList? : List Json → Option (List Expr)
  | [] => some []
  | v :: vs => do return (← read? true v) :: (← readList? vs)
termination_by vs => sizeOf vs

end

/-- The expression of a JSON value that stands on its own. -/
def ofJson? (v : Json) : Option Expr := read? false v

/-- How deep the arrays and objects of an expression text may nest. -/
def maxTextDepth : Nat := 127

/-- The expression of a JSON text. -/
def ofText? (text : String) : Option Expr := (Json.ofText? maxTextDepth text).bind ofJson?

end Expr

end Reckoner
