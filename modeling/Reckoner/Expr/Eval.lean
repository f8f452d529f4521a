import Reckoner.Expr.DateLiteral
import Reckoner.Expr.Property

/-!
# Evaluation

`Expr.eval` gives every expression a value. Operands are evaluated from left to right, and the first
of them that is an error is the value of the whole, with a note that says where it came from.

Every value passes through `finish`: a quantity whose number is out of range becomes an error, and
an error learns the kind of the node that raised it. A tree that nests deeper than the settings
allow is an error at the node where it does.
-/

namespace Reckoner

/-- What is left of the evaluation of a node: the size of a quantity is checked, and an error is
marked with the kind of the node unless it has come from an inner one. -/
def Value.finish (kind : String) (s : Settings) : Value → Value
  | .quantity q =>
    match q.value.checkRange s with
    | .ok _ => .quantity q
    | .error e => .error ((Diagnostic.ofNumber e).atNode kind)
  | .error d => .error (d.atNode kind)
  | v => v

/-- Goes on with the value of an operand; an error is passed on with a note. -/
def Value.passOn (v : Value) (note : String) (next : Value → Value) : Value :=
  match v with
  | .error d => .error (d.withNote note)
  | v => next v

/-! ### Leaves -/

/-- The value of a literal number. -/
def NumberParts.eval (parts : NumberParts) (s : Settings) : Value :=
  .ofExcept (Diagnostic.lift .ofNumber (do
    return .number (← (← Number.ofParts parts).withinLimits s)))

/-- Whether a name is `now`, in any case. -/
def isNow (name : String) : Bool := name.toList.map Char.toLower == ['n', 'o', 'w']

/-- The value of a name: one of a unit, a constant, or the clock reading. -/
def Library.evalName (l : Library) (env : Environment) (name : String) : Value :=
  .ofExcept <|
    match standardUnits.lookup? name with
    | some u => .ok (.quantity ⟨.ofInt 1, u⟩)
    | none =>
      -- A unit hides a constant of its name, and both hide the clock.
      match l.constant? name with
      | some c => (c.quantity env.settings.precision).map .quantity
      | none =>
        if isNow name then .ok (.moment env.now)
        else (standardUnits.resolve name).map fun u => .quantity ⟨.ofInt 1, u⟩

/-! ### Operators -/

/-- The operands that an operator takes, as diagnostics give them. -/
def BinaryOp.operands : BinaryOp → String
  | add => "two quantities, a date and a duration, or two texts"
  | sub => "two quantities, a date and a duration, or two dates"
  | frac | pow => "two quantities"
  | equals => "two values of the same type"

/-- The value of an operator on two quantities. -/
def BinaryOp.onQuantities (op : BinaryOp) (a b : Quantity) (s : Settings) :
    Except ConversionError Value :=
  match op with
  | add => (a.add b s).map .quantity
  | sub => (a.sub b s).map .quantity
  | frac => (a.div b s).map .quantity
  | pow => (a.pow b s).map .quantity
  | equals => (a.equals b s).map .bool

/-- The value of an operator. -/
def BinaryOp.apply (op : BinaryOp) (s : Settings) (a b : Value) : Value :=
  .ofExcept <|
    match op, a, b with
    | op, .quantity a, .quantity b => Diagnostic.lift .ofConversion (op.onQuantities a b s)
    | add, .moment m, .quantity q
    | add, .quantity q, .moment m => Diagnostic.lift .ofDate ((m.addQuantity q).map .moment)
    | sub, .moment m, .quantity q => Diagnostic.lift .ofDate ((m.subQuantity q).map .moment)
    | sub, .moment m, .moment n => .ok (.quantity (m.difference n))
    | equals, .moment m, .moment n => .ok (.bool (m.nanos == n.nanos))
    | add, .text s, .text t => .ok (.text (s ++ t))
    | equals, .text s, .text t => .ok (.bool (s == t))
    | equals, .bool p, .bool q => .ok (.bool (p == q))
    | op, a, b => .error (.typeError op.operands (a.typeName ++ " and " ++ b.typeName))

def UnaryOp.apply : UnaryOp → Value → Value
  | positive, v => v
  | negative, .quantity q => .quantity q.neg
  | negative, v => .error (.typeError "Quantity" v.typeName)

/-! ### Chains of factors -/

/-- A plain number in front of the name of a unit takes that unit. -/
def adoptUnit? (product : Option Quantity) (factor : Expr) : Option Quantity :=
  match product, factor with
  | some q, .name n =>
    if q.isPlain then (standardUnits.lookup? n).map fun u => ⟨q.value, u⟩ else none
  | _, _ => none

/-- A quoted factor that is not blank counts things of that name. -/
def countedThing? : Expr → Option Quantity
  | .quote text =>
    let name := Text.trimmed text
    if name.isEmpty then none else some ⟨.ofInt 1, .counting name⟩
  | _ => none

/-- The product of the factors so far and one more. -/
def multiplyBy (product : Option Quantity) (factor : Quantity) (s : Settings) :
    Except Diagnostic Quantity :=
  match product with
  | none => .ok factor
  | some q => Diagnostic.lift .ofConversion (q.mul factor s)

/-- The value of a factor as a quantity; `i` is its position, from 1. -/
def Value.asFactor (v : Value) (i : Nat) : Except Diagnostic Quantity :=
  match v with
  | .quantity q => .ok q
  | .error d => .error (d.withNote ("from factor " ++ Text.decimal i))
  | v =>
    .error ((Diagnostic.typeError "Quantity" v.typeName).withNote ("factor " ++ Text.decimal i))

/-! ### Trees -/

namespace Expr

mutual

/-- The value of an expression at a depth below the root. -/
def evalAt (l : Library) (env : Environment) (depth : Nat) (e : Expr) : Value :=
  if env.settings.maxDepth < depth then
    .error ((Diagnostic.tooComplex env.settings.maxDepth).atNode e.kind)
  else
    Value.finish e.kind env.settings <|
      match e with
      | name n => l.evalName env n
      | quote text => .text text
      | const parts => parts.eval env.settings
      | date tokens => .ofExcept ((Moment.ofTokens tokens env.now).map .moment)
      | binary op left right =>
        (evalAt l env (depth + 1) left).passOn "from left operand" fun a =>
          (evalAt l env (depth + 1) right).passOn "from right operand" fun b =>
            op.apply env.settings a b
      | unary op operand => (evalAt l env (depth + 1) operand).passOn "from operand" op.apply
      | product factors =>
        .ofExcept ((evalFactors l env (depth + 1) 1 none factors).map .quantity)
      | property p operand =>
        (evalAt l env (depth + 1) operand).passOn ("from operand of '" ++ p ++ "'")
          (l.property env p)
      | call f args =>
        match evalArgs l env (depth + 1) f 1 args with
        | .ok args => l.call env f args
        | .error d => .error d
      | error message => .error (.embedded message)

/-- The values of arguments, the first of which has position `i`; fails at the first error. -/
def evalArgs (l : Library) (env : Environment) (depth : Nat) (f : String) (i : Nat) :
    List Expr → Except Diagnostic (List Value)
  | [] => .ok []
  | e :: es =>
    match evalAt l env depth e with
    | .error d => .error (d.withNote ("from argument " ++ Text.decimal i ++ " of " ++ f ++ "()"))
    | v => (evalArgs l env depth f (i + 1) es).map (v :: ·)

/-- The product of the factors before, if there are any, and of those left, the first of which has
position `i`. -/
def evalFactors (l : Library) (env : Environment) (depth i : Nat) (product : Option Quantity) :
    List Expr → Except Diagnostic Quantity
  | [] => .ok (product.getD (.plain (.ofInt 1)))
  | e :: es =>
    match adoptUnit? product e with
    | some q => evalFactors l env depth (i + 1) (some q) es
    | none => do
      let factor ← match countedThing? e with
        | some thing => .ok thing
        | none => (evalAt l env depth e).asFactor i
      let q ← multiplyBy product factor env.settings
      evalFactors l env depth (i + 1) (some q) es

end

/-- The value of an expression. -/
def eval (l : Library) (env : Environment) (e : Expr) : Value := e.evalAt l env 0

end Expr

end Reckoner
