import Reckoner.Unit.Algebra

/-!
# Quantities

A quantity is a number with a unit; plain numbers have the empty unit. `coherentValue` is its value
in the coherent unit of its dimension, and arithmetic is arithmetic on these values:

* sums express the right operand in the left unit, products and quotients do so where the
  dimensions agree, so that `2 m * 50 cm` is `1 m^2`;
* what is left of a unit without a dimension is folded into the value, so that `2 m / 50 cm` is 4;
* temperatures with an offset are added, subtracted and compared as absolute ones.
-/

namespace Reckoner

structure Quantity where
  value : Number
  unit : MeasureUnit
deriving DecidableEq

namespace Quantity

/-- A plain number. -/
def plain (x : Number) : Quantity := ⟨x, .dimensionless⟩

instance : Inhabited Quantity := ⟨plain default⟩

def dimension (q : Quantity) : Dimension := q.unit.dimension

def isDimensionless (q : Quantity) : Bool := q.unit.isDimensionless

/-- A number without unit symbol or scale. -/
def isPlain (q : Quantity) : Bool := q.unit.isUnity

def isCompatible (a b : Quantity) : Bool := a.unit.isCompatible b.unit

/-- The value in the coherent unit of the dimension. -/
def coherentValue (q : Quantity) : Number := q.unit.toCoherent q.value

/-- The quantity in another unit, offsets included. -/
def convert (q : Quantity) (target : MeasureUnit) : Except ConversionError Quantity := do
  return ⟨← q.unit.convert target q.value, target⟩

/-- The value in another unit by the ratio of the scales, without offsets. -/
def rescale (q : Quantity) (target : MeasureUnit) : Except ConversionError Number := do
  if q.unit.same target then return q.value
  return q.value.mul (← q.unit.factorTo target)

/-- Folds the scale of a unit without a dimension into the value. -/
def fold (q : Quantity) : Quantity :=
  if q.unit.isDimensionless && !q.unit.isUnity then plain (q.value.mul q.unit.factor) else q

/-- One of the two units has an offset. -/
def hasOffset (a b : Quantity) : Bool := a.unit.hasOffset || b.unit.hasOffset

/-! ### Sums -/

/-- A sum or a difference, by the operation on numbers. -/
def addWith (op : Number → Number → Number) (kind : MeasureUnit.Combination) (a b : Quantity)
    (s : Settings) : Except ConversionError Quantity := do
  let unit ← MeasureUnit.combine kind a.unit b.unit
  if hasOffset a b then
    return ⟨← liftNumber ((op a.coherentValue b.coherentValue).withinLimits s), .kelvin⟩
  let right ← b.rescale a.unit
  return ⟨← liftNumber ((op a.value right).withinLimits s), unit⟩

def add (a b : Quantity) (s : Settings) : Except ConversionError Quantity :=
  addWith Number.add .add a b s

def sub (a b : Quantity) (s : Settings) : Except ConversionError Quantity :=
  addWith Number.sub .sub a b s

def neg (q : Quantity) : Quantity := ⟨q.value.neg, q.unit⟩

/-! ### Products -/

/-- The right operand of a product or quotient, in the left unit if the two share a dimension. -/
def alignedWith (b a : Quantity) : Except ConversionError Quantity := do
  if b.isDimensionless || !b.isCompatible a || b.unit.same a.unit then return b
  return ⟨← b.rescale a.unit, a.unit⟩

def mul (a b : Quantity) (s : Settings) : Except ConversionError Quantity := do
  let b ← b.alignedWith a
  let unit ← MeasureUnit.combine .mul a.unit b.unit
  let value ← liftNumber ((a.value.mul b.value).withinLimits s)
  return fold ⟨value, unit⟩

def div (a b : Quantity) (s : Settings) : Except ConversionError Quantity := do
  let b ← b.alignedWith a
  let value ← liftNumber (do (← a.value.div b.value).withinLimits s)
  let unit ← MeasureUnit.combine .frac a.unit b.unit
  return fold ⟨value, unit⟩

/-! ### Powers and roots -/

/-- A power with a whole exponent. -/
def powInt (q : Quantity) (e : Number) (s : Settings) : Except ConversionError Quantity := do
  match e.toInt64?.filter fun n => IsExponent n with
  | none => .error (.invalidExponent "exponent too large")
  | some n =>
    let unit ← q.unit.power n s
    let value ← liftNumber (do (← q.value.powInt n s).withinLimits s)
    return ⟨value, unit⟩

/-- A power with an exponent `n / d`, for a unit that has a `d`-th root. -/
def powRatio (q : Quantity) (e : Number) (n d : Int) (s : Settings) :
    Except ConversionError Quantity := do
  let unit ← (← q.unit.root d s).power n s
  let value ← liftNumber <|
    if d = 2 then do (← q.value.sqrt s.precision).powInt n s else q.value.pow e s
  return ⟨← liftNumber (value.withinLimits s), unit⟩

/-- A power. The exponent must be without a dimension; one that is not whole needs a plain number
or a root of the unit. -/
def pow (q exponent : Quantity) (s : Settings) : Except ConversionError Quantity :=
  let e := exponent.fold
  if !e.isPlain then
    .error (.invalidExponent ("exponent must be dimensionless, got " ++ e.unit.symbol))
  else if e.value.isExact && e.value.isInteger then q.powInt e.value s
  else
    let base := q.fold
    if base.isPlain then do
      return plain (← liftNumber (do (← base.value.pow e.value s).withinLimits s))
    else
      match e.value with
      | .exact r =>
        if IsExponent r.num ∧ IsExponent r.den then q.powRatio e.value r.num r.den s
        else
          .error (.invalidExponent ("cannot raise " ++ q.unit.symbol ++ " to a non-integer power"))
      | .approx _ =>
        .error (.invalidExponent ("cannot raise " ++ q.unit.symbol ++ " to a non-integer power"))

/-- The square root; the unit must have one. -/
def sqrt (q : Quantity) (s : Settings) : Except ConversionError Quantity := do
  let unit ← q.unit.root 2 s
  return ⟨← liftNumber (q.value.sqrt s.precision), unit⟩

/-! ### Comparison -/

/-- Whether two quantities are equal, within the tolerance of approximate numbers. -/
def equals (a b : Quantity) (s : Settings) : Except ConversionError Bool := do
  let _ ← MeasureUnit.combine .equals a.unit b.unit
  if hasOffset a b then
    return a.coherentValue.approxEq s.equalityTolerance b.coherentValue
  return a.value.approxEq s.equalityTolerance (← b.rescale a.unit)

/-- Equality of compatible quantities by their coherent values, within the default tolerance. -/
def same (a b : Quantity) : Bool := a.isCompatible b && a.coherentValue.equals b.coherentValue

/-- The text of a quantity under the default settings. -/
def display (q : Quantity) : String :=
  if q.unit.symbol.isEmpty then q.value.display else q.value.display ++ " " ++ q.unit.symbol

end Quantity

end Reckoner
