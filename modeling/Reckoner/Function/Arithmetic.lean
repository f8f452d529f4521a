import Reckoner.Function.Basic

/-!
# Arithmetic functions

Roots, powers, logarithms and rounding. `abs`, `floor`, `ceil` and `round` keep the unit of their
argument, `sqrt` and `pow` take it along, `ln` and `exp` want a plain number.
-/

namespace Reckoner.Function

def sqrt : Function := define
  { name := "sqrt"
    description := "Square root; units need whole square roots (m^2 → m)"
    usage := "sqrt(x)"
    parameters := [⟨"x", "Quantity", "Value (must be non-negative)", none⟩]
    returns := "Quantity"
    examples := ["sqrt(16) → 4", "sqrt(2) → 1.41421356237", "sqrt(9 m^2) → 3 m"]
    category := "math"
    related := ["pow", "exp"] }
  fun c => do
    let q ← c.quantity 0
    return .quantity (← Diagnostic.lift .ofConversion (q.fold.sqrt c.settings))

def ln : Function := define
  { name := "ln"
    description := "Natural logarithm"
    usage := "ln(x)"
    parameters := [⟨"x", "Number", "Value (must be positive)", none⟩]
    returns := "Number"
    examples := ["ln(e) → 1", "ln(1) → 0"]
    category := "math"
    related := ["exp"] }
  fun c => do
    let x ← c.number 0
    return .number (← Diagnostic.lift .ofNumber (x.ln c.precision))

def exp : Function := define
  { name := "exp"
    description := "Exponential function (e^x)"
    usage := "exp(x)"
    parameters := [⟨"x", "Number", "Exponent", none⟩]
    returns := "Number"
    examples := ["exp(0) → 1", "exp(1) → 2.71828182846"]
    category := "math"
    related := ["ln", "pow"] }
  fun c => do return .number ((← c.number 0).exp c.precision)

def pow : Function := define
  { name := "pow"
    description := "Raise to a power; integer powers stay exact"
    usage := "pow(base, exponent)"
    parameters := [⟨"base", "Quantity", "Base value", none⟩,
      ⟨"exponent", "Number", "Dimensionless exponent", none⟩]
    returns := "Quantity"
    examples := ["pow(2, 10) → 1024", "pow(2, -1) → 0.5", "pow(3 m, 2) → 9 m^2"]
    category := "math"
    related := ["sqrt", "exp"] }
  fun c => do
    let base ← c.quantity 0
    let exponent ← c.quantity 1
    return .quantity (← Diagnostic.lift .ofConversion (base.pow exponent c.settings))

/-- Applies a function of numbers to the first argument, which keeps its unit. -/
def onValue (f : Number → Number) (c : Call) : Except Diagnostic Value := do
  let q ← c.quantity 0
  return .quantity ⟨f q.value, q.unit⟩

def abs : Function := define
  { name := "abs"
    description := "Absolute value"
    usage := "abs(x)"
    parameters := [⟨"x", "Quantity", "Value", none⟩]
    returns := "Quantity"
    examples := ["abs(-5) → 5", "abs(-3 m) → 3 m"]
    category := "math"
    related := [] }
  (onValue Number.abs)

/-- The most decimal places that `round` accepts, to either side of the point. -/
def maxRoundPlaces : Nat := 1000

/-- Rounds a number to decimal places, halves away from zero. -/
def roundToPlaces (x : Number) (places : Int) : Except NumberError Number :=
  let scale := Number.ofScaled 1 places
  (x.mul scale).round.div scale

def round : Function := define
  { name := "round"
    description := "Round half away from zero, optionally to decimal places"
    usage := "round(x, places?)"
    parameters := [⟨"x", "Quantity", "Value to round", none⟩,
      ⟨"places", "Number", "Decimal places to keep", some "0"⟩]
    returns := "Quantity"
    examples := ["round(2.5) → 3", "round(-2.5) → -3", "round(3.14159, 2) → 3.14"]
    category := "math"
    related := ["floor", "ceil"] }
  fun c => do
    let places ← c.optional 1 0 (c.integer · (FitsSigned 32 ·))
    if places = 0 then onValue Number.round c
    else if maxRoundPlaces < places.natAbs then
      .error (.domainError ("round() places must be within ±" ++ Text.decimal maxRoundPlaces ++
        ", got " ++ Text.decimalInt places))
    else
      let q ← c.quantity 0
      return .quantity ⟨← Diagnostic.lift .ofNumber (roundToPlaces q.value places), q.unit⟩

def floor : Function := define
  { name := "floor"
    description := "Round toward negative infinity"
    usage := "floor(x)"
    parameters := [⟨"x", "Quantity", "Value to floor", none⟩]
    returns := "Quantity"
    examples := ["floor(3.7) → 3", "floor(-2.3) → -3"]
    category := "math"
    related := ["ceil", "round"] }
  (onValue Number.floor)

def ceil : Function := define
  { name := "ceil"
    description := "Round toward positive infinity"
    usage := "ceil(x)"
    parameters := [⟨"x", "Quantity", "Value to ceil", none⟩]
    returns := "Quantity"
    examples := ["ceil(3.2) → 4", "ceil(-2.7) → -2"]
    category := "math"
    related := ["floor", "round"] }
  (onValue Number.ceil)

def arithmetic : List Function := [sqrt, ln, exp, pow, abs, round, floor, ceil]

end Reckoner.Function
