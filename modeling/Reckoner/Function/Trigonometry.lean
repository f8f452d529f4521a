import Reckoner.Function.Basic

/-!
# Trigonometric functions

Angles are plain numbers in radians; an angle unit such as the degree is folded in first.
-/

namespace Reckoner.Function

def angle : Parameter := ⟨"x", "Number", "Angle in radians, or with an angle unit", none⟩

def sin : Function := define
  { name := "sin"
    description := "Sine function"
    usage := "sin(x)"
    parameters := [angle]
    returns := "Number"
    examples := ["sin(0) → 0", "sin(90 deg) → 1"]
    category := "trig"
    related := ["cos", "tan"] }
  fun c => do return .number ((← c.number 0).sin c.precision)

def cos : Function := define
  { name := "cos"
    description := "Cosine function"
    usage := "cos(x)"
    parameters := [angle]
    returns := "Number"
    examples := ["cos(0) → 1", "cos(pi) → -1"]
    category := "trig"
    related := ["sin", "tan"] }
  fun c => do return .number ((← c.number 0).cos c.precision)

def tan : Function := define
  { name := "tan"
    description := "Tangent function"
    usage := "tan(x)"
    parameters := [angle]
    returns := "Number"
    examples := ["tan(0) → 0", "tan(45 deg) → 1"]
    category := "trig"
    related := ["sin", "cos"] }
  fun c => do
    let x ← c.number 0
    return .number (← Diagnostic.lift .ofNumber (x.tan c.precision))

def trigonometry : List Function := [sin, cos, tan]

end Reckoner.Function
