import Reckoner.Diagnostic
import Reckoner.Number.Functions
import Reckoner.Number.Reader
import Reckoner.Quantity
import Reckoner.Unit.Expression

/-!
# Constants

Named numbers with a unit. The number of a constant is given by its formula: a number text, or one
of a few closed forms that are computed to the precision asked for.

No constant has the name of a unit, for units are looked up first. Standard gravity is therefore
`g0` and not `g`, the gram.
-/

namespace Reckoner

structure Constant where
  name : String
  formula : String
  /-- The unit expression of the constant; empty for a plain number. -/
  unit : String := ""
  source : String
  category : String
deriving DecidableEq

namespace Constant

/-- The closed forms that a formula may be, each computed to a precision. -/
def closedForms : List (String × (Nat → Except NumberError Number)) := [
  ("pi", fun p => .ok (.pi p)),
  ("exp(1)", fun p => .ok (.e p)),
  ("(1 + sqrt(5)) / 2", fun p => .ok (.phi p)),
  ("sqrt(2)", (Number.ofInt 2).sqrt),
  ("sqrt(3)", (Number.ofInt 3).sqrt)]

/-- The number that a formula denotes. -/
def evalFormula (formula : String) (precision : Nat) : Except Diagnostic Number :=
  match Number.ofText formula with
  | .ok x => .ok x
  | .error _ =>
    match closedForms.lookup formula with
    | some compute => Diagnostic.lift .ofNumber (compute precision)
    | none => .error (.internal ("Unknown constant formula: " ++ formula))

/-- The number of a constant, without its unit. -/
def value (c : Constant) (precision : Nat) : Except Diagnostic Number :=
  evalFormula c.formula precision

/-- A constant with its unit. -/
def quantity (c : Constant) (precision : Nat) : Except Diagnostic Quantity := do
  let x ← c.value precision
  return ⟨x, ← parseUnit c.unit⟩

/-! ### The known constants -/

def mathematical : List Constant := [
  ⟨"pi", "pi", "", "https://oeis.org/A000796", "transcendental"⟩,
  ⟨"π", "pi", "", "https://oeis.org/A000796", "transcendental"⟩,
  ⟨"e", "exp(1)", "", "https://oeis.org/A001113", "transcendental"⟩,
  ⟨"phi", "(1 + sqrt(5)) / 2", "", "https://oeis.org/A001622", "algebraic"⟩,
  ⟨"φ", "(1 + sqrt(5)) / 2", "", "https://oeis.org/A001622", "algebraic"⟩,
  ⟨"sqrt2", "sqrt(2)", "", "https://oeis.org/A002193", "algebraic"⟩,
  ⟨"sqrt3", "sqrt(3)", "", "https://oeis.org/A002194", "algebraic"⟩]

/-- Constants of physics. Those of gravitation and of the mass of the electron are measured, the
others are exact. -/
def physical : List Constant := [
  ⟨"c", "299792458", "m/s", "https://physics.nist.gov/cgi-bin/cuu/Value?c", "physics"⟩,
  ⟨"g0", "9.80665", "m/s^2", "3rd CGPM (1901)", "physics"⟩,
  ⟨"G", "6.67430e-11", "m^3/kg/s^2", "https://physics.nist.gov/cgi-bin/cuu/Value?bg", "physics"⟩,
  ⟨"planck", "6.62607015e-34", "J*s", "https://physics.nist.gov/cgi-bin/cuu/Value?h", "physics"⟩,
  ⟨"N_A", "6.02214076e23", "1/mol", "https://physics.nist.gov/cgi-bin/cuu/Value?na", "physics"⟩,
  ⟨"k_B", "1.380649e-23", "J/K", "https://physics.nist.gov/cgi-bin/cuu/Value?k", "physics"⟩,
  ⟨"q_e", "1.602176634e-19", "C", "https://physics.nist.gov/cgi-bin/cuu/Value?e", "physics"⟩,
  ⟨"m_e", "9.1093837015e-31", "kg", "https://physics.nist.gov/cgi-bin/cuu/Value?me", "physics"⟩]

end Constant

end Reckoner
