import Reckoner.Exchange.Value
import Reckoner.Expr.Eval

/-!
# Evaluations

The value of an expression together with its texts, as it is handed out.
-/

namespace Reckoner

structure Evaluation where
  value : Value
  /-- The parts of the number of a quantity. -/
  parts : Option NumberParts
  display : String

/-- A value with its texts. -/
def Value.evaluation (v : Value) (s : Settings) : Evaluation := ⟨v, v.parts? s, v.display s⟩

/-- Evaluates an expression and writes its value. -/
def Expr.evaluate (l : Library) (env : Environment) (e : Expr) : Evaluation :=
  (e.eval l env).evaluation env.settings

def Evaluation.toJson (e : Evaluation) : Json :=
  .object <|
    [("value", e.value.toJson)] ++ Json.member? "parts" (e.parts.map NumberParts.toJson) ++
      [("display", .string e.display)]

end Reckoner
