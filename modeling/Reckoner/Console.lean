import Reckoner.Evaluation
import Reckoner.Exchange.Expr
import Reckoner.Exchange.Listing

/-!
# The console

Answers to single lines of text. A line holds an expression in its JSON form, or a command behind a
colon; a blank line has no answer.
-/

namespace Reckoner

/-- The answer to a line. -/
inductive Reply where
  | evaluation (e : Evaluation)
  /-- The line is not the text of an expression. -/
  | malformed
  | functions (infos : List FunctionInfo)
  | constants (constants : List Constant)
  | unknownCommand (command : String)

/-- Settings with a precision and a depth limit given as texts; a text that is no such number has no
effect. -/
def Settings.override (s : Settings) (precision maxDepth : Option String) : Settings :=
  let read (bits : Nat) (text : Option String) : Option Nat :=
    text.bind fun t => Text.readUnsignedWord? bits (Text.trim t.toList)
  { s with
    precision := (read 32 precision).getD s.precision
    maxDepth := (read 64 maxDepth).getD s.maxDepth }

namespace Reply

/-- The answer to an expression text. -/
def ofText (l : Library) (env : Environment) (text : String) : Reply :=
  match Expr.ofText? text with
  | some e => evaluation (e.evaluate l env)
  | none => malformed

/-- The answer to a command, given by its words. -/
def ofCommand (l : Library) : List String → Reply
  | "functions" :: category => functions (l.functionInfos category.head?)
  | "constants" :: _ => constants l.constantList
  | other => unknownCommand (other.headD "")

/-- The answer to a line. -/
def ofLine? (l : Library) (env : Environment) (line : String) : Option Reply :=
  match Text.trim line.toList with
  | [] => none
  | ':' :: command => some (ofCommand l ((Text.words command).map String.ofList))
  | text => some (ofText l env (String.ofList text))

/-- No answer may be given. -/
def isAbort : Reply → Bool
  | evaluation e => e.value.isAbort
  | _ => false

/-- The evaluation that stands for a malformed text. -/
def malformedEvaluation : Evaluation :=
  (Value.error (.parseError "expression tree: not an expression")).evaluation {}

def toJson : Reply → Json
  | evaluation e => e.toJson
  | malformed => malformedEvaluation.toJson
  | functions infos => .array (infos.map FunctionInfo.toJson)
  | constants cs => .array (cs.map Constant.toJson)
  | unknownCommand c => .object [("error", .string ("unknown command ':" ++ c ++ "'"))]

end Reply

end Reckoner
