import Reckoner.Constant
import Reckoner.Function.Arithmetic
import Reckoner.Function.Dates
import Reckoner.Function.Trigonometry
import Reckoner.Function.Units
import Reckoner.Text.Similarity

/-!
# Libraries

A library is the functions and constants that expressions can name. Names are looked up in lower
case. `Library.call` is the only way to a function: it checks that the name is known and that the
function takes the number of arguments given, so a function never sees any other number.
-/

namespace Reckoner

structure Library where
  /-- The functions under their names in lower case. -/
  functions : List (String × Function) := []
  /-- The constants under their names in lower case. -/
  constants : List (String × Constant) := []

namespace Library

/-- Adds a function; one of the same name is replaced. -/
def addFunction (l : Library) (f : Function) : Library :=
  { l with functions := setKey (Text.lowercase f.info.name) f l.functions }

/-- Adds a constant; one of the same name is replaced. -/
def addConstant (l : Library) (c : Constant) : Library :=
  { l with constants := setKey (Text.lowercase c.name) c l.constants }

/-- The library of the given functions and constants. -/
def ofLists (functions : List Function) (constants : List Constant) : Library :=
  constants.foldl addConstant (functions.foldl addFunction {})

def function? (l : Library) (name : String) : Option Function :=
  l.functions.lookup (Text.lowercase name)

def constant? (l : Library) (name : String) : Option Constant :=
  l.constants.lookup (Text.lowercase name)

/-! ### Calls -/

/-- The least similarity of a name that is worth suggesting. -/
def minSimilarity : Nat := 10

/-- How many names are suggested. -/
def maxSuggestions : Nat := 5

/-- The names of functions similar to a name: the closest first, equally close ones in order. -/
def similarNames (l : Library) (name : String) : List String :=
  let query := Text.lower name.toList
  let rated := l.functions.map fun f => (Text.similarity query f.1.toList, f.1)
  let close := rated.filter fun r => minSimilarity ≤ r.1
  (close.mergeSort fun a b => b.1 < a.1 || (a.1 == b.1 && a.2 ≤ b.2)).map (·.2)

/-- The diagnostic of a function that is not in the library. -/
def unknownFunction (l : Library) (name : String) : Diagnostic :=
  let unknown := Diagnostic.unknownFunction name
  match (l.similarNames name).take maxSuggestions with
  | [] => unknown
  | names => unknown.withSuggestion ("Similar: " ++ ", ".intercalate names)

/-- Calls a function by its name. -/
def call (l : Library) (env : Environment) (name : String) (args : List Value) : Value :=
  match l.function? name with
  | none => .error (l.unknownFunction name)
  | some f =>
    match f.info.checkArity args.length with
    | .error d => .error d
    | .ok _ => f.run env args

/-! ### Listings -/

/-- What is shown about the functions of a category, or about all of them, in the order of their
names. -/
def functionInfos (l : Library) (category : Option String) : List FunctionInfo :=
  let infos := l.functions.map fun f => f.2.info
  let chosen := infos.filter fun i => category.all (· == i.category)
  chosen.mergeSort fun a b => a.name ≤ b.name

/-- The constants in the order of their names. -/
def constantList (l : Library) : List Constant :=
  (l.constants.map (·.2)).mergeSort fun a b => a.name ≤ b.name

end Library

/-- The library known by default. -/
def standardLibrary : Library :=
  .ofLists (Function.arithmetic ++ Function.trigonometry ++ Function.dates ++ Function.units)
    (Constant.mathematical ++ Constant.physical)

end Reckoner
