import Reckoner.Unit.Catalogue

/-!
# Unit expressions

Texts such as `km/h`, `kg·m/s^2` or `meters per second`, read as units. A text that is a registered
name as a whole is that unit. Any other is a product of powers of names, and every slash divides
all that stands in front of it by the product behind it.
-/

namespace Reckoner

/-- The digit that a superscript stands for. -/
def superscriptDigit? : Char → Option Nat
  | '⁰' => some 0
  | '¹' => some 1
  | '²' => some 2
  | '³' => some 3
  | '⁴' => some 4
  | '⁵' => some 5
  | '⁶' => some 6
  | '⁷' => some 7
  | '⁸' => some 8
  | '⁹' => some 9
  | _ => none

def isSuperscript (c : Char) : Bool := (superscriptDigit? c).isSome || c == '⁻'

/-- The exponent that a run of superscripts denotes, if it fits an exponent without its sign. -/
def superscriptExponent? (cs : List Char) : Option Int :=
  let (negative, digits) := match cs with
    | '⁻' :: rest => (true, rest)
    | _ => (false, cs)
  if digits.isEmpty then none
  else
    match digits.mapM superscriptDigit? with
    | none => none
    | some ds =>
      let n : Nat := ds.foldl (fun n d => 10 * n + d) 0
      if n < 2 ^ 31 then some (if negative then -(n : Int) else n) else none

/-- Splits a superscript exponent off the end of a name: `m²` into `m` and 2. -/
def splitSuperscript? (cs : List Char) : Option (List Char × Int) :=
  let base := Text.dropEndWhile isSuperscript cs
  let superscripts := cs.drop base.length
  if base.isEmpty then none else (superscriptExponent? superscripts).map fun e => (base, e)

namespace Registry

/-- A unit name with an optional exponent, behind a `^` or as a superscript. -/
def readPower (r : Registry) (cs : List Char) : Except Diagnostic MeasureUnit :=
  let power (base : List Char) (e : Int) : Except Diagnostic MeasureUnit := do
    let u ← r.resolve (String.ofList base)
    Diagnostic.lift .ofConversion (u.power e default)
  match Text.cutFirst? (· == '^') cs with
  | some (base, exponent) =>
    match Text.readSignedWord? 32 (Text.trim exponent) with
    | some e => power base e
    | none =>
      .error (.invalidUnitExponent
        ("'" ++ String.ofList exponent ++ "' in " ++ String.ofList cs))
  | none =>
    match splitSuperscript? cs with
    | some (base, e) => power base e
    | none => r.resolve (String.ofList cs)

/-- A product of powers, separated by `*`, `·` or blanks. -/
def readProduct (r : Registry) (cs : List Char) : Except Diagnostic MeasureUnit :=
  let factors := (Text.splitAll (fun c => c == '*' || c == '·' || c == ' ') cs).filter fun f =>
    !f.isEmpty && f != ['1']
  factors.foldlM (fun u f => do
    let factor ← r.readPower f
    Diagnostic.lift .ofConversion (u.multiply factor)) .dimensionless

/-- Products separated by slashes. -/
def readQuotient (r : Registry) (cs : List Char) : Except Diagnostic MeasureUnit := do
  match Text.splitAll (· == '/') cs with
  | [] => r.readProduct []
  | first :: rest =>
    let u ← r.readProduct first
    rest.foldlM (fun u f => do
      let divisor ← r.readProduct f
      Diagnostic.lift .ofConversion (u.divide divisor)) u

/-- The unit of a unit expression. Nothing, or a 1, is the unit of plain numbers. -/
def parse (r : Registry) (text : String) : Except Diagnostic MeasureUnit :=
  let cs := Text.trim text.toList
  if cs.isEmpty || cs == ['1'] then .ok .dimensionless
  else
    match r.lookup? (String.ofList cs) with
    | some u => .ok u
    | none => r.readQuotient (Text.replaceAll " per " "/" cs)

end Registry

/-- The unit of a unit expression over the catalogued units. -/
def parseUnit (text : String) : Except Diagnostic MeasureUnit := standardUnits.parse text

end Reckoner
