import Reckoner.Diagnostic
import Reckoner.Text.EditDistance
import Reckoner.Text.Lowercase
import Reckoner.Unit.Algebra

/-!
# The unit registry

A registry holds units under their symbols, other names for them, and which of them take decimal or
binary multiples. Only base forms are stored; `Registry.lookup?` finds a unit by symbol, by name in
any case and as a plural, and with the name or the symbol of a multiple in front.

Where a name could be read in several ways, the first of these wins: a symbol or alias as it is, a
name in lower case, a long multiple, a short multiple.
-/

namespace Reckoner

/-- A multiple such as kilo: its long and short name and its scale. -/
structure Multiple where
  name : String
  symbol : String
  scale : Number

namespace Multiple

def decimal (name symbol : String) (power : Int) : Multiple :=
  ⟨name, symbol, Number.ofScaled 1 power⟩

def binary (name symbol : String) (power : Nat) : Multiple :=
  ⟨name, symbol, Number.ofInt (1024 ^ power)⟩

/-- The decimal multiples, those with a symbol of two letters first. -/
def decimals : List Multiple :=
  [decimal "deca" "da" 1, decimal "quetta" "Q" 30, decimal "ronna" "R" 27,
    decimal "yotta" "Y" 24, decimal "zetta" "Z" 21, decimal "exa" "E" 18, decimal "peta" "P" 15,
    decimal "tera" "T" 12, decimal "giga" "G" 9, decimal "mega" "M" 6, decimal "kilo" "k" 3,
    decimal "hecto" "h" 2, decimal "deci" "d" (-1), decimal "centi" "c" (-2),
    decimal "milli" "m" (-3), decimal "micro" "u" (-6), decimal "micro" "μ" (-6),
    decimal "nano" "n" (-9), decimal "pico" "p" (-12), decimal "femto" "f" (-15),
    decimal "atto" "a" (-18)]

def binaries : List Multiple :=
  [binary "kibi" "Ki" 1, binary "mebi" "Mi" 2, binary "gibi" "Gi" 3, binary "tebi" "Ti" 4,
    binary "pebi" "Pi" 5, binary "exbi" "Ei" 6]

end Multiple

/-- A multiple of a unit, with the names of both joined. -/
def MeasureUnit.multiple (u : MeasureUnit) (m : Multiple) : MeasureUnit :=
  .new (m.symbol ++ u.symbol) (m.name ++ u.name) u.dimension (u.factor.mul m.scale) u.category

/-- Sets the value of a key in a list of pairs; a new key goes to the end. -/
def setKey {α : Type} (key : String) (value : α) : List (String × α) → List (String × α)
  | [] => [(key, value)]
  | (other, v) :: rest =>
    if other = key then (key, value) :: rest else (other, v) :: setKey key value rest

/-- Which multiples a unit takes. -/
inductive Scaling where
  | fixed | decimal | decimalAndBinary
deriving DecidableEq

structure Registry where
  units : List (String × MeasureUnit) := []
  /-- Other names, each with the symbol it stands for. -/
  aliases : List (String × String) := []
  /-- The symbols of units that take decimal multiples. -/
  decimalScaled : List String := []
  /-- The symbols of units that take binary multiples. -/
  binaryScaled : List String := []

namespace Registry

/-- The unit of an exact symbol or alias. -/
def get? (r : Registry) (symbol : String) : Option MeasureUnit :=
  r.units.lookup symbol <|> (r.aliases.lookup symbol).bind fun s => r.units.lookup s

/-- The forms under which a lower-case name is looked for: itself, and without a plural ending. -/
def singulars (lower : List Char) : List String :=
  (some lower :: [Text.dropLast? "s" lower, Text.dropLast? "es" lower]).filterMap
    (Option.map String.ofList)

/-- The unit of a long name in any case, or of a symbol of two or more characters, perhaps in the
plural. -/
def byName? (r : Registry) (name : String) : Option MeasureUnit :=
  let alias? (s : String) := (r.aliases.lookup s).bind fun s => r.units.lookup s
  (singulars (Text.lower name.toList)).findSome? alias? <|>
    ((Text.dropLast? "s" name.toList).filter fun cs => 2 ≤ cs.length).bind fun cs =>
      r.units.lookup (String.ofList cs)

/-- The first multiple whose name stands in front of a unit that takes it. -/
def withMultiple? (name : List Char) (spelling : Multiple → String) (scaled : List String)
    (base? : String → Option MeasureUnit) (multiples : List Multiple) : Option MeasureUnit :=
  multiples.findSome? fun m =>
    ((Text.dropHead? (spelling m) name).bind fun rest => base? (String.ofList rest)).bind fun u =>
      if scaled.contains u.symbol then some (u.multiple m) else none

/-- A unit behind the long name of a multiple, in any case. -/
def byLongMultiple? (r : Registry) (name : String) : Option MeasureUnit :=
  let lower := Text.lower name.toList
  let base? (s : String) := r.get? s <|> r.byName? s
  withMultiple? lower Multiple.name r.decimalScaled base? Multiple.decimals <|>
    withMultiple? lower Multiple.name r.binaryScaled base? Multiple.binaries

/-- A unit behind the symbol of a multiple. -/
def byShortMultiple? (r : Registry) (name : String) : Option MeasureUnit :=
  withMultiple? name.toList Multiple.symbol r.binaryScaled r.get? Multiple.binaries <|>
    withMultiple? name.toList Multiple.symbol r.decimalScaled r.get? Multiple.decimals

/-- The unit of a name in any of its spellings. -/
def lookup? (r : Registry) (name : String) : Option MeasureUnit :=
  let name := Text.trimmed name
  if name.isEmpty then none
  else r.get? name <|> r.byName? name <|> r.byLongMultiple? name <|> r.byShortMultiple? name

def contains (r : Registry) (name : String) : Bool := (r.lookup? name).isSome

/-! ### Suggestions -/

/-- All symbols and aliases. -/
def names (r : Registry) : List String := r.units.map (·.1) ++ r.aliases.map (·.1)

/-- Keeps the better of two rated names: the one at the smaller distance, then the smaller name. -/
def better (best : Option (Nat × String)) (candidate : Nat × String) : Option (Nat × String) :=
  match best with
  | none => some candidate
  | some b =>
    if candidate.1 < b.1 ∨ candidate.1 = b.1 ∧ candidate.2 < b.2 then some candidate else some b

/-- The known name closest to a query, if it is at most two edits away, or one for a query of up to
three characters. Case does not count. -/
def suggest? (r : Registry) (query : String) : Option String :=
  let query := Text.lower query.toList
  let limit := if query.length ≤ 3 then 1 else 2
  let rated := r.names.map fun n => (Text.editDistance query (Text.lower n.toList), n)
  ((rated.filter (·.1 ≤ limit)).foldl better none).map (·.2)

/-- The unit of a name, or a diagnostic with the closest known name. -/
def resolve (r : Registry) (name : String) : Except Diagnostic MeasureUnit :=
  match r.lookup? name with
  | some u => .ok u
  | none =>
    let unknown := Diagnostic.unknownUnit name
    match r.suggest? name with
    | some n => .error (unknown.withSuggestion ("Did you mean '" ++ n ++ "'?"))
    | none => .error unknown

/-- The units of a category, in the order of their symbols. -/
def ofCategory (r : Registry) (category : String) : List MeasureUnit :=
  ((r.units.map (·.2)).filter (·.category == category)).mergeSort fun u v => u.symbol ≤ v.symbol

def size (r : Registry) : Nat := r.units.length

/-! ### Registration -/

/-- Registers a unit under its symbol. Its name in lower case becomes an alias unless that alias
exists. -/
def register (r : Registry) (u : MeasureUnit) (scaling : Scaling := .fixed) : Registry :=
  let name := Text.lowercase u.name
  let named := !name.isEmpty && name != u.symbol && (r.aliases.lookup name).isNone
  { units := setKey u.symbol u r.units
    aliases := if named then setKey name u.symbol r.aliases else r.aliases
    decimalScaled := if scaling = .fixed then r.decimalScaled else u.symbol :: r.decimalScaled
    binaryScaled :=
      if scaling = .decimalAndBinary then u.symbol :: r.binaryScaled else r.binaryScaled }

/-- Registers other names of a symbol; an alias given before is replaced. -/
def addAliases (r : Registry) (symbol : String) (names : List String) : Registry :=
  { r with aliases := names.foldl (fun aliases n => setKey n symbol aliases) r.aliases }

/-- The product of powers of known units. -/
def product? (r : Registry) (parts : List (String × Int)) : Option MeasureUnit :=
  parts.foldlM (fun u (name, e) =>
    (r.lookup? name).bind fun base =>
      match base.power e default with
      | .error _ => none
      | .ok factor => (u.multiply factor).toOption) .dimensionless

/-- Registers a product of powers of known units under its composed symbol. -/
def registerProduct (r : Registry) (name : String) (parts : List (String × Int))
    (aliases : List String) : Registry :=
  match r.product? parts with
  | none => r
  | some u => (r.register { u with name := name }).addAliases u.symbol aliases

end Registry

/-- A line of a unit catalogue. -/
inductive CatalogueEntry where
  | unit (u : MeasureUnit) (scaling : Scaling)
  | product (name : String) (parts : List (String × Int)) (aliases : List String)
  | aliases (symbol : String) (names : List String)

namespace Registry

def addEntry (r : Registry) : CatalogueEntry → Registry
  | .unit u scaling => r.register u scaling
  | .product name parts aliases => r.registerProduct name parts aliases
  | .aliases symbol names => r.addAliases symbol names

/-- The registry of a catalogue, its lines registered in order. -/
def ofCatalogue (entries : List CatalogueEntry) : Registry := entries.foldl addEntry {}

end Registry

end Reckoner
