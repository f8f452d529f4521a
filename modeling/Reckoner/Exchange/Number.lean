import Reckoner.Json.Record
import Reckoner.Number.Parts

/-!
# Exchange of numbers

The JSON form of numbers and of settings. A number is exchanged as its parts under the default
settings. A reader ignores members of an object that it does not know, and refuses one that it
knows and that is given twice, here as in the other forms of exchange.
-/

namespace Reckoner

namespace NumberParts

def toJson (p : NumberParts) : Json :=
  .object <|
    [("numer", .string p.numer), ("denom", .string p.denom)] ++
      Json.member? "exactValue" (p.exactValue.map .string) ++
      Json.member? "approxValue" (p.approxValue.map .string) ++
      if p.approximate then [("approximate", .bool true)] else []

def ofJson? (v : Json) : Option NumberParts := do
  let r ← v.record? ["numer", "denom", "exactValue", "approxValue", "approximate"]
  return {
    numer := ← r.required? "numer" Json.string?
    denom := ← r.required? "denom" Json.string?
    exactValue := ← r.optional? "exactValue" none (Json.nullable? Json.string?)
    approxValue := ← r.optional? "approxValue" none (Json.nullable? Json.string?)
    approximate := ← r.optional? "approximate" false Json.bool? }

end NumberParts

namespace Number

def toJson (x : Number) : Json := (x.toParts default).toJson

def ofJson? (v : Json) : Option Number := do (ofParts (← NumberParts.ofJson? v)).toOption

end Number

/-- Settings of which any may be left out. -/
def Settings.ofJson? (v : Json) : Option Settings := do
  let r ← v.record? ["precision", "digit_budget", "approx_digits", "max_exact_bits",
    "max_fraction_denom", "max_fraction_numer", "max_exact_int_digits", "max_decimal_exponent",
    "equality_tolerance_exp", "max_depth"]
  let d : Settings := {}
  let natural (bits : Nat) (default : Nat) (name : String) : Option Nat :=
    (r.optional? name (default : Int) (Json.integer? (FitsUnsigned bits ·))).map Int.toNat
  return {
    precision := ← natural 32 d.precision "precision"
    digitBudget := ← natural 64 d.digitBudget "digit_budget"
    approxDigits := ← natural 64 d.approxDigits "approx_digits"
    maxExactBits := ← natural 64 d.maxExactBits "max_exact_bits"
    maxFractionDenom := ← natural 64 d.maxFractionDenom "max_fraction_denom"
    maxFractionNumer := ← natural 64 d.maxFractionNumer "max_fraction_numer"
    maxExactIntDigits := ← natural 64 d.maxExactIntDigits "max_exact_int_digits"
    maxDecimalExponent := ← natural 64 d.maxDecimalExponent "max_decimal_exponent"
    equalityTolerance := ← natural 32 d.equalityTolerance "equality_tolerance_exp"
    maxDepth := ← natural 64 d.maxDepth "max_depth" }

end Reckoner
