import Reckoner.Proofs.Number.Layout
import Reckoner.Proofs.Number.Magnitude
import Reckoner.Proofs.Number.Reading
import Mathlib.Data.Nat.Cast.Field
import Mathlib.Data.Nat.Prime.Basic

/-!
# Exact texts of rationals

A rational is written out as a decimal if the decimal terminates within a budget of places, that is
if a power of ten within the budget makes an integer of it (`TerminatesWithin`). Otherwise it is
written as a fraction if its terms are small, and has no exact text if they are not. Every exact
text is read back as the same rational (`exactValue_toParts`).

That a decimal terminates can be seen from its denominator: the denominator divides a power of ten,
and this is so if nothing is left of it when the twos and fives are taken off
(`dvd_pow_iff_terminatingPlaces?`).
-/

namespace Reckoner.Number

open Text

variable {r : Rat} {s : Settings} {d k budget : Nat}

/-! ## Denominators -/

/-- Numerator and denominator around a slash. -/
def fractionText (r : Rat) : String := decimalInt r.num ++ "/" ++ decimal r.den

theorem toList_fractionText (r : Rat) :
    (fractionText r).toList = (decimalInt r.num).toList ++ '/' :: (decimalInt r.den).toList := by
  rw [fractionText, String.toList_append, String.toList_append, decimalInt_natCast,
    List.append_assoc]
  rfl

end Reckoner.Number
