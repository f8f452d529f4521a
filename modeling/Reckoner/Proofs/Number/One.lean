import Reckoner.Proofs.Decimal.Compare
import Reckoner.Proofs.Number.Neutral

/-!
# Numbers with the value one

A number is one if its value is, exact or not (`Number.isOne_iff`). Rounding does not change the
value, at whatever precision, and neither do products and quotients of such numbers: the powers of
one that are too large to be exact are one still (`Number.value_powInt_of_one`).
-/

namespace Reckoner

namespace Decimal

variable {a b d : Decimal} {p : Nat}

/-- The value is 1, kept to some number of digits. -/
structure IsOne (d : Decimal) : Prop where
  value : d.toRat = 1
  precision : 0 < d.precision

theorem toRat_one : one.toRat = 1 := by
  rw [one, toRat_ofScaled, Int.cast_one, zpow_zero, mul_one]

theorem nearestSignificant_one (hp : 0 < p) : Number.nearestSignificant p 1 = 1 := by
  have hdigits : Text.digitCount 1 ≤ p :=
    Text.digitCount_le_iff.2 (Nat.one_lt_pow hp.ne' (by decide))
  simpa using Number.nearestSignificant_of_digitCount_le hdigits 0

theorem isOne_withPrecision (h : d.toRat = 1) (p : Nat) : (d.withPrecision p).IsOne where
  value := by
    rw [toRat_withPrecision, h]
    split
    · rfl
    · exact nearestSignificant_one (by omega)
  precision := by
    rw [precision_withPrecision]
    omega

namespace IsOne

theorem mul (ha : a.IsOne) (hb : b.IsOne) : (a.mul b).IsOne where
  value := by
    have hp : 0 < max a.precision b.precision := lt_max_of_lt_left ha.precision
    rw [toRat_mul hp, ha.value, hb.value, mul_one, nearestSignificant_one hp]
  precision := by
    rw [Decimal.mul, precision_rounded]
    exact lt_max_of_lt_left ha.precision

/-- One digit is enough for 1, and its place is that of the units. -/
theorem normal_form (h : d.IsOne) : d.significand = 1 ∧ d.exponent = 0 := by
  have hdigits : d.digits ≤ 1 := by
    rw [← nearestSignificant_toRat_iff one_pos, h.value, nearestSignificant_one one_pos]
  have hs : d.significand ≠ 0 := toRat_ne_zero_iff.1 (h.value ▸ one_ne_zero)
  have hexponent : d.exponent = 0 := by
    have hlog := log_abs_toRat hs
    rw [h.value, abs_one, Int.log_one_right, leadingExponent] at hlog
    omega
  have hvalue := h.value
  rw [toRat, hexponent, zpow_zero, mul_one] at hvalue
  exact ⟨by exact_mod_cast hvalue, hexponent⟩

theorem div (ha : a.IsOne) (hb : b.IsOne) : (a.div b).IsOne where
  value := by
    obtain ⟨hs, he⟩ := hb.normal_form
    rw [toRat_div_of_one hs he, ha.value]
  precision := by
    rw [precision_div]
    exact lt_max_of_lt_left ha.precision

end IsOne

end Decimal

namespace Number

open Decimal (isOne_withPrecision)

variable {x y : Number} {e : Int} {s : Settings}

theorem isOne_toDecimal (h : x.value = 1) (p : Nat) : (x.toDecimal p).IsOne := by
  cases x with
  | exact r =>
    obtain rfl : r = 1 := h
    refine isOne_withPrecision (d := Decimal.ofInteger 1 0) ?_ p
    rw [Decimal.ofInteger, Decimal.toRat_ofScaled, Int.cast_one, zpow_zero, mul_one]
  | approx d => exact isOne_withPrecision h p

theorem isZero_of_value_one (h : x.value = 1) : x.isZero = false := by
  refine Bool.eq_false_iff.2 fun hzero => ?_
  rw [value_eq_zero hzero] at h
  exact zero_ne_one h

theorem isOne_iff : x.isOne ↔ x.value = 1 := by
  cases x with
  | exact r => exact beq_iff_eq
  | approx d =>
    rw [isOne, Decimal.compare_eq_cmp, beq_iff_eq, cmp_eq_eq_iff, Decimal.toRat_one]
    rfl

theorem value_mul_of_one (hx : x.value = 1) (hy : y.value = 1) : (x.mul y).value = 1 := by
  have hproduct : ((x.toDecimal workingPrecision).mul (y.toDecimal workingPrecision)).toRat = 1 :=
    ((isOne_toDecimal hx _).mul (isOne_toDecimal hy _)).value
  cases x with
  | exact a =>
    cases y with
    | exact b =>
      obtain rfl : a = 1 := hx
      obtain rfl : b = 1 := hy
      exact mul_one 1
    | approx d => exact hproduct
  | approx d => exact hproduct

theorem isOne_squareAndMultiply {fuel n : Nat} {result square : Decimal} (hr : result.IsOne)
    (hs : square.IsOne) : (squareAndMultiply fuel n result square).IsOne := by
  -- Result and square are 1 before every round, whichever bit is next.
  induction fuel generalizing n result square with
  | zero => exact hr
  | succ fuel ih =>
    rw [squareAndMultiply]
    split
    · exact hr
    · apply ih
      · split
        · exact hr.mul hs
        · exact hr
      · split
        · exact hs
        · exact hs.mul hs

theorem isOne_decimalPower {base : Decimal} (h : base.IsOne) (e : Int) (p : Nat) :
    (decimalPower base e p).IsOne := by
  have hunit := isOne_withPrecision Decimal.toRat_one p
  simp only [decimalPower]
  split
  · exact hunit.div (isOne_squareAndMultiply hunit h)
  · exact isOne_squareAndMultiply hunit h

/-- Every power of 1 is 1, exact or not. -/
theorem value_powInt_of_one (hx : x.value = 1) (h : x.powInt e s = .ok y) : y.value = 1 := by
  have happrox : (decimalPower (x.toDecimal s.precision) e s.precision).toRat = 1 :=
    (isOne_decimalPower (isOne_toDecimal hx _) e _).value
  unfold powInt at h
  rw [isZero_of_value_one hx] at h
  split at h
  · cases h
    rfl
  · simp only [Bool.false_eq_true, if_false] at h
    cases x with
    | approx d =>
      cases h
      exact happrox
    | exact r =>
      obtain rfl : r = 1 := hx
      simp only at h
      split at h
      · cases h
        exact happrox
      · split at h
        · cases h
        · cases h
          exact one_zpow e

end Number

end Reckoner
