import Reckoner.Proofs.Decimal.Sum

/-!
# Relative errors

`Near g x y` says that `y` is an approximation of `x`, off by `g - 1` of its magnitude at most.
Factors `g` multiply along chains of approximations and under products, so that the error of a
computation is a power of `slack p`, the factor of one operation at precision `p`. A single rounding
stays below half of that and, if there are few digits, below more than half (`roundoff p`). It is by
this that the three roundings of a quotient of integers are two units in the last of `p` digits at
any precision (`Number.near_toDecimal`).
-/

namespace Reckoner

/-- `y` is off `x` by `g - 1` of the magnitude of `x` at most. -/
def Near (g x y : Rat) : Prop := |y - x| ≤ (g - 1) * |x|

namespace Near

variable {g h x y z x' y' : Rat}

theorem refl (x : Rat) : Near 1 x x := by simp [Near]

theorem mono (hle : g ≤ h) (hxy : Near g x y) : Near h x y :=
  hxy.trans (mul_le_mul_of_nonneg_right (by linarith) (abs_nonneg x))

theorem abs_le (hxy : Near g x y) : |y| ≤ g * |x| := by
  have htriangle := abs_sub_abs_le_abs_sub y x
  rw [Near] at hxy
  linarith

theorem le_abs (hxy : Near g x y) : (2 - g) * |x| ≤ |y| := by
  have htriangle := abs_sub_abs_le_abs_sub x y
  rw [abs_sub_comm] at htriangle
  rw [Near] at hxy
  linarith

/-- Two numbers near one. -/
theorem abs_sub_le_both (hxy : Near g x y) (hxz : Near g x z) : |y - z| ≤ 2 * (g - 1) * |x| := by
  have htriangle := abs_sub_le y x z
  rw [abs_sub_comm x z] at htriangle
  rw [Near] at hxy hxz
  linarith

theorem trans (hh : 1 ≤ h) (hxy : Near g x y) (hyz : Near h y z) : Near (g * h) x z := by
  calc |z - x| ≤ |z - y| + |y - x| := abs_sub_le _ _ _
    _ ≤ (h - 1) * |y| + (g - 1) * |x| := add_le_add hyz hxy
    _ ≤ (h - 1) * (g * |x|) + (g - 1) * |x| := by
        gcongr
        exact hxy.abs_le
    _ = (g * h - 1) * |x| := by ring

theorem mul (hxy : Near g x y) (hxy' : Near h x' y') :
    Near (g * h) (x * x') (y * y') := by
  have hsplit : y * y' - x * x' = y * (y' - x') + (y - x) * x' := by ring
  calc |y * y' - x * x'| ≤ |y| * |y' - x'| + |y - x| * |x'| := by
        rw [hsplit, ← abs_mul, ← abs_mul]
        exact abs_add_le _ _
    _ ≤ g * |x| * ((h - 1) * |x'|) + (g - 1) * |x| * |x'| := by
        gcongr
        · exact (abs_nonneg y).trans hxy.abs_le
        · exact hxy.abs_le
        · exact hxy'
        · exact hxy
    _ = (g * h - 1) * |x * x'| := by
        rw [abs_mul]
        ring

theorem neg (hxy : Near g x y) : Near g (-x) (-y) := by
  rw [Near, neg_sub_neg, abs_sub_comm, abs_neg]
  exact hxy

theorem div_const (hxy : Near g x y) (c : Rat) : Near g (x / c) (y / c) := by
  rw [Near, ← sub_div, abs_div, abs_div, mul_div_assoc']
  exact div_le_div_of_nonneg_right hxy (abs_nonneg c)

/-- Near numbers have near inverses. -/
theorem inv {u : Rat} (hu : u < 1) (hxy : Near (1 + u) x y) : Near (1 / (1 - u)) x⁻¹ y⁻¹ := by
  have hu' : 0 < 1 - u := by linarith
  have hlow : (1 - u) * |x| ≤ |y| := by
    have := hxy.le_abs
    linarith
  rw [Near, add_sub_cancel_left] at hxy
  by_cases hx : x = 0
  · have hy : y = 0 := by
      rw [hx, sub_zero, abs_zero, mul_zero] at hxy
      exact abs_nonpos_iff.1 hxy
    rw [Near, hx, hy]
    simp
  · have hx' : 0 < |x| := abs_pos.2 hx
    have hy' : 0 < |y| := (mul_pos hu' hx').trans_le hlow
    have hy : y ≠ 0 := abs_pos.1 hy'
    have hdiff : y⁻¹ - x⁻¹ = (x - y) / (x * y) := by
      field_simp
    have hfactor : (1 / (1 - u) - 1) * |x⁻¹| = u / (1 - u) / |x| := by
      rw [abs_inv]
      field_simp
      ring
    rw [Near, hdiff, hfactor, abs_div, abs_mul, abs_sub_comm, div_le_div_iff₀ (by positivity) hx']
    calc |y - x| * |x| ≤ u * |x| * |x| := mul_le_mul_of_nonneg_right hxy hx'.le
      _ = u / (1 - u) * (|x| * ((1 - u) * |x|)) := by
          field_simp
      _ ≤ u / (1 - u) * (|x| * |y|) := by
          have hnonneg : 0 ≤ u := by
            have := (abs_nonneg _).trans hxy
            exact nonneg_of_mul_nonneg_left this hx'
          gcongr

end Near

namespace Decimal

open Number (nearestSignificant ten_zpow_mul ten_zpow_pos)

variable {a b d : Decimal} {p q : Nat}

/-- The factor of the error of an operation at precision `p`: one unit in the last of `p` digits,
relative to a number whose other digits are zero. -/
def slack (p : Nat) : Rat := 1 + (10 : Rat) ^ (1 - p : Int)

theorem one_lt_slack (p : Nat) : 1 < slack p := by
  rw [slack]
  linarith [ten_zpow_pos (1 - p)]

theorem zpow_one_sub_le (h : p ≤ q) : (10 : Rat) ^ (1 - q : Int) ≤ (10 : Rat) ^ (1 - p : Int) :=
  zpow_le_zpow_right₀ (by decide) (by omega)

/-- The bound on the relative error of a rounding to `p` digits, which is that of the number half a
unit above a power of ten. -/
def roundoff (p : Nat) : Rat := 1 / (2 * (10 : Rat) ^ (p - 1 : Int) + 1)

theorem roundoff_pos (p : Nat) : 0 < roundoff p := by
  have := ten_zpow_pos (p - 1)
  exact div_pos one_pos (by linarith)

theorem roundoff_lt_one : roundoff p < 1 := by
  have := ten_zpow_pos (p - 1)
  rw [roundoff, div_lt_one (by linarith)]
  linarith

theorem one_add_roundoff_le (p : Nat) : 1 + roundoff p ≤ slack p := by
  have hpower := ten_zpow_pos (p - 1)
  have hunit : (10 : Rat) ^ (1 - p : Int) = 1 / (10 : Rat) ^ (p - 1 : Int) := by
    rw [one_div, ← zpow_neg, neg_sub]
  rw [slack, roundoff, hunit]
  gcongr
  linarith

theorem near_of_rounded {x y : Rat} (hp : 0 < p) (h : Rounded p x y) :
    Near (1 + roundoff p) x y := by
  rw [Near, add_sub_cancel_left, mul_comm]
  exact h.abs_sub_le_div hp

theorem near_mul (hp : 0 < p) (ha : p ≤ a.precision) :
    Near (slack p) (a.toRat * b.toRat) (a.mul b).toRat := by
  have hmax : p ≤ max a.precision b.precision := ha.trans (le_max_left _ _)
  rw [toRat_mul (hp.trans_le hmax)]
  have hrounded :=
    Number.rounded_nearestSignificant (max a.precision b.precision) (a.toRat * b.toRat)
  exact (near_of_rounded hp (hrounded.mono hmax)).mono (one_add_roundoff_le p)

theorem near_div (hb : b.significand ≠ 0) (hp : 0 < p) (ha : p ≤ a.precision) :
    Near (1 + roundoff p) (a.toRat / b.toRat) (a.div b).toRat := by
  have hmax : p ≤ max a.precision b.precision := ha.trans (le_max_left _ _)
  exact near_of_rounded hp ((rounded_div hb (hp.trans_le hmax)).mono hmax)

theorem near_withPrecision (hp : 0 < p) (d : Decimal) :
    Near (1 + roundoff p) d.toRat (d.withPrecision p).toRat := by
  apply near_of_rounded hp
  rw [toRat_withPrecision, max_eq_left hp]
  split
  · exact .same
  · exact Number.rounded_nearestSignificant p d.toRat

/-- A sum is off by one unit of its operands at most, whatever it cancels. -/
theorem abs_add_sub_le_slack (hp : 0 < p) (hb : p ≤ b.precision) :
    |(a.add b).toRat - (a.toRat + b.toRat)| ≤ (slack p - 1) * (|a.toRat| + |b.toRat|) := by
  have hmax : p ≤ max a.precision b.precision := hb.trans (le_max_right _ _)
  have herror := abs_add_sub_le (a := a) (b := b) (hp.trans_le hmax)
  have hle := mul_le_mul_of_nonneg_left (zpow_one_sub_le hmax)
    (add_nonneg (abs_nonneg a.toRat) (abs_nonneg b.toRat))
  rw [slack, add_sub_cancel_left, mul_comm]
  push_cast at herror hle
  linarith

end Decimal

namespace Number

open Decimal (slack one_lt_slack roundoff roundoff_pos near_withPrecision near_div)

/-- Three roundings, one of them of a divisor, are two units at most. -/
theorem quotient_factor_le {p : Nat} :
    (1 + roundoff p) * (1 / (1 - roundoff p)) * (1 + roundoff p) ≤ 1 + 2 * (slack p - 1) := by
  have hunit : slack p - 1 = 1 / (10 : Rat) ^ (p - 1 : Int) := by
    rw [slack, add_sub_cancel_left, one_div, ← zpow_neg, neg_sub]
  have hn := ten_zpow_pos (p - 1)
  rw [hunit, roundoff]
  generalize (10 : Rat) ^ (p - 1 : Int) = n at *
  have hplus : 1 + 1 / (2 * n + 1) = 2 * (n + 1) / (2 * n + 1) := by
    field_simp
    ring
  have hminus : 1 / (1 - 1 / (2 * n + 1)) = (2 * n + 1) / (2 * n) := by
    rw [one_sub_div (by linarith), one_div_div, add_sub_cancel_right]
  have htwo : 1 + 2 * (1 / n) = (n + 2) / n := by
    field_simp
  calc (1 + 1 / (2 * n + 1)) * (1 / (1 - 1 / (2 * n + 1))) * (1 + 1 / (2 * n + 1))
      = 2 * (n + 1) ^ 2 / (n * (2 * n + 1)) := by
        rw [hplus, hminus]
        field_simp
    _ ≤ (n + 2) / n := by
        rw [div_le_div_iff₀ (by positivity) hn]
        nlinarith [mul_pos hn hn]
    _ = 1 + 2 * (1 / n) := htwo.symm

/-- An exact number is brought to precision `p` with two units of error at most. -/
theorem near_toDecimal {p : Nat} (hp : 0 < p) (r : Rat) :
    Near (1 + 2 * (slack p - 1)) r ((exact r).toDecimal p).toRat := by
  have hinteger : ∀ z : Int, (Decimal.ofInteger z 0).toRat = z := by
    intro z
    rw [Decimal.ofInteger, Decimal.toRat_ofScaled, zpow_zero, mul_one]
  have hnum := near_withPrecision hp (Decimal.ofInteger r.num 0)
  have hden := near_withPrecision hp (Decimal.ofInteger r.den 0)
  rw [hinteger] at hnum hden
  show Near _ r (ratToDecimal r p).toRat
  unfold ratToDecimal
  split
  · next hwhole =>
    have hr : (r.num : Rat) = r := Rat.coe_int_num_of_den_eq_one hwhole
    rw [hr] at hnum
    have := Decimal.one_add_roundoff_le p
    exact hnum.mono (by linarith [one_lt_slack p])
  · have hd : ((Decimal.ofInteger r.den 0).withPrecision p).significand ≠ 0 :=
      Decimal.significand_withPrecision_ne_zero
        (Decimal.significand_ofScaled_ne_zero (Int.natCast_ne_zero.2 r.den_nz))
    have hquotient := near_div (a := (Decimal.ofInteger r.num 0).withPrecision p) hd hp
      (by rw [Decimal.precision_withPrecision]; omega)
    have hoperands := hnum.mul (hden.inv Decimal.roundoff_lt_one)
    rw [← div_eq_mul_inv, ← div_eq_mul_inv, Int.cast_natCast, Rat.num_div_den] at hoperands
    exact (hoperands.trans (by linarith [roundoff_pos p]) hquotient).mono quotient_factor_le

/-- Two units are no more than the errors of two operations. -/
theorem near_toDecimal_sq {p : Nat} (hp : 0 < p) (r : Rat) :
    Near (slack p ^ 2) r ((exact r).toDecimal p).toRat :=
  (near_toDecimal hp r).mono (by nlinarith [sq_nonneg (slack p - 1)])

end Number

end Reckoner
