import Reckoner.Proofs.Decimal.Compare
import Reckoner.Proofs.Decimal.Near
import Reckoner.Proofs.Number.Neutral

/-!
# Exact numbers as decimals

An exact number that becomes an approximate one is off by two units in the last of the digits it
keeps at most (`toApprox_of_exact`), however large or small it is and however few the digits are.

Approximate equality allows for more. The numbers it compares are brought to working precision,
subtracted, and the difference is compared with a multiple of the larger one, where each step adds
an error of its own. If both sides are near one number by less than a third of the default
tolerance, the errors do not matter (`equals_of_near`). This is so for an exact number and the
decimal it becomes with 14 digits or more.
-/

namespace Reckoner

namespace Decimal

variable {d : Decimal}

@[simp]
theorem toRat_abs (d : Decimal) : d.abs.toRat = |d.toRat| := by
  unfold abs
  split
  · next hneg => rw [toRat_neg, abs_of_neg (toRat_neg_iff.2 (of_decide_eq_true hneg))]
  · next hneg =>
    have hnonneg : ¬ d.toRat < 0 := fun h => hneg (decide_eq_true (toRat_neg_iff.1 h))
    rw [abs_of_nonneg (not_lt.1 hnonneg)]

@[simp]
theorem precision_abs (d : Decimal) : d.abs.precision = d.precision := by
  unfold abs
  split
  · exact precision_neg d
  · rfl

end Decimal

namespace Number

open Decimal (slack toRat_abs toRat_neg precision_abs)

variable {x y : Number} {r : Rat}

/-! ## Equality of near numbers -/

/-- The default tolerance, with 12 digits. -/
def tolerance : Rat := 1 / 10 ^ 12

theorem toRat_tolerance : (Decimal.ofInteger 1 (-(12 : Nat))).toRat = tolerance := by
  rw [Decimal.ofInteger, Decimal.toRat_ofScaled, tolerance]
  norm_num

theorem slack_workingPrecision : slack workingPrecision = 1 + 1 / 10 ^ 49 := by
  rw [slack, workingPrecision]
  norm_num

theorem precision_working (x : Number) :
    workingPrecision ≤ (x.toDecimal workingPrecision).precision := by
  rw [precision_toDecimal]
  exact le_max_left _ _

/-- What is compared with the tolerance: the difference of two decimals near one number. -/
theorem abs_difference_le {a b : Decimal} (hprecision : workingPrecision ≤ b.precision)
    (ha : Near (1 + 3 / 10 * tolerance) r a.toRat) (hb : Near (1 + 3 / 10 * tolerance) r b.toRat) :
    |(a.sub b).toRat| ≤ 7 / 10 * tolerance * |r| := by
  have hrounding := Decimal.abs_add_sub_le_slack (a := a) (b := b.neg) (by decide) hprecision
  rw [toRat_neg, abs_neg, slack_workingPrecision, ← sub_eq_add_neg, ← Decimal.sub] at hrounding
  have htriangle := abs_sub_abs_le_abs_sub (a.sub b).toRat (a.toRat - b.toRat)
  have hdifference := ha.abs_sub_le_both hb
  have ha := ha.abs_le
  have hb := hb.abs_le
  rw [tolerance] at *
  linarith [abs_nonneg r]

/-- What it is compared with: the tolerance at the magnitude of one of them. -/
theorem le_tolerated {c : Decimal} (hprecision : workingPrecision ≤ c.precision)
    (hc : (1 - 3 / 10 * tolerance) * |r| ≤ c.toRat) :
    7 / 10 * tolerance * |r| ≤ (c.mul (Decimal.ofInteger 1 (-(12 : Nat)))).toRat := by
  have hr := abs_nonneg r
  have hnonneg : 0 ≤ c.toRat := by
    refine le_trans (mul_nonneg ?_ hr) hc
    norm_num [tolerance]
  have hmagnitude : |c.toRat * tolerance| = c.toRat * tolerance :=
    abs_of_nonneg (mul_nonneg hnonneg (by norm_num [tolerance]))
  have hproduct := Decimal.near_mul (b := Decimal.ofInteger 1 (-(12 : Nat))) (by decide) hprecision
  rw [toRat_tolerance, slack_workingPrecision, Near, hmagnitude] at hproduct
  have hlow := (abs_le.1 hproduct).1
  rw [tolerance] at *
  linarith

theorem tolerated {d c : Decimal} (hd : |d.toRat| ≤ 7 / 10 * tolerance * |r|)
    (hprecision : workingPrecision ≤ c.precision)
    (hc : (1 - 3 / 10 * tolerance) * |r| ≤ c.toRat) :
    (if c.isZero then d.abs.isZero
      else d.abs.compare (c.mul (Decimal.ofInteger 1 (-(12 : Nat)))) != .gt) = true := by
  split
  · next hzero =>
    have hr : |r| = 0 := by
      rw [Decimal.isZero_iff.1 hzero, tolerance] at hc
      linarith [abs_nonneg r]
    rw [hr, mul_zero] at hd
    rw [Decimal.isZero_iff, toRat_abs]
    exact le_antisymm hd (abs_nonneg _)
  · rw [bne_iff_ne, Decimal.compare_ne_gt_iff, toRat_abs]
    exact hd.trans (le_tolerated hprecision hc)

theorem equals_of_not_exact (hkind : ¬ (x.isExact ∧ y.isExact)) :
    x.equals y =
      let a := x.toDecimal workingPrecision
      let b := y.toDecimal workingPrecision
      let scale := if a.abs.compare b.abs == .gt then a.abs else b.abs
      if scale.isZero then (a.sub b).abs.isZero
      else (a.sub b).abs.compare (scale.mul (Decimal.ofInteger 1 (-(12 : Nat)))) != .gt := by
  cases x with
  | exact a =>
    cases y with
    | exact b => exact absurd ⟨rfl, rfl⟩ hkind
    | approx d => rfl
  | approx d => rfl

/-- Decimals near one number are equal within the default tolerance. -/
theorem equals_of_near (hkind : ¬ (x.isExact ∧ y.isExact))
    (hx : Near (1 + 3 / 10 * tolerance) r (x.toDecimal workingPrecision).toRat)
    (hy : Near (1 + 3 / 10 * tolerance) r (y.toDecimal workingPrecision).toRat) :
    x.equals y := by
  have hdifference := abs_difference_le (precision_working y) hx hy
  have hlower : ∀ {a : Decimal}, Near (1 + 3 / 10 * tolerance) r a.toRat →
      (1 - 3 / 10 * tolerance) * |r| ≤ a.abs.toRat := by
    intro a ha
    have := ha.le_abs
    rw [toRat_abs]
    linarith
  have hprecision : ∀ z : Number, workingPrecision ≤ (z.toDecimal workingPrecision).abs.precision :=
    fun z => (precision_working z).trans_eq (precision_abs _).symm
  rw [equals_of_not_exact hkind]
  apply tolerated hdifference
  · split
    · exact hprecision x
    · exact hprecision y
  · split
    · exact hlower hx
    · exact hlower hy

/-! ## Demotion -/

/-- An exact number brought to 14 digits is near it, also at working precision. -/
theorem near_working_toApprox {p : Nat} (hp : 14 ≤ p) (r : Rat) :
    Near (1 + 3 / 10 * tolerance) r
      (((exact r).toApprox p).toDecimal workingPrecision).toRat := by
  have hdigits : slack p - 1 ≤ 1 / 10 ^ 13 := by
    have hle := Decimal.zpow_one_sub_le hp
    rw [slack, add_sub_cancel_left]
    norm_num at hle ⊢
    exact hle
  -- Two units in the last place of 14 digits are a fifth of the tolerance.
  have hdemoted : Near (1 + 2 / 10 ^ 13) r ((exact r).toDecimal p).toRat :=
    (near_toDecimal (by omega) r).mono (by linarith)
  have hworking : Near (1 + 1 / 10 ^ 49) ((exact r).toDecimal p).toRat
      (((exact r).toDecimal p).withPrecision workingPrecision).toRat := by
    apply (Decimal.near_withPrecision (by decide) _).mono
    exact (Decimal.one_add_roundoff_le _).trans_eq slack_workingPrecision
  exact (hdemoted.trans (by norm_num) hworking).mono (by norm_num [tolerance])

theorem near_working_exact (r : Rat) :
    Near (1 + 3 / 10 * tolerance) r ((exact r).toDecimal workingPrecision).toRat := by
  apply (near_toDecimal (by decide) r).mono
  rw [slack_workingPrecision, tolerance]
  norm_num

/-- **Demotion to `p` digits is off by two units in the last of them at most.** With 14 digits or
more the result still is equal to the number it came from, on either side. -/
theorem toApprox_of_exact {p : Nat} (hp : 1 ≤ p) (r : Rat) :
    |((exact r).toApprox p).value - r| ≤ 2 * (10 : Rat) ^ (1 - p : Int) * |r| ∧
      (14 ≤ p →
        (exact r).equals ((exact r).toApprox p) ∧ ((exact r).toApprox p).equals (exact r)) := by
  refine ⟨?_, fun hp => ⟨?_, ?_⟩⟩
  · have hnear := near_toDecimal hp r
    rwa [slack, Near, add_sub_cancel_left, add_sub_cancel_left] at hnear
  · exact equals_of_near (fun h => Bool.false_ne_true h.2) (near_working_exact r)
      (near_working_toApprox hp r)
  · exact equals_of_near (fun h => Bool.false_ne_true h.1) (near_working_toApprox hp r)
      (near_working_exact r)

theorem toApprox_of_two_thirds :
    |((exact (2 / 3)).toApprox 14).value - 2 / 3| ≤ 2 * (10 : Rat) ^ (1 - 14 : Int) * |2 / 3| ∧
      (exact (2 / 3)).equals ((exact (2 / 3)).toApprox 14) ∧
      ((exact (2 / 3)).toApprox 14).equals (exact (2 / 3)) := by
  obtain ⟨herror, hequals⟩ := toApprox_of_exact (p := 14) (by decide) (2 / 3)
  exact ⟨by exact_mod_cast herror, hequals (by decide)⟩

end Number

end Reckoner
