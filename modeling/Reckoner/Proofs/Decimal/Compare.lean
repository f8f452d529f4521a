import Reckoner.Proofs.Number.Whole
import Mathlib.Order.Compare

/-!
# Comparison of decimals

Decimals are compared without being brought to one exponent, as long as their signs or the places of
their leading digits differ. The answer is that of their values in any case:

    a.compare b = cmp a.toRat b.toRat

So tests of decimals are tests of values.
-/

namespace Reckoner

namespace Decimal

open Number (ten_zpow_mul ten_zpow_pos)

variable {a b : Decimal}

/-- Signs come in the order of the values. -/
theorem toRat_lt_of_sign_lt (h : a.significand.sign < b.significand.sign) :
    a.toRat < b.toRat := by
  rcases lt_trichotomy a.significand 0 with ha | ha | ha
  · have hb : 0 ≤ b.significand := by
      rw [Int.sign_eq_neg_one_of_neg ha] at h
      exact Int.sign_nonneg_iff.1 (by omega)
    have hb' : 0 ≤ b.toRat := not_lt.1 fun hneg => absurd (toRat_neg_iff.1 hneg) (by omega)
    exact (toRat_neg_iff.2 ha).trans_le hb'
  · have hb : 0 < b.significand := by
      rw [ha, Int.sign_zero] at h
      exact Int.sign_pos_iff.1 h
    rw [toRat, ha, Int.cast_zero, zero_mul]
    exact toRat_pos_iff.2 hb
  · -- No sign is larger than that of a positive number.
    rw [Int.sign_eq_one_of_pos ha] at h
    rcases lt_trichotomy b.significand 0 with hb | hb | hb
    · rw [Int.sign_eq_neg_one_of_neg hb] at h
      omega
    · rw [hb, Int.sign_zero] at h
      omega
    · rw [Int.sign_eq_one_of_pos hb] at h
      omega

/-- The magnitude with the leading digit at the higher place is the larger one. -/
theorem abs_toRat_lt_of_leadingExponent_lt (ha : a.significand ≠ 0) (hb : b.significand ≠ 0)
    (h : a.leadingExponent < b.leadingExponent) : |a.toRat| < |b.toRat| := by
  calc |a.toRat| < (10 : Rat) ^ (a.leadingExponent + 1) := (abs_toRat_bounds ha).2
    _ ≤ (10 : Rat) ^ b.leadingExponent := zpow_le_zpow_right₀ (by decide) h
    _ ≤ |b.toRat| := (abs_toRat_bounds hb).1

theorem cmp_eq_of_sign_ne (h : a.significand.sign ≠ b.significand.sign) :
    cmp a.toRat b.toRat = cmp a.significand.sign b.significand.sign := by
  rcases lt_or_gt_of_ne h with hlt | hgt
  · rw [(cmp_eq_lt_iff _ _).2 hlt, (cmp_eq_lt_iff _ _).2 (toRat_lt_of_sign_lt hlt)]
  · rw [(cmp_eq_gt_iff _ _).2 hgt, (cmp_eq_gt_iff _ _).2 (toRat_lt_of_sign_lt hgt)]

/-- Of two numbers with one sign the places of the leading digits are compared, the other way round
if they are negative. -/
theorem cmp_eq_of_leadingExponent_ne (ha : a.significand ≠ 0)
    (hsign : a.significand.sign = b.significand.sign)
    (h : a.leadingExponent ≠ b.leadingExponent) :
    cmp a.toRat b.toRat =
      if a.isNegative then (cmp a.leadingExponent b.leadingExponent).swap
      else cmp a.leadingExponent b.leadingExponent := by
  have hb : b.significand ≠ 0 := ne_zero_of_sign_eq hsign.symm ha
  have habs : cmp |a.toRat| |b.toRat| = cmp a.leadingExponent b.leadingExponent := by
    rcases lt_or_gt_of_ne h with hlt | hgt
    · have hvalue := abs_toRat_lt_of_leadingExponent_lt ha hb hlt
      rw [(cmp_eq_lt_iff _ _).2 hlt, (cmp_eq_lt_iff _ _).2 hvalue]
    · have hvalue := abs_toRat_lt_of_leadingExponent_lt hb ha hgt
      rw [(cmp_eq_gt_iff _ _).2 hgt, (cmp_eq_gt_iff _ _).2 hvalue]
  rw [← habs]
  split
  · next hneg =>
    have ha' : a.significand < 0 := of_decide_eq_true hneg
    have hb' : b.significand < 0 := by
      rw [Int.sign_eq_neg_one_of_neg ha'] at hsign
      exact Int.sign_eq_neg_one_iff_neg.1 hsign.symm
    rw [abs_of_neg (toRat_neg_iff.2 ha'), abs_of_neg (toRat_neg_iff.2 hb'), cmp_swap]
    have hneg : StrictAnti fun r : Rat => -r := fun _ _ => neg_lt_neg
    exact (hneg.cmp_map_eq _ _).symm
  · next hneg =>
    have ha' : 0 < a.significand := lt_of_le_of_ne (not_lt.1 (mt decide_eq_true hneg)) ha.symm
    have hb' : 0 < b.significand := by
      rw [Int.sign_eq_one_of_pos ha'] at hsign
      exact Int.sign_eq_one_iff_pos.1 hsign.symm
    rw [abs_of_pos (toRat_pos_iff.2 ha'), abs_of_pos (toRat_pos_iff.2 hb')]

/-- The significand at a lower exponent. -/
theorem toRat_eq_widened {e : Int} (h : e ≤ a.exponent) :
    a.toRat = ((a.significand * 10 ^ (a.exponent - e).toNat : Int) : Rat) * (10 : Rat) ^ e := by
  have hexponent : ((a.exponent - e).toNat : Int) + e = a.exponent := by omega
  rw [toRat, ← ten_zpow_mul hexponent, zpow_natCast]
  push_cast
  ring

theorem cmp_eq_of_widened {e : Int} (ha : e ≤ a.exponent) (hb : e ≤ b.exponent) :
    cmp a.toRat b.toRat =
      cmp (a.significand * 10 ^ (a.exponent - e).toNat)
        (b.significand * 10 ^ (b.exponent - e).toNat) := by
  have hscale : StrictMono fun m : Int => (m : Rat) * (10 : Rat) ^ e := fun m n h =>
    mul_lt_mul_of_pos_right (Int.cast_lt.2 h) (ten_zpow_pos e)
  rw [toRat_eq_widened ha, toRat_eq_widened hb]
  exact hscale.cmp_map_eq _ _

/-- **Decimals compare as their values do.** -/
theorem compare_eq_cmp (a b : Decimal) : a.compare b = cmp a.toRat b.toRat := by
  have hint : ∀ m n : Int, Ord.compare m n = cmp m n := fun m n => (cmp_eq_compare m n).symm
  unfold compare
  simp only [hint]
  split
  · next hsign => rw [cmp_eq_of_sign_ne hsign]
  · next hsign =>
    have hsign := not_not.1 hsign
    split
    · next hzero =>
      have ha : a.significand = 0 := beq_iff_eq.1 hzero
      have hb : b.significand = 0 := by
        rw [ha, Int.sign_zero] at hsign
        exact Int.sign_eq_zero_iff_zero.1 hsign.symm
      rw [toRat, toRat, ha, hb, Int.cast_zero, zero_mul, zero_mul, cmp_self_eq_eq]
    · next hzero =>
      have ha : a.significand ≠ 0 := fun ha => hzero (beq_iff_eq.2 ha)
      split
      · next hplace => rw [cmp_eq_of_leadingExponent_ne ha hsign hplace]
      · -- Only numbers of one magnitude are brought to one exponent.
        exact (cmp_eq_of_widened (min_le_left _ _) (min_le_right _ _)).symm

theorem compare_ne_gt_iff : a.compare b ≠ .gt ↔ a.toRat ≤ b.toRat := by
  rw [compare_eq_cmp, Ne, cmp_eq_gt_iff, not_lt]

theorem isZero_iff : a.isZero ↔ a.toRat = 0 := by
  rw [isZero, beq_iff_eq]
  exact not_iff_not.1 toRat_ne_zero_iff.symm

end Decimal

end Reckoner
