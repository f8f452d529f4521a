import Mathlib.Data.Nat.Size
import Mathlib.Data.Rat.Lemmas
import Reckoner.Proofs.Number.Nonzero

/-!
# The size of exact numbers

The settings limit the bits of the numerator and the denominator of an exact number
(`Number.IsCapped`). Keeping a number within the limits brings it under that cap; signs, absolute
values and rounding to whole numbers leave it there, and the exact values of the elementary
functions are 0 and 1, which need one bit.
-/

namespace Reckoner

theorem bitCount_le_iff {n k : Nat} : bitCount n ≤ k ↔ n < 2 ^ k := by
  unfold bitCount
  split
  · next hn =>
    subst hn
    exact iff_of_true (Nat.zero_le k) (Nat.two_pow_pos k)
  · next hn => rw [Nat.succ_le_iff, Nat.log2_lt hn]

theorem bitCount_eq_size (n : Nat) : bitCount n = n.size :=
  eq_of_forall_ge_iff fun _ => bitCount_le_iff.trans Nat.size_le.symm

theorem bitCount_mono {m n : Nat} (h : m ≤ n) : bitCount m ≤ bitCount n := by
  rw [bitCount_eq_size, bitCount_eq_size]
  exact Nat.size_le_size h

theorem lt_pow_bitCount (n : Nat) : n < 2 ^ bitCount n := bitCount_le_iff.1 (le_refl _)

theorem bitCount_mul_le (m n : Nat) : bitCount (m * n) ≤ bitCount m + bitCount n := by
  rw [bitCount_le_iff, pow_add]
  exact Nat.mul_lt_mul'' (lt_pow_bitCount m) (lt_pow_bitCount n)

theorem bitCount_pow_le (m : Nat) {k : Nat} (hk : k ≠ 0) :
    bitCount (m ^ k) ≤ k * bitCount m := by
  rw [bitCount_le_iff, Nat.mul_comm, pow_mul]
  exact Nat.pow_lt_pow_left (lt_pow_bitCount m) hk

theorem ratBits_le_iff {r : Rat} {k : Nat} :
    ratBits r ≤ k ↔ bitCount r.num.natAbs ≤ k ∧ bitCount r.den ≤ k := max_le_iff

theorem ratBits_neg (r : Rat) : ratBits (-r) = ratBits r := by
  rw [ratBits, Rat.num_neg_eq_neg_num, Int.natAbs_neg, Rat.den_neg_eq_den]
  rfl

theorem ratBits_abs (r : Rat) : ratBits r.abs = ratBits r := by
  unfold Rat.abs
  split
  · rfl
  · exact ratBits_neg r

theorem one_le_ratBits (r : Rat) : 1 ≤ ratBits r := by
  have hden : bitCount 1 ≤ bitCount r.den := bitCount_mono r.den_pos
  exact le_trans hden (le_max_right _ _)

/-- Reducing a fraction makes it no longer. -/
theorem ratBits_mul_le (a b : Rat) : ratBits (a * b) ≤ ratBits a + ratBits b := by
  have hnum : (a * b).num.natAbs ≤ a.num.natAbs * b.num.natAbs := by
    rw [Rat.mul_num, ← Int.natAbs_mul]
    exact Int.natAbs_ediv_le_natAbs _ _
  have hden : (a * b).den ≤ a.den * b.den :=
    Nat.le_of_dvd (Nat.mul_pos a.den_pos b.den_pos) (Rat.mul_den_dvd a b)
  apply ratBits_le_iff.2
  exact ⟨((bitCount_mono hnum).trans (bitCount_mul_le _ _)).trans
      (Nat.add_le_add (le_max_left _ _) (le_max_left _ _)),
    ((bitCount_mono hden).trans (bitCount_mul_le _ _)).trans
      (Nat.add_le_add (le_max_right _ _) (le_max_right _ _))⟩

/-- Numerator and denominator change places. -/
theorem ratBits_inv (r : Rat) : ratBits r⁻¹ = ratBits r := by
  by_cases hr : r = 0
  · rw [hr, Rat.inv_zero]
  · have hnum : r.num ≠ 0 := Rat.num_ne_zero.2 hr
    rw [ratBits, Rat.num_inv, Rat.den_inv, if_neg hnum, Int.natAbs_mul, Int.natAbs_natCast,
      Int.natAbs_sign_of_ne_zero hnum, Nat.one_mul, max_comm]
    rfl

theorem ratBits_div_le (a b : Rat) : ratBits (a / b) ≤ ratBits a + ratBits b := by
  rw [Rat.div_def]
  exact (ratBits_mul_le a b⁻¹).trans_eq (by rw [ratBits_inv])

theorem ratBits_pow_le (r : Rat) {k : Nat} (hk : k ≠ 0) : ratBits (r ^ k) ≤ k * ratBits r := by
  apply ratBits_le_iff.2
  rw [Rat.num_pow, Rat.den_pow, Int.natAbs_pow]
  exact ⟨(bitCount_pow_le _ hk).trans (Nat.mul_le_mul_left k (le_max_left _ _)),
    (bitCount_pow_le _ hk).trans (Nat.mul_le_mul_left k (le_max_right _ _))⟩

theorem ratBits_zpow_le (r : Rat) {n : Int} (hn : n ≠ 0) :
    ratBits (r ^ n) ≤ n.natAbs * ratBits r := by
  have hk := ratBits_pow_le r (Int.natAbs_ne_zero.2 hn)
  rcases n with k | k
  · exact hk
  · rw [zpow_negSucc, ratBits_inv]
    exact hk

/-- A whole number no larger than the numerator of a rational needs no more bits than that. -/
theorem ratBits_intCast_le {n : Int} {r : Rat} (h : n.natAbs ≤ r.num.natAbs) :
    ratBits n ≤ ratBits r := by
  rw [ratBits, Rat.num_intCast, Rat.den_intCast]
  exact max_le_max (bitCount_mono h) (bitCount_mono r.den_pos)

theorem natAbs_floor_le (r : Rat) : r.floor.natAbs ≤ r.num.natAbs := by
  rw [Rat.floor_def]
  exact Int.natAbs_ediv_le_natAbs _ _

theorem natAbs_ceil_le (r : Rat) : r.ceil.natAbs ≤ r.num.natAbs := by
  rw [Rat.ceil_eq_neg_floor_neg, Int.natAbs_neg]
  simpa using natAbs_floor_le (-r)

theorem natAbs_roundRat_le (r : Rat) : (Number.roundRat r).natAbs ≤ r.num.natAbs := by
  have hround : roundQuotient r.num.natAbs r.den ≤ r.num.natAbs :=
    roundQuotient_le_of_le_mul r.den_pos (Nat.le_mul_of_pos_right _ r.den_pos)
  rw [Number.roundRat, Int.natAbs_mul, Int.natAbs_natCast]
  calc r.num.sign.natAbs * roundQuotient r.num.natAbs r.den
      ≤ 1 * roundQuotient r.num.natAbs r.den := by
        apply Nat.mul_le_mul_right
        rw [Int.natAbs_sign]
        split <;> decide
    _ ≤ r.num.natAbs := by rwa [Nat.one_mul]

namespace Number

variable {x y : Number} {s : Settings} {p : Nat} {r : Rat}

/-- An exact number needs no more bits than the settings allow; one bit is always allowed. -/
def IsCapped (s : Settings) (x : Number) : Prop :=
  ∀ r, x = exact r → ratBits r ≤ max 1 s.maxExactBits

theorem isCapped_approx (d : Decimal) : (approx d).IsCapped s := by
  rintro r ⟨⟩

theorem isCapped_exact (h : ratBits r ≤ max 1 s.maxExactBits) : (exact r).IsCapped s := by
  rintro _ ⟨⟩
  exact h

theorem isCapped_zero : (ofInt 0).IsCapped s := isCapped_exact (le_max_left _ _)

theorem isCapped_one : (ofInt 1).IsCapped s := isCapped_exact (le_max_left _ _)

/-- **Keeping a number within the limits caps it.** -/
theorem isCapped_of_withinLimits (h : x.withinLimits s = .ok y) : y.IsCapped s := by
  unfold withinLimits at h
  split at h
  · cases x with
    | approx d =>
      cases h
      exact isCapped_approx d
    | exact r =>
      obtain rfl := Except.ok.inj h
      split
      · exact isCapped_approx _
      · next hbits => exact isCapped_exact (le_max_of_le_right (Nat.not_lt.1 hbits))
  · cases h

namespace IsCapped

variable (hx : x.IsCapped s)

include hx

theorem neg : x.neg.IsCapped s := by
  cases x with
  | approx d => exact isCapped_approx _
  | exact r => exact isCapped_exact ((ratBits_neg r).trans_le (hx r rfl))

theorem abs : x.abs.IsCapped s := by
  cases x with
  | approx d => exact isCapped_approx _
  | exact r => exact isCapped_exact ((ratBits_abs r).trans_le (hx r rfl))

theorem floor : x.floor.IsCapped s := by
  cases x with
  | approx d => exact isCapped_approx _
  | exact r => exact isCapped_exact ((ratBits_intCast_le (natAbs_floor_le r)).trans (hx r rfl))

theorem ceil : x.ceil.IsCapped s := by
  cases x with
  | approx d => exact isCapped_approx _
  | exact r => exact isCapped_exact ((ratBits_intCast_le (natAbs_ceil_le r)).trans (hx r rfl))

theorem round : x.round.IsCapped s := by
  cases x with
  | approx d => exact isCapped_approx _
  | exact r => exact isCapped_exact ((ratBits_intCast_le (natAbs_roundRat_le r)).trans (hx r rfl))

end IsCapped

/-! ## Elementary functions -/

theorem isCapped_ln (h : x.ln p = .ok y) : y.IsCapped s := by
  unfold ln at h
  split at h
  · cases h
  · split at h
    · cases h
      exact isCapped_zero
    · cases h
      exact isCapped_approx _

theorem isCapped_exp : (x.exp p).IsCapped s := by
  unfold exp
  split
  · exact isCapped_one
  · exact isCapped_approx _

theorem isCapped_sin : (x.sin p).IsCapped s := by
  unfold sin
  split
  · exact isCapped_zero
  · exact isCapped_approx _

theorem isCapped_cos : (x.cos p).IsCapped s := by
  unfold cos
  split
  · exact isCapped_one
  · exact isCapped_approx _

/-- A tangent is exact at 0 only, where the sine and the cosine are. -/
theorem isCapped_tan (h : x.tan p = .ok y) : y.IsCapped s := by
  unfold tan at h
  simp only at h
  split at h
  · cases h
  · obtain ⟨-, rfl⟩ := div_eq_ok h
    by_cases hx : x = ofInt 0
    · rw [sin, cos, if_pos hx, if_pos hx]
      have hzero : lift₂ (· / ·) Decimal.div (ofInt 0) (ofInt 1) = ofInt 0 := by decide +kernel
      rw [hzero]
      exact isCapped_zero
    · rw [sin, cos, if_neg hx, if_neg hx]
      exact isCapped_approx _

end Number

end Reckoner
