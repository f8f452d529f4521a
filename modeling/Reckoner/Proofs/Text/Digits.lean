import Reckoner.Text.Digits

/-!
# Digit counts

A positive number of `k` digits lies between `10 ^ (k - 1)` and `10 ^ k`. A product has as many digits
as its factors together, or one less.
-/

namespace Reckoner.Text

theorem countDigits_ne_zero {n : Nat} (hn : n ≠ 0) : countDigits n ≠ 0 := by
  rw [countDigits, if_neg hn]
  omega

theorem lt_pow_countDigits (n : Nat) : n < 10 ^ countDigits n := by
  fun_induction countDigits n with
  | case1 => decide
  | case2 n hn ih =>
    rw [Nat.pow_succ]
    omega

theorem pow_countDigits_le {n : Nat} (hn : n ≠ 0) : 10 ^ (countDigits n - 1) ≤ n := by
  fun_induction countDigits n with
  | case1 => exact absurd rfl hn
  | case2 n hn ih =>
    rw [Nat.add_sub_cancel]
    by_cases hdiv : n / 10 = 0
    · rw [hdiv, countDigits, if_pos rfl]
      omega
    · obtain ⟨k, hk⟩ := Nat.exists_eq_succ_of_ne_zero (countDigits_ne_zero hdiv)
      have hle := ih hdiv
      rw [hk, Nat.succ_sub_one] at hle
      rw [hk, Nat.pow_succ]
      omega

/-- A bound between a power of ten and a power of two, for all exponents of the same ratio. -/
theorem pow_le_pow_of_ratio {a b m n : Nat} (hb : b ≠ 0) (h : 10 ^ a ≤ 2 ^ b)
    (hm : m * b ≤ a * n) : 10 ^ m ≤ 2 ^ n := by
  apply (Nat.pow_le_pow_iff_left hb).1
  calc (10 ^ m) ^ b = 10 ^ (m * b) := (Nat.pow_mul ..).symm
    _ ≤ 10 ^ (a * n) := Nat.pow_le_pow_right (by decide) hm
    _ = (10 ^ a) ^ n := Nat.pow_mul ..
    _ ≤ (2 ^ b) ^ n := Nat.pow_le_pow_left h _
    _ = (2 ^ n) ^ b := Nat.pow_right_comm ..

/-- The digits that the bit length promises are there. -/
theorem pow_sure_le {n : Nat} (hn : n ≠ 0) : 10 ^ (n.log2 * 301 / 1000) ≤ n := by
  refine Nat.le_trans ?_ (Nat.log2_self_le hn)
  have hratio : 10 ^ 301 ≤ 2 ^ 1000 := by decide +kernel
  exact pow_le_pow_of_ratio (by decide) hratio (by omega)

theorem lt_pow_digitCount (n : Nat) : n < 10 ^ digitCount n := by
  simp only [digitCount]
  rw [Nat.pow_add]
  generalize n.log2 * 301 / 1000 = sure
  have hpos : 0 < 10 ^ sure := Nat.pow_pos (by decide)
  calc n < 10 ^ sure * (n / 10 ^ sure + 1) := Nat.lt_mul_div_succ n hpos
    _ ≤ 10 ^ sure * 10 ^ countDigits (n / 10 ^ sure) :=
      Nat.mul_le_mul_left _ (lt_pow_countDigits _)

theorem pow_digitCount_le {n : Nat} (hn : n ≠ 0) : 10 ^ (digitCount n - 1) ≤ n := by
  have hsure := pow_sure_le hn
  simp only [digitCount]
  generalize n.log2 * 301 / 1000 = sure at hsure ⊢
  have hpos : 0 < 10 ^ sure := Nat.pow_pos (by decide)
  have hupper : n / 10 ^ sure ≠ 0 := Nat.div_ne_zero_iff.2 ⟨Nat.ne_of_gt hpos, hsure⟩
  obtain ⟨k, hk⟩ := Nat.exists_eq_succ_of_ne_zero (countDigits_ne_zero hupper)
  have hlower := pow_countDigits_le hupper
  rw [hk, Nat.succ_sub_one] at hlower
  calc 10 ^ (sure + countDigits (n / 10 ^ sure) - 1)
      = 10 ^ sure * 10 ^ k := by rw [hk, Nat.add_succ, Nat.succ_sub_one, Nat.pow_add]
    _ ≤ 10 ^ sure * (n / 10 ^ sure) := Nat.mul_le_mul_left _ hlower
    _ ≤ n := Nat.mul_div_le _ _

theorem digitCount_ne_zero {n : Nat} (hn : n ≠ 0) : digitCount n ≠ 0 := by
  intro hzero
  have hlt := lt_pow_digitCount n
  rw [hzero] at hlt
  omega

theorem digitCount_zero : digitCount 0 = 0 := by simp [digitCount, countDigits]

theorem digitCount_le_iff {n k : Nat} : digitCount n ≤ k ↔ n < 10 ^ k := by
  constructor
  · intro h
    exact Nat.lt_of_lt_of_le (lt_pow_digitCount n) (Nat.pow_le_pow_right (by decide) h)
  · intro h
    by_cases hn : n = 0
    · rw [hn, digitCount_zero]
      exact Nat.zero_le k
    · have hlt := Nat.lt_of_le_of_lt (pow_digitCount_le hn) h
      have hexponent := (Nat.pow_lt_pow_iff_right (by decide)).1 hlt
      omega

theorem lt_digitCount_iff {n k : Nat} : k < digitCount n ↔ 10 ^ k ≤ n := by
  rw [← Nat.not_le, digitCount_le_iff, Nat.not_lt]

theorem digitCount_mul_le (a b : Nat) : digitCount (a * b) ≤ digitCount a + digitCount b := by
  rw [digitCount_le_iff, Nat.pow_add]
  exact Nat.mul_lt_mul'' (lt_pow_digitCount a) (lt_pow_digitCount b)

theorem le_digitCount_mul {a b : Nat} (ha : a ≠ 0) (hb : b ≠ 0) :
    digitCount a + digitCount b ≤ digitCount (a * b) + 1 := by
  have hlt : digitCount a - 1 + (digitCount b - 1) < digitCount (a * b) := by
    rw [lt_digitCount_iff, Nat.pow_add]
    exact Nat.mul_le_mul (pow_digitCount_le ha) (pow_digitCount_le hb)
  omega

/-- Trailing zeros count as digits. -/
theorem digitCount_mul_pow {n : Nat} (hn : n ≠ 0) (k : Nat) :
    digitCount (n * 10 ^ k) = digitCount n + k := by
  apply Nat.le_antisymm
  · rw [digitCount_le_iff, Nat.pow_add]
    exact Nat.mul_lt_mul_of_pos_right (lt_pow_digitCount n) (Nat.pow_pos (by decide))
  · have hlt : digitCount n - 1 + k < digitCount (n * 10 ^ k) := by
      rw [lt_digitCount_iff, Nat.pow_add]
      exact Nat.mul_le_mul_right _ (pow_digitCount_le hn)
    have := digitCount_ne_zero hn
    omega

end Reckoner.Text
