import Mathlib

/-!
# The series of sine and cosine

The terms of the two Taylor series at 0, over any field, and what their sums have to do with the
sine and the cosine of a real number: the distance is the first term left out at most
(`abs_sin_sub_sum_le`, `abs_cos_sub_sum_le`), and the magnitudes of the terms sum up to the
exponential of the argument at most.
-/

namespace Reckoner

open Finset
open scoped Nat

section Terms

variable {K : Type*} [Field K]

/-- A term of the sine series. -/
def sinTerm (x : K) (k : ℕ) : K := (-1) ^ k * x ^ (2 * k + 1) / (2 * k + 1)!

/-- A term of the cosine series. -/
def cosTerm (x : K) (k : ℕ) : K := (-1) ^ k * x ^ (2 * k) / (2 * k)!

variable [CharZero K]

/-- Each term is made from the one before. -/
theorem sinTerm_succ (x : K) (k : ℕ) :
    sinTerm x (k + 1) = -sinTerm x k * x ^ 2 / ((2 * (k + 1) * (2 * (k + 1) + 1) : ℕ) : K) := by
  have hfactorial : (2 * (k + 1) + 1)! = (2 * (k + 1) * (2 * (k + 1) + 1)) * (2 * k + 1)! := by
    rw [Nat.mul_add, Nat.factorial_succ, Nat.factorial_succ]
    ring
  rw [sinTerm, sinTerm, hfactorial, Nat.cast_mul]
  field_simp
  ring

theorem cosTerm_succ (x : K) (k : ℕ) :
    cosTerm x (k + 1) = -cosTerm x k * x ^ 2 / (((2 * (k + 1) - 1) * (2 * (k + 1)) : ℕ) : K) := by
  have hfactorial : (2 * (k + 1))! = ((2 * (k + 1) - 1) * (2 * (k + 1))) * (2 * k)! := by
    have hodd : 2 * (k + 1) - 1 = 2 * k + 1 := by omega
    rw [hodd, Nat.mul_add, Nat.factorial_succ, Nat.factorial_succ]
    ring
  rw [cosTerm, cosTerm, hfactorial, Nat.cast_mul]
  field_simp
  ring

end Terms

/-! ## The remainder -/

/-- A function that vanishes at 0 has the bound that the integral of a power gives. -/
theorem abs_le_pow_succ_div {f f' : ℝ → ℝ} {m : ℕ} (hf : ∀ x, HasDerivAt f (f' x) x)
    (hzero : f 0 = 0) (hbound : ∀ x, 0 ≤ x → |f' x| ≤ x ^ m / m !) {x : ℝ} (hx : 0 ≤ x) :
    |f x| ≤ x ^ (m + 1) / (m + 1)! := by
  have hpower : ∀ y : ℝ,
      HasDerivAt (fun y : ℝ => y ^ (m + 1) / ((m + 1)! : ℝ)) (y ^ m / (m ! : ℝ)) y := by
    intro y
    refine ((hasDerivAt_pow (m + 1) y).div_const ((m + 1)! : ℝ)).congr_deriv ?_
    rw [Nat.factorial_succ, Nat.add_sub_cancel]
    push_cast
    field_simp
  refine image_norm_le_of_norm_deriv_right_le_deriv_boundary (a := 0) (b := x)
    (fun y _ => (hf y).continuousAt.continuousWithinAt) (fun y _ => (hf y).hasDerivWithinAt) ?_
    hpower (fun y hy => hbound y hy.1) ⟨hx, le_rfl⟩
  simp [hzero]

theorem hasDerivAt_sum_sinTerm (n : ℕ) (x : ℝ) :
    HasDerivAt (fun x => ∑ k ∈ range n, sinTerm x k) (∑ k ∈ range n, cosTerm x k) x := by
  apply HasDerivAt.fun_sum
  intro k _
  have h := ((hasDerivAt_pow (2 * k + 1) x).const_mul ((-1 : ℝ) ^ k)).div_const ((2 * k + 1)! : ℝ)
  refine h.congr_deriv ?_
  rw [cosTerm, Nat.factorial_succ, Nat.add_sub_cancel]
  push_cast
  field_simp

theorem hasDerivAt_sum_cosTerm (n : ℕ) (x : ℝ) :
    HasDerivAt (fun x => ∑ k ∈ range (n + 1), cosTerm x k) (-∑ k ∈ range n, sinTerm x k) x := by
  have hfirst : ∀ y : ℝ, ∑ k ∈ range (n + 1), cosTerm y k =
      ∑ k ∈ range n, cosTerm y (k + 1) + 1 := by
    intro y
    rw [sum_range_succ']
    simp [cosTerm]
  simp only [hfirst, ← sum_neg_distrib]
  refine (HasDerivAt.fun_sum fun k _ => ?_).add_const 1
  have h := ((hasDerivAt_pow (2 * (k + 1)) x).const_mul ((-1 : ℝ) ^ (k + 1))).div_const
    ((2 * (k + 1))! : ℝ)
  refine h.congr_deriv ?_
  have hodd : 2 * (k + 1) - 1 = 2 * k + 1 := by omega
  rw [sinTerm, hodd, Nat.mul_add, Nat.factorial_succ]
  push_cast
  field_simp
  ring

theorem abs_sin_cos_sub_le_of_nonneg (n : ℕ) :
    (∀ x : ℝ, 0 ≤ x → |Real.cos x - ∑ k ∈ range n, cosTerm x k| ≤ x ^ (2 * n) / (2 * n)!) ∧
      ∀ x : ℝ, 0 ≤ x →
        |Real.sin x - ∑ k ∈ range n, sinTerm x k| ≤ x ^ (2 * n + 1) / (2 * n + 1)! := by
  have hsin : ∀ n : ℕ,
      (∀ x : ℝ, 0 ≤ x → |Real.cos x - ∑ k ∈ range n, cosTerm x k| ≤ x ^ (2 * n) / (2 * n)!) →
        ∀ x : ℝ, 0 ≤ x →
          |Real.sin x - ∑ k ∈ range n, sinTerm x k| ≤ x ^ (2 * n + 1) / (2 * n + 1)! :=
    fun n hcos x hx => abs_le_pow_succ_div
      (fun y => (Real.hasDerivAt_sin y).sub (hasDerivAt_sum_sinTerm n y))
      (by simp [sinTerm]) hcos hx
  -- The bound for the cosine gives that for the sine, which gives the next one for the cosine.
  induction n with
  | zero =>
    have hcos : ∀ x : ℝ, 0 ≤ x →
        |Real.cos x - ∑ k ∈ range 0, cosTerm x k| ≤ x ^ (2 * 0) / (2 * 0)! := by
      intro x _
      simpa using Real.abs_cos_le_one x
    exact ⟨hcos, hsin 0 hcos⟩
  | succ n ih =>
    have hcos : ∀ x : ℝ, 0 ≤ x →
        |Real.cos x - ∑ k ∈ range (n + 1), cosTerm x k| ≤ x ^ (2 * (n + 1)) / (2 * (n + 1))! := by
      intro x hx
      refine abs_le_pow_succ_div (m := 2 * n + 1)
        (fun y => (Real.hasDerivAt_cos y).sub (hasDerivAt_sum_cosTerm n y)) ?_ ?_ hx
      · simp [cosTerm, sum_range_succ']
      · intro y hy
        rw [sub_neg_eq_add, neg_add_eq_sub, abs_sub_comm]
        exact ih.2 y hy
    exact ⟨hcos, hsin (n + 1) hcos⟩

theorem sinTerm_neg (x : ℝ) (k : ℕ) : sinTerm (-x) k = -sinTerm x k := by
  rw [sinTerm, sinTerm, Odd.neg_pow ⟨k, rfl⟩]
  ring

theorem cosTerm_neg (x : ℝ) (k : ℕ) : cosTerm (-x) k = cosTerm x k := by
  rw [cosTerm, cosTerm, Even.neg_pow (even_two_mul k)]

/-- The distance of the sine to a sum of its series is the first term left out at most. -/
theorem abs_sin_sub_sum_le (x : ℝ) (n : ℕ) :
    |Real.sin x - ∑ k ∈ range n, sinTerm x k| ≤ |x| ^ (2 * n + 1) / (2 * n + 1)! := by
  obtain ⟨-, hsin⟩ := abs_sin_cos_sub_le_of_nonneg n
  rcases le_total 0 x with hx | hx
  · rw [abs_of_nonneg hx]
    exact hsin x hx
  · have h := hsin (-x) (neg_nonneg.2 hx)
    simp only [Real.sin_neg, sinTerm_neg, sum_neg_distrib, neg_sub_neg] at h
    rw [abs_of_nonpos hx, abs_sub_comm]
    exact h

theorem abs_cos_sub_sum_le (x : ℝ) (n : ℕ) :
    |Real.cos x - ∑ k ∈ range n, cosTerm x k| ≤ |x| ^ (2 * n) / (2 * n)! := by
  obtain ⟨hcos, -⟩ := abs_sin_cos_sub_le_of_nonneg n
  rcases le_total 0 x with hx | hx
  · rw [abs_of_nonneg hx]
    exact hcos x hx
  · have h := hcos (-x) (neg_nonneg.2 hx)
    simp only [Real.cos_neg, cosTerm_neg] at h
    rw [abs_of_nonpos hx]
    exact h

/-! ## The magnitudes of the terms -/

theorem abs_sinTerm (x : ℝ) (k : ℕ) : |sinTerm x k| = |x| ^ (2 * k + 1) / (2 * k + 1)! := by
  rw [sinTerm, abs_div, abs_mul, abs_pow, abs_neg, abs_one, one_pow, one_mul, abs_pow, Nat.abs_cast]

theorem abs_cosTerm (x : ℝ) (k : ℕ) : |cosTerm x k| = |x| ^ (2 * k) / (2 * k)! := by
  rw [cosTerm, abs_div, abs_mul, abs_pow, abs_neg, abs_one, one_pow, one_mul, abs_pow, Nat.abs_cast]

theorem sum_abs_sinTerm_le (x : ℝ) (n : ℕ) : ∑ k ∈ range n, |sinTerm x k| ≤ Real.exp |x| := by
  have hsum := sum_le_hasSum (range n) (fun k _ => by positivity) (Real.hasSum_sinh |x|)
  have hcosh := (Real.cosh_pos |x|).le
  rw [← Real.cosh_add_sinh]
  simp only [abs_sinTerm]
  linarith

theorem sum_abs_cosTerm_le (x : ℝ) (n : ℕ) : ∑ k ∈ range n, |cosTerm x k| ≤ Real.exp |x| := by
  have hsum := sum_le_hasSum (range n) (fun k _ => by positivity) (Real.hasSum_cosh |x|)
  have hsinh := Real.sinh_nonneg_iff.2 (abs_nonneg x)
  rw [← Real.cosh_add_sinh]
  simp only [abs_cosTerm]
  linarith

end Reckoner
