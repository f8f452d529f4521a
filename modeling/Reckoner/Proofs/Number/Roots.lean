import Reckoner.Number.Functions
import Mathlib.Algebra.Order.Ring.Abs
import Mathlib.Algebra.Order.Ring.Rat
import Mathlib.Data.Nat.Sqrt
import Mathlib.Data.Rat.Lemmas

/-!
# Exact square roots

A square root is exact whenever it can be: a rational that is the square of one has its root taken
from numerator and denominator apart (`ratSqrt?_eq_some_iff`). The two have no common factor, and
neither have their squares, so that a rational is a square only if both of them are.
-/

namespace Reckoner.Number

variable {r s : Rat}

/-- A root that is found from numerator and denominator squares to the rational. -/
theorem mul_self_of_ratSqrt? (hr : 0 ≤ r) (h : ratSqrt? r = some s) : 0 ≤ s ∧ s * s = r := by
  simp only [ratSqrt?, Option.ite_none_right_eq_some, Option.some.injEq] at h
  obtain ⟨⟨hnum, hden⟩, rfl⟩ := h
  have hsign : (r.num.natAbs : Int) = r.num := Int.natAbs_of_nonneg (Rat.num_nonneg.2 hr)
  refine ⟨Rat.mkRat_nonneg (Int.natCast_nonneg _) _, ?_⟩
  rw [Rat.mkRat_mul_mkRat, ← Int.natCast_mul, hnum, hden, hsign, Rat.mkRat_self]

/-- Numerator and denominator of a square are squares. -/
theorem ratSqrt?_mul_self (hs : 0 ≤ s) : ratSqrt? (s * s) = some s := by
  have hsign : (s.num.natAbs : Int) = s.num := Int.natAbs_of_nonneg (Rat.num_nonneg.2 hs)
  have hnum : (s * s).num.natAbs = s.num.natAbs * s.num.natAbs := by
    rw [Rat.mul_self_num, Int.natAbs_mul]
  simp only [ratSqrt?, hnum, Rat.mul_self_den, Nat.sqrt_eq, and_self, if_true, hsign,
    Rat.mkRat_self]

theorem ratSqrt?_eq_some_iff (hr : 0 ≤ r) : ratSqrt? r = some s ↔ 0 ≤ s ∧ s * s = r := by
  constructor
  · exact mul_self_of_ratSqrt? hr
  · rintro ⟨hs, rfl⟩
    exact ratSqrt?_mul_self hs

theorem sqrt_of_neg (hr : r < 0) (p : Nat) :
    (exact r).sqrt p = .error (.outsideDomain "square root of negative number") := by
  rw [sqrt, if_pos (by simpa [isNegative] using hr)]

/-- The root of a rational that is not negative is decided by `ratSqrt?`, that of 0 too. -/
theorem sqrt_of_nonneg (hr : 0 ≤ r) (p : Nat) :
    (exact r).sqrt p =
      match ratSqrt? r with
      | some root => .ok (exact root)
      | none => .ok (approx (ratToDecimal r p).sqrt) := by
  have hsign : (exact r).isNegative = false := by simpa [isNegative] using hr
  unfold sqrt
  simp only [hsign, Bool.false_eq_true, if_false]
  split
  · next hzero =>
    obtain rfl : r = 0 := of_decide_eq_true hzero
    rfl
  · rfl

/-- **Square roots are exact whenever they can be.** A negative rational has no root, the square of
a rational has that rational as its root, and any other has an approximate root. -/
theorem sqrt_exact_of_square (r : Rat) (p : Nat) :
    (r < 0 → (exact r).sqrt p =
      .error (.outsideDomain "square root of negative number")) ∧
    (∀ s : Rat, 0 ≤ s → s * s = r → (exact r).sqrt p = .ok (exact s)) ∧
    (0 ≤ r → (∀ s : Rat, s * s ≠ r) → ∃ d, (exact r).sqrt p = .ok (approx d)) := by
  refine ⟨fun hr => sqrt_of_neg hr p, fun s hs hsquare => ?_, fun hr hnone => ?_⟩
  · have hr : 0 ≤ r := hsquare ▸ mul_self_nonneg s
    rw [sqrt_of_nonneg hr, (ratSqrt?_eq_some_iff hr).2 ⟨hs, hsquare⟩]
  · cases hroot : ratSqrt? r with
    | some s => exact absurd ((ratSqrt?_eq_some_iff hr).1 hroot).2 (hnone s)
    | none => exact ⟨_, by rw [sqrt_of_nonneg hr, hroot]⟩

/-- The cases one by one: a negative number, a quotient of squares, and a number whose root is not
rational. -/
theorem sqrt_exact_of_nine_quarters :
    (exact (-1)).sqrt 50 = .error (.outsideDomain "square root of negative number") ∧
      (exact (9 / 4)).sqrt 50 = .ok (exact (3 / 2)) ∧
      ∃ d, (exact 2).sqrt 50 = .ok (approx d) := by
  refine ⟨(sqrt_exact_of_square (-1) 50).1 (by decide +kernel),
    (sqrt_exact_of_square (9 / 4) 50).2.1 (3 / 2) (by decide +kernel) (by decide +kernel),
    (sqrt_exact_of_square 2 50).2.2 (by decide +kernel) fun s hs => ?_⟩
  have hroot : ratSqrt? 2 = some |s| :=
    (ratSqrt?_eq_some_iff (by decide +kernel)).2 ⟨abs_nonneg s, (abs_mul_abs_self s).trans hs⟩
  have hnone : ratSqrt? 2 = none := by decide +kernel
  rw [hnone] at hroot
  cases hroot

end Reckoner.Number
