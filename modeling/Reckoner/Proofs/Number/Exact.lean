import Reckoner.Number.Functions
import Mathlib.Algebra.Field.Rat
import Mathlib.Algebra.GroupWithZero.Basic

/-!
# Exact numbers

Arithmetic on exact numbers is arithmetic on rationals, and a result is exact only if nothing on the
way to it was rounded: an exact sum or product has exact operands, a number within its limits stays
exact only if it stays what it is.
-/

namespace Reckoner.Number

variable {x y z : Number} {s : Settings} {a b r : Rat}

theorem isExact_iff : x.isExact ↔ ∃ r, x = exact r := by
  cases x with
  | exact r => exact ⟨fun _ => ⟨r, rfl⟩, fun _ => rfl⟩
  | approx d => simp [isExact]

@[simp]
theorem exact_add (a b : Rat) : (exact a).add (exact b) = exact (a + b) := rfl

@[simp]
theorem exact_sub (a b : Rat) : (exact a).sub (exact b) = exact (a - b) := rfl

@[simp]
theorem exact_mul (a b : Rat) : (exact a).mul (exact b) = exact (a * b) := rfl

theorem exact_add_zero (r : Rat) : (exact r).add (ofInt 0) = exact r := by
  rw [ofInt, exact_add]
  exact congrArg exact (Rat.add_zero r)

theorem exact_div (a : Rat) (hb : b ≠ 0) : (exact a).div (exact b) = .ok (exact (a / b)) := by
  have hzero : (exact b).isZero = false := beq_false_of_ne hb
  rw [div, hzero]
  rfl

theorem div_eq_ok (h : x.div y = .ok z) :
    y.isZero = false ∧ z = lift₂ (· / ·) Decimal.div x y := by
  unfold div at h
  split at h
  · cases h
  · next hzero =>
    cases h
    exact ⟨Bool.eq_false_iff.2 hzero, rfl⟩

theorem isExact_lift₂ {onRat : Rat → Rat → Rat} {onDecimal : Decimal → Decimal → Decimal}
    (hx : x.isExact) (hy : y.isExact) : (lift₂ onRat onDecimal x y).isExact := by
  obtain ⟨a, rfl⟩ := isExact_iff.1 hx
  obtain ⟨b, rfl⟩ := isExact_iff.1 hy
  rfl

theorem isExact_mul (hx : x.isExact) (hy : y.isExact) : (x.mul y).isExact := isExact_lift₂ hx hy

theorem isExact_div (hx : x.isExact) (hy : y.isExact) (h : x.div y = .ok z) : z.isExact := by
  rw [(div_eq_ok h).2]
  exact isExact_lift₂ hx hy

/-- The result of an operation is exact only on exact operands. -/
theorem lift₂_eq_exact {onRat : Rat → Rat → Rat} {onDecimal : Decimal → Decimal → Decimal}
    (h : lift₂ onRat onDecimal x y = exact r) :
    ∃ a b, x = exact a ∧ y = exact b ∧ onRat a b = r := by
  cases x with
  | approx d => cases h
  | exact a =>
    cases y with
    | approx d => cases h
    | exact b =>
      cases h
      exact ⟨a, b, rfl, rfl, rfl⟩

/-- Keeping a number within the limits changes it only by making it approximate. -/
theorem withinLimits_cases (h : x.withinLimits s = .ok y) :
    y = x ∨ y = x.toApprox s.precision := by
  unfold withinLimits at h
  split at h
  · cases x with
    | approx d =>
      cases h
      exact .inl rfl
    | exact a =>
      simp only [Except.ok.injEq] at h
      split at h
      · exact .inr h.symm
      · exact .inl h.symm
  · cases h

theorem withinLimits_eq_exact (h : x.withinLimits s = .ok (exact r)) : x = exact r := by
  rcases withinLimits_cases h with h | h
  · exact h.symm
  · cases h

/-! ## Powers -/

/-- What an exact power can be. The zeroth power is 1 and a positive power of a zero is 0 whatever
the base was before it was rounded; any other exact power is the power of an exact base. -/
inductive ExactPower : Number → Int → Rat → Prop where
  | zeroth (x : Number) : ExactPower x 0 1
  | ofZero {x : Number} {n : Int} (hx : x.isZero) (hn : 0 < n) : ExactPower x n 0
  | ofExact {b : Rat} (hb : b ≠ 0) (n : Int) : ExactPower (exact b) n (b ^ n)

theorem exactPower_of_powInt {n : Int} (h : x.powInt n s = .ok (exact r)) : ExactPower x n r := by
  unfold powInt at h
  split at h
  · next hn =>
    cases h
    rw [hn]
    exact .zeroth x
  · next hn =>
    split at h
    · next hzero =>
      split at h
      · cases h
      · next hnegative =>
        cases h
        exact .ofZero hzero (by omega)
    · next hzero =>
      cases x with
      | approx d => cases h
      | exact b =>
        simp only at h
        split at h
        · cases h
        · split at h
          · cases h
          · cases h
            have hb : b ≠ 0 := fun hb => hzero (beq_iff_eq.2 hb)
            exact .ofExact hb n

/-- An exact power of an exact number is its power. -/
theorem powInt_eq_exact {e : Int} (h : (exact a).powInt e s = .ok (exact r)) : r = a ^ e := by
  cases exactPower_of_powInt h with
  | zeroth => exact (zpow_zero a).symm
  | ofZero hx hn =>
    have ha : a = 0 := of_decide_eq_true hx
    rw [ha, zero_zpow e (by omega)]
  | ofExact => rfl

/-- A power of a number other than 0 is exact only for an exact base, the zeroth power apart. -/
theorem exact_of_powInt {e : Int} (hx : x.isZero = false) (h : x.powInt e s = .ok (exact r)) :
    e = 0 ∨ ∃ a, x = exact a := by
  cases exactPower_of_powInt h with
  | zeroth => exact .inl rfl
  | ofZero hzero =>
    rw [hx] at hzero
    cases hzero
  | ofExact => exact .inr ⟨_, rfl⟩

/-- A number other than 0 has all powers with exponents of 32 bits. -/
theorem exists_powInt {e : Int} (hx : x.isZero = false) (he : e.natAbs < 2 ^ 32) (s : Settings) :
    ∃ y, x.powInt e s = .ok y := by
  unfold powInt
  split
  · exact ⟨_, rfl⟩
  · simp only [hx, Bool.false_eq_true, if_false]
    cases x with
    | approx d => exact ⟨_, rfl⟩
    | exact r =>
      simp only [if_neg (Nat.not_le.2 he)]
      split <;> exact ⟨_, rfl⟩

/-- A power of an exact number is exact if it does not need too many bits. -/
theorem isExact_powInt {e : Int} (hbits : powerBits a e ≤ s.maxExactBits)
    (h : (exact a).powInt e s = .ok y) : y.isExact := by
  unfold powInt at h
  split at h
  · cases h
    rfl
  · split at h
    · split at h
      · cases h
      · cases h
        rfl
    · simp only [if_neg (Nat.not_lt.2 hbits)] at h
      split at h
      · cases h
      · cases h
        rfl

/-! ## Comparisons -/

/-- Exact numbers equal within a tolerance are equal. -/
theorem equals_exact (h : (exact a).equals (exact b)) : a = b := of_decide_eq_true h

theorem isOne_exact (h : (exact a).isOne) : a = 1 := of_decide_eq_true h

theorem isInteger_ofInt (n : Int) : (ofInt n).isInteger := by
  rw [ofInt, isInteger]
  exact beq_self_eq_true _

/-- A 64-bit integer read from an exact integer is that integer. -/
theorem toInt64?_ofInt {e n : Int} (h : (ofInt e).toInt64? = some n) : n = e := by
  unfold toInt64? at h
  split at h
  · cases h
  · obtain ⟨hn, -⟩ := Option.filter_eq_some_iff.1 h
    simp only [ofInt, toRat?, Option.map_some, Option.some.injEq] at hn
    rw [← hn]
    exact Rat.floor_intCast e

end Reckoner.Number
