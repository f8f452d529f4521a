import Reckoner.Proofs.Number.Exact
import Reckoner.Proofs.Text.Digits

/-!
# Rounding does not lose a number

Decimals have no smallest magnitude: rounding keeps the leading digit and with it the sign
(`Decimal.sign_rounded`), so that products, quotients and powers of decimals other than zero are not
zero, however small they are. Quotients need some precision for this; every number turned into a
decimal has some (`Number.toDecimal_precision`).
-/

namespace Reckoner

theorem roundQuotient_le_of_le_mul {n d k : Nat} (hd : 0 < d) (h : n ≤ k * d) :
    roundQuotient n d ≤ k := by
  rw [← Nat.lt_succ_iff, roundQuotient, Nat.div_lt_iff_lt_mul (by omega)]
  calc 2 * n + d < 2 * (k * d) + 2 * d := by omega
    _ = (k + 1) * (2 * d) := by rw [Nat.add_mul, Nat.one_mul, Nat.mul_left_comm]

theorem le_roundQuotient {n d k : Nat} (hd : 0 < d) (h : k * d ≤ n) : k ≤ roundQuotient n d := by
  rw [roundQuotient, Nat.le_div_iff_mul_le (by omega), Nat.mul_left_comm]
  omega

theorem roundQuotient_ne_zero {n d : Nat} (hd : 0 < d) (h : d ≤ n) : roundQuotient n d ≠ 0 :=
  Nat.one_le_iff_ne_zero.1 (le_roundQuotient hd ((Nat.one_mul d).trans_le h))

namespace Decimal

variable {a b d : Decimal} {s e : Int} {p : Nat}

theorem isZero_eq_false_iff : d.isZero = false ↔ d.significand ≠ 0 := by
  simp [isZero]

/-- A positive multiple of a sign has that sign. -/
theorem sign_sign_mul (s : Int) {n : Nat} (hn : n ≠ 0) : (s.sign * (n : Int)).sign = s.sign := by
  rw [Int.sign_mul, Int.sign_sign, Int.sign_natCast_of_ne_zero hn, Int.mul_one]

theorem sign_ofScaled : (ofScaled s e p).significand.sign = s.sign := by
  unfold ofScaled
  by_cases hs : s = 0
  · rw [dif_pos hs, hs]
  · rw [dif_neg hs]
    exact sign_sign_mul s
      (stripFactor_fst_ne_zero (stripFactor_fst_ne_zero (Int.natAbs_ne_zero.2 hs)))

/-- The digits that are kept hold the leading one, so that rounding keeps the sign. -/
theorem sign_rounded : (rounded p s e).significand.sign = s.sign := by
  unfold rounded
  by_cases hs : s = 0
  · subst hs
    simp only [Int.sign_zero, Int.zero_mul]
    split <;> exact sign_ofScaled
  · have habs := Int.natAbs_ne_zero.2 hs
    simp only
    split
    · exact sign_ofScaled
    · next hround =>
      rw [sign_ofScaled]
      apply sign_sign_mul
      apply roundQuotient_ne_zero (Nat.pow_pos (by decide))
      exact Nat.le_trans (Nat.pow_le_pow_right (by decide) (by omega))
        (Text.pow_digitCount_le habs)

theorem sign_withPrecision : (d.withPrecision p).significand.sign = d.significand.sign := by
  simp only [withPrecision]
  split
  · exact sign_rounded
  · rfl

theorem ne_zero_of_sign_eq {m n : Int} (h : m.sign = n.sign) (hn : n ≠ 0) : m ≠ 0 := by
  rintro rfl
  exact hn (Int.sign_eq_zero_iff_zero.1 h.symm)

theorem sign_mul_ne_zero (hs : s ≠ 0) {n : Nat} (hn : n ≠ 0) : s.sign * (n : Int) ≠ 0 :=
  ne_zero_of_sign_eq (sign_sign_mul s hn) hs

theorem significand_ofScaled_ne_zero (hs : s ≠ 0) : (ofScaled s e p).significand ≠ 0 :=
  ne_zero_of_sign_eq sign_ofScaled hs

theorem significand_rounded_ne_zero (hs : s ≠ 0) : (rounded p s e).significand ≠ 0 :=
  ne_zero_of_sign_eq sign_rounded hs

theorem precision_ofScaled : (ofScaled s e p).precision = p := by
  unfold ofScaled
  split <;> rfl

theorem precision_rounded : (rounded p s e).precision = p := by
  simp only [rounded]
  split <;> exact precision_ofScaled

theorem precision_withPrecision : (d.withPrecision p).precision = max p 1 := by
  simp only [withPrecision]
  split
  · exact precision_rounded
  · rfl

theorem significand_withPrecision_ne_zero (hd : d.significand ≠ 0) :
    (d.withPrecision p).significand ≠ 0 :=
  ne_zero_of_sign_eq sign_withPrecision hd

theorem significand_mul_ne_zero (ha : a.significand ≠ 0) (hb : b.significand ≠ 0) :
    (a.mul b).significand ≠ 0 :=
  significand_rounded_ne_zero (Int.mul_ne_zero ha hb)

theorem significand_div_ne_zero (ha : a.significand ≠ 0) (hb : b.significand ≠ 0)
    (hp : 0 < a.precision ∨ 0 < b.precision) : (a.div b).significand ≠ 0 := by
  have hsign : a.significand.sign * b.significand.sign =
      (a.significand * b.significand).sign := (Int.sign_mul ..).symm
  have hab := Int.mul_ne_zero ha hb
  have hn := Int.natAbs_ne_zero.2 ha
  have hd := Int.natAbs_ne_zero.2 hb
  have hprec : 0 < max a.precision b.precision := by omega
  unfold div
  simp only [hsign]
  generalize a.significand.natAbs = n at *
  generalize b.significand.natAbs = d at *
  generalize max a.precision b.precision = p at *
  have hdpos : 0 < d := Nat.pos_of_ne_zero hd
  split
  · next hdvd =>
    apply significand_ofScaled_ne_zero
    apply sign_mul_ne_zero hab
    exact Nat.div_ne_zero_iff.2 ⟨hd, Nat.le_of_dvd (Nat.pos_of_ne_zero hn)
      (Nat.dvd_of_mod_eq_zero hdvd)⟩
  · apply significand_ofScaled_ne_zero
    apply sign_mul_ne_zero hab
    apply roundQuotient_ne_zero hdpos
    split
    · next hlt =>
      -- A smaller dividend is brought to more digits than the divisor has.
      rw [Nat.mod_eq_of_lt hlt]
      have hdigits := Text.digitCount_ne_zero hn
      calc d ≤ 10 ^ Text.digitCount d := Nat.le_of_lt (Text.lt_pow_digitCount d)
        _ ≤ 10 ^ (Text.digitCount n - 1 + (Text.digitCount d + p - Text.digitCount n)) :=
          Nat.pow_le_pow_right (by decide) (by omega)
        _ = 10 ^ (Text.digitCount n - 1) * 10 ^ (Text.digitCount d + p - Text.digitCount n) :=
          Nat.pow_add ..
        _ ≤ n * 10 ^ (Text.digitCount d + p - Text.digitCount n) :=
          Nat.mul_le_mul_right _ (Text.pow_digitCount_le hn)
    · next hge =>
      exact Nat.le_trans (Nat.le_of_not_lt hge)
        (Nat.le_mul_of_pos_right _ (Nat.pow_pos (by decide)))

theorem precision_div : (a.div b).precision = max a.precision b.precision := by
  simp only [div]
  split <;> exact precision_ofScaled

end Decimal

namespace Number

open Decimal (significand_mul_ne_zero significand_div_ne_zero significand_withPrecision_ne_zero
  significand_ofScaled_ne_zero precision_withPrecision isZero_eq_false_iff)

variable {x y z : Number} {p : Nat}

theorem isZero_exact_eq_false {r : Rat} : (exact r).isZero = false ↔ r ≠ 0 := by
  simp [isZero]

/-- Every number turned into a decimal has some precision. -/
theorem toDecimal_precision (x : Number) (p : Nat) : 0 < (x.toDecimal p).precision := by
  cases x with
  | exact r =>
    simp only [toDecimal, ratToDecimal]
    split
    · rw [precision_withPrecision]
      omega
    · rw [Decimal.precision_div, precision_withPrecision]
      omega
  | approx d =>
    rw [toDecimal, precision_withPrecision]
    omega

theorem toDecimal_ne_zero (h : x.isZero = false) : (x.toDecimal p).significand ≠ 0 := by
  cases x with
  | exact r =>
    have hnum : r.num ≠ 0 := fun h0 => isZero_exact_eq_false.1 h (Rat.num_eq_zero.1 h0)
    have hden : (r.den : Int) ≠ 0 := Int.natCast_ne_zero.2 r.den_nz
    have hwhole : ∀ {n : Int}, n ≠ 0 →
        ((Decimal.ofInteger n 0).withPrecision p).significand ≠ 0 := fun hn =>
      significand_withPrecision_ne_zero (significand_ofScaled_ne_zero hn)
    simp only [toDecimal, ratToDecimal]
    split
    · exact hwhole hnum
    · apply significand_div_ne_zero (hwhole hnum) (hwhole hden)
      rw [precision_withPrecision]
      omega
  | approx d => exact significand_withPrecision_ne_zero (isZero_eq_false_iff.1 h)

/-- A whole number keeps its sign as a decimal. -/
theorem sign_toDecimal_ofInt (n : Int) (p : Nat) :
    ((ofInt n).toDecimal p).significand.sign = n.sign := by
  show (ratToDecimal n p).significand.sign = n.sign
  rw [ratToDecimal, if_pos (Rat.den_intCast n), Rat.num_intCast, Decimal.sign_withPrecision]
  exact Decimal.sign_ofScaled

theorem isZero_toApprox (h : x.isZero = false) : (x.toApprox p).isZero = false :=
  isZero_eq_false_iff.2 (toDecimal_ne_zero h)

/-- An operation that makes nothing 0, neither of rationals nor of decimals with some precision,
makes nothing 0 of numbers. -/
theorem isZero_lift₂ {onRat : Rat → Rat → Rat} {onDecimal : Decimal → Decimal → Decimal}
    (hrat : ∀ a b, a ≠ 0 → b ≠ 0 → onRat a b ≠ 0)
    (hdecimal : ∀ a b : Decimal, 0 < a.precision → a.significand ≠ 0 → b.significand ≠ 0 →
      (onDecimal a b).significand ≠ 0)
    (hx : x.isZero = false) (hy : y.isZero = false) :
    (lift₂ onRat onDecimal x y).isZero = false := by
  have happrox : (onDecimal (x.toDecimal workingPrecision)
      (y.toDecimal workingPrecision)).isZero = false := by
    apply isZero_eq_false_iff.2
    exact hdecimal _ _ (toDecimal_precision ..) (toDecimal_ne_zero hx) (toDecimal_ne_zero hy)
  cases x with
  | approx d => exact happrox
  | exact a =>
    cases y with
    | approx d => exact happrox
    | exact b =>
      exact isZero_exact_eq_false.2
        (hrat a b (isZero_exact_eq_false.1 hx) (isZero_exact_eq_false.1 hy))

theorem isZero_mul (hx : x.isZero = false) (hy : y.isZero = false) : (x.mul y).isZero = false :=
  isZero_lift₂ (fun _ _ ha hb => mul_ne_zero ha hb)
    (fun _ _ _ ha hb => significand_mul_ne_zero ha hb) hx hy

theorem isZero_div (hx : x.isZero = false) (h : x.div y = .ok z) : z.isZero = false := by
  unfold div at h
  split at h
  · cases h
  · next hy =>
    cases h
    exact isZero_lift₂ (fun _ _ ha hb => div_ne_zero ha hb)
      (fun _ _ hp ha hb => significand_div_ne_zero ha hb (.inl hp)) hx (Bool.eq_false_iff.2 hy)

theorem squareAndMultiply_ne_zero {fuel n : Nat} {result square : Decimal}
    (hr : result.significand ≠ 0) (hs : square.significand ≠ 0) :
    (squareAndMultiply fuel n result square).significand ≠ 0 := by
  induction fuel generalizing n result square with
  | zero => exact hr
  | succ fuel ih =>
    rw [squareAndMultiply]
    split
    · exact hr
    · apply ih
      · split
        · exact significand_mul_ne_zero hr hs
        · exact hr
      · split
        · exact hs
        · exact significand_mul_ne_zero hs hs

theorem decimalPower_ne_zero {base : Decimal} {e : Int} (h : base.significand ≠ 0) :
    (decimalPower base e p).significand ≠ 0 := by
  have hunit : (Decimal.one.withPrecision p).significand ≠ 0 :=
    significand_withPrecision_ne_zero (significand_ofScaled_ne_zero (by decide))
  have hpower : (squareAndMultiply (bitCount e.natAbs) e.natAbs (Decimal.one.withPrecision p)
      base).significand ≠ 0 := squareAndMultiply_ne_zero hunit h
  simp only [decimalPower]
  split
  · apply significand_div_ne_zero hunit hpower
    rw [precision_withPrecision]
    omega
  · exact hpower

theorem isZero_powInt {e : Int} {s : Settings} (hx : x.isZero = false)
    (h : x.powInt e s = .ok z) : z.isZero = false := by
  have happrox : (decimalPower (x.toDecimal s.precision) e s.precision).isZero = false :=
    isZero_eq_false_iff.2 (decimalPower_ne_zero (toDecimal_ne_zero hx))
  unfold powInt at h
  rw [hx] at h
  split at h
  · cases h
    rfl
  · simp only [Bool.false_eq_true, if_false] at h
    cases x with
    | approx d =>
      cases h
      exact happrox
    | exact r =>
      simp only at h
      split at h
      · cases h
        exact happrox
      · split at h
        · cases h
        · cases h
          exact isZero_exact_eq_false.2 (zpow_ne_zero e (isZero_exact_eq_false.1 hx))

/-- A whole exponent that has been rounded keeps its sign, so that an exact power by it can only be
one that does not depend on the rounding. -/
theorem exactPower_of_powReal {n : Int} {p q : Nat} {r : Rat}
    (h : x.powReal ((ofInt n).toApprox q) p = .ok (exact r)) : ExactPower x n r := by
  have hsign : ((ofInt n).toDecimal q).significand.sign = n.sign := sign_toDecimal_ofInt n q
  -- Only the branches that return a literal number are exact, and they test nothing but signs.
  unfold powReal at h
  split at h
  · next hzero =>
    cases h
    have hn : n.sign = 0 := by
      rw [← hsign]
      exact Int.sign_eq_zero_iff_zero.2 (beq_iff_eq.1 hzero)
    rw [Int.sign_eq_zero_iff_zero.1 hn]
    exact .zeroth x
  · next hexponent =>
    split at h
    · next hzero =>
      split at h
      · cases h
      · next hnonneg =>
        cases h
        refine .ofZero hzero (Int.sign_eq_one_iff_pos.1 ?_)
        rw [← hsign]
        apply Int.sign_eq_one_iff_pos.2
        simp only [toApprox, isNegative, Decimal.isNegative, decide_eq_true_eq] at hnonneg
        simp only [toApprox, isZero, Decimal.isZero, beq_iff_eq] at hexponent
        omega
    · split at h <;> cases h

end Number

end Reckoner
