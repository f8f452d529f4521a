import Reckoner.Proofs.Number.Significant

/-!
# Rounding is symmetric

Rounding goes by magnitudes, so that a number and its negative are rounded to a number and its
negative. That holds of the decimals that products are rounded to (`Number.neg_mul`), and of the
integer that is nearest to a rational (`Number.roundRat_neg`), which is never farther away than one
half (`Number.abs_roundRat_sub_le`).
-/

namespace Reckoner

namespace Decimal

variable {a b d : Decimal} {s e : Int} {p : Nat}

@[simp]
theorem significand_neg (d : Decimal) : d.neg.significand = -d.significand := rfl

@[simp]
theorem exponent_neg (d : Decimal) : d.neg.exponent = d.exponent := rfl

@[simp]
theorem precision_neg (d : Decimal) : d.neg.precision = d.precision := rfl

theorem ofScaled_neg (s e : Int) (p : Nat) : ofScaled (-s) e p = (ofScaled s e p).neg := by
  unfold ofScaled
  by_cases hs : s = 0
  · subst hs
    rfl
  · have hneg : -s ≠ 0 := Int.neg_ne_zero.2 hs
    rw [dif_neg hs, dif_neg hneg]
    simp only [neg, Int.natAbs_neg, Int.sign_neg, Int.neg_mul]

theorem rounded_neg (p : Nat) (s e : Int) : rounded p (-s) e = (rounded p s e).neg := by
  simp only [rounded, Int.natAbs_neg, Int.sign_neg, Int.neg_mul, ofScaled_neg]
  split <;> rfl

theorem withPrecision_neg (d : Decimal) (p : Nat) :
    d.neg.withPrecision p = (d.withPrecision p).neg := by
  simp only [withPrecision, significand_neg, exponent_neg, precision_neg, rounded_neg]
  split <;> rfl

theorem neg_mul (a b : Decimal) : a.neg.mul b = (a.mul b).neg := by
  simp only [mul, significand_neg, exponent_neg, precision_neg, Int.neg_mul, rounded_neg]

theorem neg_div (a b : Decimal) : a.neg.div b = (a.div b).neg := by
  simp only [div, significand_neg, exponent_neg, precision_neg, Int.natAbs_neg, Int.sign_neg,
    Int.neg_mul, ofScaled_neg]
  split <;> rfl

theorem isZero_withPrecision (d : Decimal) (p : Nat) : (d.withPrecision p).isZero = d.isZero := by
  have hsign : (d.withPrecision p).significand.sign = d.significand.sign := sign_withPrecision
  rw [Bool.eq_iff_iff, isZero, isZero, beq_iff_eq, beq_iff_eq, ← Int.sign_eq_zero_iff_zero, hsign,
    Int.sign_eq_zero_iff_zero]

/-- A sum with zero is the other operand, in the larger precision. -/
theorem neg_add_of_isZero (a : Decimal) {b : Decimal} (hb : b.isZero = true) :
    a.neg.add b = (a.add b).neg := by
  have hzero : a.neg.isZero = a.isZero := by simp [isZero]
  have hb0 : b.significand = 0 := by simpa [isZero] using hb
  simp only [add, precision_neg, hzero, hb]
  split
  · simp [neg, hb0]
  · rfl

theorem toRat_neg (d : Decimal) : d.neg.toRat = -d.toRat := by
  rw [toRat, toRat, significand_neg, exponent_neg, Int.cast_neg, Rat.neg_mul]

end Decimal

namespace Number

variable {x y : Number} {r : Rat}

theorem ratToDecimal_neg (r : Rat) (p : Nat) : ratToDecimal (-r) p = (ratToDecimal r p).neg := by
  have hnum : Decimal.ofInteger (-r.num) 0 = (Decimal.ofInteger r.num 0).neg := by
    simp only [Decimal.ofInteger, Int.natAbs_neg, Decimal.ofScaled_neg]
  simp only [ratToDecimal, Rat.neg_num, Rat.neg_den, hnum, Decimal.withPrecision_neg,
    Decimal.neg_div]
  split <;> rfl

theorem toDecimal_neg (x : Number) (p : Nat) : x.neg.toDecimal p = (x.toDecimal p).neg := by
  cases x with
  | exact r => exact ratToDecimal_neg r p
  | approx d => exact d.withPrecision_neg p

/-- An operation that commutes with negation does so on numbers of either kind. -/
theorem neg_lift₂ {onRat : Rat → Rat → Rat} {onDecimal : Decimal → Decimal → Decimal}
    (x y : Number) (hrat : ∀ a, onRat (-a) y.value = -onRat a y.value)
    (hdecimal : ∀ d, onDecimal d.neg (y.toDecimal workingPrecision) =
      (onDecimal d (y.toDecimal workingPrecision)).neg) :
    lift₂ onRat onDecimal x.neg y = (lift₂ onRat onDecimal x y).neg := by
  -- Unless both numbers are exact, the operation is one of decimals.
  have happrox : approx (onDecimal (x.neg.toDecimal workingPrecision)
      (y.toDecimal workingPrecision)) = (approx (onDecimal (x.toDecimal workingPrecision)
      (y.toDecimal workingPrecision))).neg := by
    rw [toDecimal_neg, hdecimal]
    rfl
  cases x with
  | approx d => exact happrox
  | exact a =>
    cases y with
    | approx d => exact happrox
    | exact b => exact congrArg exact (hrat a)

theorem neg_mul (x y : Number) : x.neg.mul y = (x.mul y).neg :=
  neg_lift₂ x y (fun _ => Rat.neg_mul ..) fun d => d.neg_mul _

/-- A zero of either kind is zero as a decimal. -/
theorem isZero_toDecimal (hx : x.isZero = true) (p : Nat) : (x.toDecimal p).isZero = true := by
  cases x with
  | exact r =>
    obtain rfl : r = 0 := of_decide_eq_true hx
    show ((Decimal.ofInteger 0 0).withPrecision p).isZero = true
    rw [Decimal.isZero_withPrecision]
    rfl
  | approx d => rw [toDecimal, Decimal.isZero_withPrecision]; exact hx

theorem value_eq_zero (hx : x.isZero = true) : x.value = 0 := by
  cases x with
  | exact r => exact of_decide_eq_true hx
  | approx d =>
    have hd : d.significand = 0 := by simpa [isZero, Decimal.isZero] using hx
    rw [value, Decimal.toRat, hd, Int.cast_zero, zero_mul]

/-- Zero is added to a number and to its negative alike. -/
theorem neg_add_of_isZero (x : Number) (hy : y.isZero = true) : x.neg.add y = (x.add y).neg := by
  refine neg_lift₂ x y (fun a => ?_) fun d => d.neg_add_of_isZero (isZero_toDecimal hy _)
  rw [value_eq_zero hy, Rat.add_zero, Rat.add_zero]

theorem isInteger_neg (x : Number) : x.neg.isInteger = x.isInteger := by
  cases x with
  | exact r => simp [neg, isInteger]
  | approx d => rfl

theorem toRat?_neg (x : Number) : x.neg.toRat? = x.toRat?.map (- ·) := by
  cases x with
  | exact r => rfl
  | approx d =>
    simp only [neg, toRat?, Decimal.exponent_neg, Decimal.toRat_neg]
    split <;> rfl

theorem value_of_toRat? (h : x.toRat? = some r) : x.value = r := by
  cases x with
  | exact q => exact Option.some.inj h
  | approx d =>
    simp only [toRat?] at h
    split at h
    · exact Option.some.inj h
    · cases h

/-! ## The nearest integer -/

theorem roundRat_neg (r : Rat) : roundRat (-r) = -roundRat r := by
  rw [roundRat, roundRat, Rat.neg_num, Rat.neg_den, Int.natAbs_neg, Int.sign_neg, Int.neg_mul]

theorem roundRat_of_nonneg (h : 0 ≤ r) : roundRat r = ⌊r + 1 / 2⌋ := by
  have hden : (r.den : Rat) ≠ 0 := Nat.cast_ne_zero.2 r.den_nz
  have hvalue : (r.num.natAbs : Rat) / r.den = r := by
    rw [cast_natAbs_num, abs_of_nonneg h, mul_div_cancel_right₀ _ hden]
  have hfloor : (roundQuotient r.num.natAbs r.den : Int) = ⌊r + 1 / 2⌋ := by
    rw [roundQuotient_eq_floor r.den_pos, hvalue, Int.natCast_floor_eq_floor (by linarith)]
  rcases h.eq_or_lt with rfl | hpos
  · norm_num [roundRat]
  · rw [roundRat, Int.sign_eq_one_of_pos (Rat.num_pos.2 hpos), Int.one_mul, hfloor]

/-- The nearest integer is not farther away than one half. -/
theorem abs_roundRat_sub_le (r : Rat) : |(roundRat r : Rat) - r| ≤ 1 / 2 := by
  have hnonneg : ∀ a : Rat, 0 ≤ a → |(roundRat a : Rat) - a| ≤ 1 / 2 := by
    intro a ha
    have hlow := Int.floor_le (a + 1 / 2)
    have hhigh := Int.lt_floor_add_one (a + 1 / 2)
    rw [roundRat_of_nonneg ha, abs_le]
    constructor <;> linarith
  rcases le_total 0 r with h | h
  · exact hnonneg r h
  · have hneg := hnonneg (-r) (by linarith)
    rw [roundRat_neg, Int.cast_neg, neg_sub_neg, abs_sub_comm] at hneg
    exact hneg

theorem roundRat_intCast (z : Int) : roundRat z = z := by
  have hclose := abs_roundRat_sub_le (z : Rat)
  have hlt : |roundRat z - z| < 1 := by
    rw [← Int.cast_lt (R := Rat), Int.cast_abs, Int.cast_sub, Int.cast_one]
    linarith
  have hzero := Int.abs_lt_one_iff.1 hlt
  omega

end Number

end Reckoner
