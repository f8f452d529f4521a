import Reckoner.Proofs.Number.Bits

/-!
# The magnitude of numbers

How far the leading digit of a decimal is away from the point is its magnitude, and every operation
moves that digit by little more than the operands ask for: rounding by one place, a product by two
and a quotient by one. Zero has its digit at the point.

The magnitude of an exact number is a bound by its bit counts, of which three make less than a
digit. With it, magnitudes add up under products and quotients, and multiply under powers, whichever
of the two kinds the numbers are (`Number.magnitude_mul`, `Number.magnitude_div`,
`Number.magnitude_powInt`). Whatever is of a magnitude within the range is in range
(`Number.checkRange_of_magnitude`).
-/

namespace Reckoner

open Text (digitCount digitCount_le_iff lt_digitCount_iff digitCount_ne_zero)

/-! ## Decimals -/

theorem stripFactor_mul_pow (b : Nat) (hb : 2 ≤ b) (n : Nat) :
    (stripFactor b hb n).1 * b ^ (stripFactor b hb n).2 = n := by
  fun_induction stripFactor b hb n with
  | case1 n h rest count hrec ih =>
    rw [hrec] at ih
    rw [Nat.pow_succ, ← Nat.mul_assoc, ih]
    exact Nat.div_mul_cancel (Nat.dvd_of_mod_eq_zero h.2)
  | case2 n h => exact Nat.mul_one n

theorem stripAll_mul_pow (b : Nat) (hb : 2 ≤ b) (n : Nat) :
    (stripAll b hb n).1 * b ^ (stripAll b hb n).2 = n := by
  have hblocks := stripFactor_mul_pow (b ^ 32) (two_le_pow_32 hb) n
  have hrest := stripFactor_mul_pow b hb (stripFactor (b ^ 32) (two_le_pow_32 hb) n).1
  simp only [stripAll]
  rw [Nat.add_comm, Nat.pow_add, ← Nat.mul_assoc, hrest, Nat.pow_mul, hblocks]

theorem stripZeros_mul_pow (n : Nat) : (stripZeros n).1 * 10 ^ (stripZeros n).2 = n :=
  stripAll_mul_pow 10 (by decide) n

namespace Decimal

variable {a b d : Decimal} {s e : Int} {p : Nat}

theorem leadingExponent_of_ne_zero (h : d.significand ≠ 0) :
    d.leadingExponent = d.exponent + d.digits - 1 := by
  have hdigits : d.digits ≠ 0 := digitCount_ne_zero (Int.natAbs_ne_zero.2 h)
  rw [leadingExponent]
  omega

theorem leadingExponent_of_zero (h : d.significand = 0) : d.leadingExponent = 0 := by
  have hdigits : d.digits = 0 := by rw [digits, h, Int.natAbs_zero, Text.digitCount_zero]
  have hexponent : d.exponent = 0 := by
    rcases d.normal with hnormal | hnormal
    · rw [h] at hnormal
      exact absurd rfl hnormal
    · exact hnormal.2
  rw [leadingExponent, hdigits, hexponent]
  rfl

/-- Trailing zeros go from the significand into the exponent. -/
theorem leadingExponent_ofScaled (hs : s ≠ 0) :
    (ofScaled s e p).leadingExponent = e + digitCount s.natAbs - 1 := by
  have habs : s.natAbs ≠ 0 := Int.natAbs_ne_zero.2 hs
  have hrest : (stripZeros s.natAbs).1 ≠ 0 :=
    stripFactor_fst_ne_zero (stripFactor_fst_ne_zero habs)
  have hsignificand : (ofScaled s e p).significand = s.sign * (stripZeros s.natAbs).1 := by
    rw [ofScaled, dif_neg hs]
  have hexponent : (ofScaled s e p).exponent = e + (stripZeros s.natAbs).2 := by
    rw [ofScaled, dif_neg hs]
  have hcount := Text.digitCount_mul_pow hrest (stripZeros s.natAbs).2
  rw [stripZeros_mul_pow] at hcount
  rw [leadingExponent_of_ne_zero (significand_ofScaled_ne_zero hs), digits, hsignificand, hexponent,
    Int.natAbs_mul, Int.natAbs_natCast, Int.natAbs_sign_of_ne_zero hs, Nat.one_mul, hcount]
  omega

/-- Rounding moves the leading digit by one place at most. -/
theorem leadingExponent_rounded (hs : s ≠ 0) :
    e + digitCount s.natAbs - 1 ≤ (rounded p s e).leadingExponent ∧
      (rounded p s e).leadingExponent ≤ e + digitCount s.natAbs := by
  have habs : s.natAbs ≠ 0 := Int.natAbs_ne_zero.2 hs
  simp only [rounded]
  split
  · rw [leadingExponent_ofScaled hs]
    omega
  · next hround =>
    -- The digits that are kept are `p`, or one more after a carry through all of them.
    have hpow : 0 < 10 ^ (digitCount s.natAbs - p) := Nat.pow_pos (by decide)
    have hlower : 10 ^ (p - 1) ≤ roundQuotient s.natAbs (10 ^ (digitCount s.natAbs - p)) := by
      apply le_roundQuotient hpow
      rw [← Nat.pow_add]
      exact Nat.le_trans (Nat.pow_le_pow_right (by decide) (by omega))
        (Text.pow_digitCount_le habs)
    have hupper : roundQuotient s.natAbs (10 ^ (digitCount s.natAbs - p)) ≤ 10 ^ p := by
      apply roundQuotient_le_of_le_mul hpow
      rw [← Nat.pow_add]
      exact Nat.le_trans (Nat.le_of_lt (Text.lt_pow_digitCount _))
        (Nat.pow_le_pow_right (by decide) (by omega))
    generalize roundQuotient s.natAbs (10 ^ (digitCount s.natAbs - p)) = m at hlower hupper ⊢
    have hm : m ≠ 0 := by
      have : 0 < 10 ^ (p - 1) := Nat.pow_pos (by decide)
      omega
    have hdigits : p - 1 < digitCount m ∧ digitCount m ≤ p + 1 := by
      refine ⟨lt_digitCount_iff.2 hlower, digitCount_le_iff.2 ?_⟩
      exact Nat.lt_of_le_of_lt hupper (Nat.pow_lt_pow_right (by decide) (Nat.lt_succ_self p))
    rw [leadingExponent_ofScaled (sign_mul_ne_zero hs hm), Int.natAbs_mul, Int.natAbs_natCast,
      Int.natAbs_sign_of_ne_zero hs, Nat.one_mul]
    omega

theorem leadingExponent_withPrecision (hd : d.significand ≠ 0) :
    d.leadingExponent ≤ (d.withPrecision p).leadingExponent ∧
      (d.withPrecision p).leadingExponent ≤ d.leadingExponent + 1 := by
  have hrounded := leadingExponent_rounded (p := max p 1) (e := d.exponent) hd
  rw [leadingExponent_of_ne_zero hd, digits]
  simp only [withPrecision]
  split
  · omega
  · have hsame : ({ d with precision := max p 1 } : Decimal).leadingExponent =
        d.exponent + digitCount d.significand.natAbs - 1 := leadingExponent_of_ne_zero hd
    omega

theorem leadingExponent_mul (ha : a.significand ≠ 0) (hb : b.significand ≠ 0) :
    a.leadingExponent + b.leadingExponent ≤ (a.mul b).leadingExponent ∧
      (a.mul b).leadingExponent ≤ a.leadingExponent + b.leadingExponent + 2 := by
  have hrounded := leadingExponent_rounded (p := max a.precision b.precision)
    (e := a.exponent + b.exponent) (Int.mul_ne_zero ha hb)
  have hle := Text.digitCount_mul_le a.significand.natAbs b.significand.natAbs
  have hge := Text.le_digitCount_mul (Int.natAbs_ne_zero.2 ha) (Int.natAbs_ne_zero.2 hb)
  rw [Int.natAbs_mul] at hrounded
  rw [leadingExponent_of_ne_zero ha, leadingExponent_of_ne_zero hb, digits, digits]
  unfold mul
  omega

/-- A rounded quotient other than 0 has as many digits as the difference, or up to two more. -/
theorem digitCount_roundQuotient {m d : Nat} (hd : d ≠ 0) (h : roundQuotient m d ≠ 0) :
    digitCount m ≤ digitCount (roundQuotient m d) + digitCount d ∧
      digitCount (roundQuotient m d) + digitCount d ≤ digitCount m + 2 := by
  have hdpos : 0 < d := Nat.pos_of_ne_zero hd
  have hdigits := Text.lt_pow_digitCount m
  constructor
  · rw [digitCount_le_iff, Nat.pow_add]
    have hlt : 2 * m + d < (roundQuotient m d + 1) * (2 * d) :=
      (Nat.div_lt_iff_lt_mul (by omega)).1 (Nat.lt_succ_self (roundQuotient m d))
    have hle : (roundQuotient m d + 1) * d ≤
        10 ^ digitCount (roundQuotient m d) * 10 ^ digitCount d :=
      Nat.mul_le_mul (Text.lt_pow_digitCount _) (Nat.le_of_lt (Text.lt_pow_digitCount d))
    rw [Nat.mul_left_comm] at hlt
    omega
  · -- What is rounded up to 1 at least is half of the divisor.
    have hhalf : d ≤ 2 * m := by
      by_contra hlt
      exact h (Nat.div_eq_of_lt (by omega))
    have hlength : digitCount d ≤ digitCount m + 1 := by
      rw [digitCount_le_iff, Nat.pow_succ]
      omega
    have hupper : roundQuotient m d ≤ 10 ^ (digitCount m + 1 - digitCount d) := by
      apply roundQuotient_le_of_le_mul hdpos
      calc m ≤ 10 ^ digitCount m := Nat.le_of_lt hdigits
        _ ≤ 10 ^ (digitCount m + 1 - digitCount d + (digitCount d - 1)) :=
          Nat.pow_le_pow_right (by decide) (by omega)
        _ = 10 ^ (digitCount m + 1 - digitCount d) * 10 ^ (digitCount d - 1) := Nat.pow_add ..
        _ ≤ 10 ^ (digitCount m + 1 - digitCount d) * d :=
          Nat.mul_le_mul_left _ (Text.pow_digitCount_le hd)
    have hcount : digitCount (roundQuotient m d) ≤ digitCount m + 1 - digitCount d + 1 := by
      rw [digitCount_le_iff]
      exact Nat.lt_of_le_of_lt hupper (Nat.pow_lt_pow_right (by decide) (Nat.lt_succ_self _))
    omega

theorem leadingExponent_div (ha : a.significand ≠ 0) (hb : b.significand ≠ 0)
    (hp : 0 < a.precision ∨ 0 < b.precision) :
    a.leadingExponent - b.leadingExponent - 1 ≤ (a.div b).leadingExponent ∧
      (a.div b).leadingExponent ≤ a.leadingExponent - b.leadingExponent + 1 := by
  have hne := significand_div_ne_zero ha hb hp
  have hn := Int.natAbs_ne_zero.2 ha
  have hd := Int.natAbs_ne_zero.2 hb
  have hsign : a.significand.sign * b.significand.sign =
      (a.significand * b.significand).sign := (Int.sign_mul ..).symm
  have hab := Int.mul_ne_zero ha hb
  rw [leadingExponent_of_ne_zero ha, leadingExponent_of_ne_zero hb, digits, digits]
  unfold div at hne ⊢
  simp only [hsign] at hne ⊢
  generalize a.significand.natAbs = n at *
  generalize b.significand.natAbs = d at *
  -- Either way the digits are those of a sign times a quotient other than 0.
  have hscaled : ∀ {r : Nat} {e : Int} {p : Nat}, r ≠ 0 →
      (ofScaled ((a.significand * b.significand).sign * (r : Int)) e p).leadingExponent =
        e + digitCount r - 1 := by
    intro r e p hr
    rw [leadingExponent_ofScaled (sign_mul_ne_zero hab hr), Int.natAbs_mul, Int.natAbs_natCast,
      Int.natAbs_sign_of_ne_zero hab, Nat.one_mul]
  have hnonzero : ∀ {r : Nat} {e : Int} {p : Nat},
      (ofScaled ((a.significand * b.significand).sign * (r : Int)) e p).significand ≠ 0 →
        r ≠ 0 := by
    rintro r e p h rfl
    rw [Int.natCast_zero, Int.mul_zero] at h
    exact h (Int.sign_eq_zero_iff_zero.1 sign_ofScaled)
  split
  · next hdvd =>
    rw [if_pos hdvd] at hne
    have hr := hnonzero hne
    have hproduct : n / d * d = n := Nat.div_mul_cancel (Nat.dvd_of_mod_eq_zero hdvd)
    have hle := Text.digitCount_mul_le (n / d) d
    have hge := Text.le_digitCount_mul hr hd
    rw [hproduct] at hle hge
    rw [hscaled hr]
    omega
  · next hdvd =>
    rw [if_neg hdvd] at hne
    have hr := hnonzero hne
    generalize (if n < d then _ else _ : Nat) = shift at hr ⊢
    have hcount := digitCount_roundQuotient hd hr
    rw [Text.digitCount_mul_pow hn] at hcount
    rw [hscaled hr]
    omega

/-! ### Magnitude -/

/-- How many places the leading digit is away from the point. -/
def magnitude (d : Decimal) : Nat := d.leadingExponent.natAbs

theorem magnitude_of_zero (h : d.significand = 0) : d.magnitude = 0 := by
  rw [magnitude, leadingExponent_of_zero h]
  rfl

theorem magnitude_withPrecision_le : (d.withPrecision p).magnitude ≤ d.magnitude + 1 := by
  by_cases hd : d.significand = 0
  · have hzero : (d.withPrecision p).significand = 0 := by
      apply Int.sign_eq_zero_iff_zero.1
      rw [sign_withPrecision, hd, Int.sign_zero]
    rw [magnitude_of_zero hzero]
    exact Nat.zero_le _
  · have := leadingExponent_withPrecision (p := p) hd
    unfold magnitude
    omega

theorem magnitude_mul_le : (a.mul b).magnitude ≤ a.magnitude + b.magnitude + 2 := by
  by_cases hab : a.significand * b.significand = 0
  · have hzero : (a.mul b).significand = 0 := by
      apply Int.sign_eq_zero_iff_zero.1
      rw [mul, sign_rounded, hab, Int.sign_zero]
    rw [magnitude_of_zero hzero]
    exact Nat.zero_le _
  · have := leadingExponent_mul (left_ne_zero_of_mul hab) (right_ne_zero_of_mul hab)
    unfold magnitude
    omega

theorem magnitude_div_le (hb : b.significand ≠ 0) (hp : 0 < a.precision ∨ 0 < b.precision) :
    (a.div b).magnitude ≤ a.magnitude + b.magnitude + 1 := by
  by_cases ha : a.significand = 0
  · have hzero : (a.div b).significand = 0 := by
      apply Int.sign_eq_zero_iff_zero.1
      unfold div
      simp only [ha, Int.sign_zero, Int.zero_mul]
      split <;> exact sign_ofScaled
    rw [magnitude_of_zero hzero]
    exact Nat.zero_le _
  · have := leadingExponent_div ha hb hp
    unfold magnitude
    omega

end Decimal

/-! ## Numbers -/

namespace Number

open Decimal (significand_withPrecision_ne_zero significand_ofScaled_ne_zero
  precision_withPrecision)

variable {x y z : Number} {p : Nat} {r : Rat} {s : Settings}

/-- A bound on how many places the leading digit is away from the point. That of an exact number is
read off its bits, three of which are less than a digit. -/
def magnitude : Number → Nat
  | exact r => (ratBits r + 2) / 3
  | approx d => d.magnitude

theorem bitExponent_le (b : Nat) : bitExponent b ≤ (b + 2) / 3 := by
  unfold bitExponent
  omega

theorem decimalExponent_le_magnitude (x : Number) : x.decimalExponent.natAbs ≤ x.magnitude := by
  cases x with
  | exact r =>
    have hnum : bitCount r.num.natAbs ≤ ratBits r := le_max_left _ _
    have hden : bitCount r.den ≤ ratBits r := le_max_right _ _
    have := bitExponent_le (bitCount r.num.natAbs)
    have := bitExponent_le (bitCount r.den)
    simp only [decimalExponent, magnitude]
    omega
  | approx d => exact le_refl d.magnitude

/-- **What is of a magnitude within the range is in range.** -/
theorem checkRange_of_magnitude (h : x.magnitude ≤ s.maxDecimalExponent) :
    x.checkRange s = .ok () := by
  rw [checkRange, inRange, if_pos]
  exact decide_eq_true ((decimalExponent_le_magnitude x).trans h)

/-! ### Conversion to decimals -/

/-- Three bits are less than a digit. -/
theorem digitCount_le_bitCount (n : Nat) : digitCount n ≤ (bitCount n + 2) / 3 := by
  rw [digitCount_le_iff]
  calc n < 2 ^ bitCount n := lt_pow_bitCount n
    _ ≤ 2 ^ (3 * ((bitCount n + 2) / 3)) := Nat.pow_le_pow_right (by decide) (by omega)
    _ = 8 ^ ((bitCount n + 2) / 3) := Nat.pow_mul ..
    _ ≤ 10 ^ ((bitCount n + 2) / 3) := Nat.pow_le_pow_left (by decide) _

/-- A whole number other than 0 as a decimal has its leading digit in front of the point, where its
bits allow. -/
theorem leadingExponent_whole {n : Int} (hn : n ≠ 0) {m : Nat} (hm : bitCount n.natAbs ≤ m) :
    0 ≤ ((Decimal.ofInteger n 0).withPrecision p).leadingExponent ∧
      ((Decimal.ofInteger n 0).withPrecision p).leadingExponent ≤ (m + 2) / 3 := by
  have hexact : (Decimal.ofInteger n 0).leadingExponent = 0 + digitCount n.natAbs - 1 :=
    Decimal.leadingExponent_ofScaled hn
  have hrounded := Decimal.leadingExponent_withPrecision (p := p)
    (Decimal.significand_ofScaled_ne_zero (e := 0) (p := max 1 (digitCount n.natAbs)) hn)
  have hdigits := digitCount_ne_zero (Int.natAbs_ne_zero.2 hn)
  have := digitCount_le_bitCount n.natAbs
  rw [Decimal.ofInteger] at hexact ⊢
  omega

theorem magnitude_ratToDecimal_le (r : Rat) (p : Nat) :
    (ratToDecimal r p).magnitude ≤ (ratBits r + 2) / 3 + 1 := by
  by_cases hr : r = 0
  · have hzero : (ratToDecimal r p).significand = 0 := by
      rw [hr, ratToDecimal, if_pos Rat.den_zero]
      apply Int.sign_eq_zero_iff_zero.1
      rw [Decimal.sign_withPrecision]
      exact Decimal.sign_ofScaled
    rw [Decimal.magnitude_of_zero hzero]
    exact Nat.zero_le _
  · have hnum : r.num ≠ 0 := Rat.num_ne_zero.2 hr
    have hden : (r.den : Int) ≠ 0 := Int.natCast_ne_zero.2 r.den_nz
    have hn := leadingExponent_whole (p := p) (m := ratBits r) hnum (le_max_left _ _)
    have hd := leadingExponent_whole (p := p) (m := ratBits r) hden (le_max_right _ _)
    simp only [ratToDecimal]
    split
    · unfold Decimal.magnitude
      omega
    · -- Both leading digits are in front of the point, so that one takes off from the other.
      have hwhole : ∀ {n : Int}, n ≠ 0 →
          ((Decimal.ofInteger n 0).withPrecision p).significand ≠ 0 := fun hn =>
        significand_withPrecision_ne_zero (significand_ofScaled_ne_zero hn)
      have hprecision : 0 < ((Decimal.ofInteger r.num 0).withPrecision p).precision := by
        rw [precision_withPrecision]
        omega
      have := Decimal.leadingExponent_div (hwhole hnum) (hwhole hden) (.inl hprecision)
      unfold Decimal.magnitude
      omega

theorem magnitude_toDecimal_le (x : Number) (p : Nat) :
    (x.toDecimal p).magnitude ≤ x.magnitude + 1 := by
  cases x with
  | exact r => exact magnitude_ratToDecimal_le r p
  | approx d => exact Decimal.magnitude_withPrecision_le

/-! ### Products and quotients -/

theorem magnitude_lift₂_le {onRat : Rat → Rat → Rat} {onDecimal : Decimal → Decimal → Decimal}
    (hrat : ∀ a b, ratBits (onRat a b) ≤ ratBits a + ratBits b)
    (hdecimal : (onDecimal (x.toDecimal workingPrecision)
        (y.toDecimal workingPrecision)).magnitude ≤
      (x.toDecimal workingPrecision).magnitude + (y.toDecimal workingPrecision).magnitude + 2) :
    (lift₂ onRat onDecimal x y).magnitude ≤ x.magnitude + y.magnitude + 4 := by
  have hx := magnitude_toDecimal_le x workingPrecision
  have hy := magnitude_toDecimal_le y workingPrecision
  have happrox : (onDecimal (x.toDecimal workingPrecision)
      (y.toDecimal workingPrecision)).magnitude ≤ x.magnitude + y.magnitude + 4 := by
    omega
  cases x with
  | approx d => exact happrox
  | exact a =>
    cases y with
    | approx d => exact happrox
    | exact b =>
      have := hrat a b
      simp only [lift₂, magnitude]
      omega

/-- **Magnitudes add up under products.** -/
theorem magnitude_mul (x y : Number) : (x.mul y).magnitude ≤ x.magnitude + y.magnitude + 4 :=
  magnitude_lift₂_le ratBits_mul_le Decimal.magnitude_mul_le

/-- **Magnitudes add up under quotients.** -/
theorem magnitude_div (h : x.div y = .ok z) : z.magnitude ≤ x.magnitude + y.magnitude + 4 := by
  obtain ⟨hy, rfl⟩ := div_eq_ok h
  apply magnitude_lift₂_le ratBits_div_le
  exact (Decimal.magnitude_div_le (toDecimal_ne_zero hy)
    (.inl (toDecimal_precision ..))).trans (Nat.le_succ _)

/-! ### Powers -/

/-- With two places more than the magnitude, squares double and products add up. -/
theorem magnitude_squareAndMultiply_le (fuel n : Nat) (result square : Decimal) :
    (squareAndMultiply fuel n result square).magnitude + 2 ≤
      result.magnitude + 2 + n * (square.magnitude + 2) := by
  induction fuel generalizing n result square with
  | zero => exact Nat.le_add_right _ _
  | succ fuel ih =>
    rw [squareAndMultiply]
    split
    · exact Nat.le_add_right _ _
    · have hresult : (if n % 2 = 1 then result.mul square else result).magnitude + 2 ≤
          result.magnitude + 2 + n % 2 * (square.magnitude + 2) := by
        split
        · next hodd =>
          have := Decimal.magnitude_mul_le (a := result) (b := square)
          rw [hodd]
          omega
        · omega
      have hsquare : n / 2 * ((if n / 2 = 0 then square else square.mul square).magnitude + 2) ≤
          n / 2 * (2 * (square.magnitude + 2)) := by
        split
        · next hlast => rw [hlast, Nat.zero_mul, Nat.zero_mul]
        · have := Decimal.magnitude_mul_le (a := square) (b := square)
          exact Nat.mul_le_mul_left _ (by omega)
      have hsplit : n % 2 * (square.magnitude + 2) + n / 2 * (2 * (square.magnitude + 2)) =
          n * (square.magnitude + 2) := by
        rw [← Nat.mul_assoc, ← Nat.add_mul, Nat.mul_comm (n / 2), Nat.mod_add_div]
      refine (ih _ _ _).trans ?_
      omega

theorem magnitude_decimalPower_le {base : Decimal} {e : Int} (h : base.significand ≠ 0) :
    (decimalPower base e p).magnitude ≤ e.natAbs * (base.magnitude + 2) + 1 := by
  have hone : (Decimal.one.withPrecision p).magnitude = 0 := by
    have hexponent : Decimal.one.leadingExponent = 0 + digitCount 1 - 1 :=
      Decimal.leadingExponent_ofScaled (by decide)
    have hsame : (Decimal.one.withPrecision p).leadingExponent = Decimal.one.leadingExponent := by
      rw [Decimal.withPrecision, Decimal.one, Decimal.precision_ofScaled,
        if_neg (Nat.not_lt_zero _)]
      rfl
    have hcount : digitCount 1 = 1 :=
      Nat.le_antisymm (digitCount_le_iff.2 (by decide)) (lt_digitCount_iff.2 (by decide))
    rw [Decimal.magnitude, hsame, hexponent, hcount]
    rfl
  have hpower := magnitude_squareAndMultiply_le (bitCount e.natAbs) e.natAbs
    (Decimal.one.withPrecision p) base
  rw [hone] at hpower
  simp only [decimalPower]
  split
  · have hunit : (Decimal.one.withPrecision p).significand ≠ 0 :=
      significand_withPrecision_ne_zero (significand_ofScaled_ne_zero (by decide))
    have hprecision : 0 < (Decimal.one.withPrecision p).precision := by
      rw [precision_withPrecision]
      omega
    have hne : (squareAndMultiply (bitCount e.natAbs) e.natAbs (Decimal.one.withPrecision p)
        base).significand ≠ 0 := squareAndMultiply_ne_zero hunit h
    have hdiv := Decimal.magnitude_div_le hne (.inl hprecision)
    rw [hone] at hdiv
    omega
  · omega

/-- **Magnitudes multiply under whole powers.** -/
theorem magnitude_powInt {e : Int} (h : x.powInt e s = .ok y) :
    y.magnitude ≤ e.natAbs * (x.magnitude + 3) + 1 := by
  unfold powInt at h
  split at h
  · cases h
    exact Nat.le_add_left 1 _
  · next he =>
    split at h
    · split at h
      · cases h
      · cases h
        exact Nat.le_add_left 1 _
    · next hzero =>
      have happrox : (decimalPower (x.toDecimal s.precision) e s.precision).magnitude ≤
          e.natAbs * (x.magnitude + 3) + 1 := by
        have hpower := magnitude_decimalPower_le (e := e) (p := s.precision)
          (toDecimal_ne_zero (p := s.precision) (Bool.eq_false_iff.2 hzero))
        have hbase := magnitude_toDecimal_le x s.precision
        have hscaled : e.natAbs * ((x.toDecimal s.precision).magnitude + 2) ≤
            e.natAbs * (x.magnitude + 3) := Nat.mul_le_mul_left _ (by omega)
        omega
      cases x with
      | approx d =>
        cases h
        exact happrox
      | exact r =>
        simp only at h
        split at h
        · cases h
          exact happrox
        · split at h
          · cases h
          · cases h
            have hbits := ratBits_zpow_le r he
            have hthirds : e.natAbs * ratBits r ≤ e.natAbs * (3 * ((ratBits r + 2) / 3)) :=
              Nat.mul_le_mul_left _ (by omega)
            rw [Nat.mul_left_comm] at hthirds
            have hscaled : e.natAbs * ((ratBits r + 2) / 3) ≤
                e.natAbs * ((ratBits r + 2) / 3 + 3) := Nat.mul_le_mul_left _ (by omega)
            simp only [magnitude]
            omega

end Number

end Reckoner
