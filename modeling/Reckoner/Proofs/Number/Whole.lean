import Reckoner.Proofs.Decimal.Sum

/-!
# Rounding to whole numbers

Floor and ceiling of a number are those of its value, for decimals of any precision
(`Decimal.toRat_floor`, `Decimal.toRat_ceil`). The nearest integer to a decimal is found by a floor,
too, after one half has been added to its magnitude. That sum is rounded to the precision of the
decimal (`Decimal.toRat_round`). If the decimal has no more digits than its precision, the rounding
does no harm with a single exception: an integer of as many digits as the precision has no place for
one half, the sum is rounded up, and the result is one too far from zero.
-/

namespace Reckoner

namespace Decimal

open Number (nearestSignificant ten_zpow_mul ten_zpow_pos log_lt_iff le_log_iff)
open Text (digitCount)

variable {d : Decimal} {p : Nat}

/-! ## Floors and ceilings -/

theorem significand_ne_zero_of_exponent_neg (h : ¬ 0 ≤ d.exponent) : d.significand ≠ 0 := by
  intro hzero
  rcases d.normal with hnormal | hnormal
  · rw [hzero] at hnormal
    exact hnormal rfl
  · exact h hnormal.2.ge

theorem abs_toRat (d : Decimal) :
    |d.toRat| = (d.significand.natAbs : Rat) * (10 : Rat) ^ d.exponent := by
  rw [toRat, abs_mul, abs_of_pos (ten_zpow_pos _), Nat.cast_natAbs, Int.cast_abs]

/-- The magnitude of a decimal lies between two powers of ten. -/
theorem abs_toRat_bounds (h : d.significand ≠ 0) :
    (10 : Rat) ^ d.leadingExponent ≤ |d.toRat| ∧
      |d.toRat| < (10 : Rat) ^ (d.leadingExponent + 1) := by
  have hunit := ten_zpow_pos d.exponent
  have hlow := Number.zpow_digitCount_le (Int.natAbs_ne_zero.2 h)
  have hhigh := Number.lt_zpow_digitCount d.significand.natAbs
  rw [leadingExponent_of_ne_zero h, digits, abs_toRat]
  constructor
  · have hexponent : (digitCount d.significand.natAbs : Int) - 1 + d.exponent =
        d.exponent + digitCount d.significand.natAbs - 1 := by omega
    rw [← ten_zpow_mul hexponent]
    exact mul_le_mul_of_nonneg_right hlow hunit.le
  · have hexponent : (digitCount d.significand.natAbs : Int) + d.exponent =
        d.exponent + digitCount d.significand.natAbs - 1 + 1 := by omega
    rw [← ten_zpow_mul hexponent]
    exact mul_lt_mul_of_pos_right hhigh hunit

theorem log_abs_toRat (h : d.significand ≠ 0) : Int.log 10 |d.toRat| = d.leadingExponent := by
  obtain ⟨hlow, hhigh⟩ := abs_toRat_bounds h
  have hpos := (ten_zpow_pos _).trans_le hlow
  apply le_antisymm
  · have := (log_lt_iff hpos).2 hhigh
    omega
  · exact (le_log_iff hpos).2 hlow

theorem exists_toRat_eq_intCast (h : 0 ≤ d.exponent) : ∃ z : Int, d.toRat = z := by
  obtain ⟨k, hk⟩ := Int.eq_ofNat_of_zero_le h
  refine ⟨d.significand * 10 ^ k, ?_⟩
  rw [toRat, hk, zpow_natCast]
  push_cast
  rfl

theorem toRat_pos_iff : 0 < d.toRat ↔ 0 < d.significand := by
  rw [toRat, mul_pos_iff_of_pos_right (ten_zpow_pos _), Int.cast_pos]

theorem toRat_neg_iff : d.toRat < 0 ↔ d.significand < 0 := by
  rw [← neg_pos, ← toRat_neg, toRat_pos_iff, significand_neg, Int.neg_pos]

theorem toRat_ne_zero_iff : d.toRat ≠ 0 ↔ d.significand ≠ 0 := by
  rw [toRat, mul_ne_zero_iff_right (ten_zpow_pos _).ne', Int.cast_ne_zero]

/-- A value between -1 and 1 that is not zero has a floor that its sign decides. -/
theorem floor_toRat_of_small (hs : d.significand ≠ 0) (h : |d.toRat| < 1) :
    ⌊d.toRat⌋ = d.significand.sign.fdiv 10 := by
  rw [abs_lt] at h
  rcases lt_or_gt_of_ne hs with hneg | hpos
  · have hvalue : d.toRat < 0 := toRat_neg_iff.2 hneg
    have hwhole : (-1 : Int).fdiv 10 = -1 := by decide
    rw [Int.sign_eq_neg_one_of_neg hneg, hwhole, Int.floor_eq_iff]
    push_cast
    constructor <;> linarith
  · have hvalue : 0 < d.toRat := toRat_pos_iff.2 hpos
    have hwhole : (1 : Int).fdiv 10 = 0 := by decide
    rw [Int.sign_eq_one_of_pos hpos, hwhole, Int.floor_eq_iff]
    push_cast
    constructor <;> linarith

theorem floor_toRat_of_fraction (h : ¬ 0 ≤ d.exponent) :
    ⌊d.toRat⌋ = d.significand.fdiv (10 ^ d.exponent.natAbs) := by
  have hexponent : d.exponent = -(d.exponent.natAbs : Int) := by omega
  have hquotient :
      d.toRat = (d.significand : Rat) / ((10 ^ d.exponent.natAbs : Nat) : Rat) := by
    rw [toRat, div_eq_mul_inv, Nat.cast_pow, ← zpow_natCast, ← zpow_neg, ← hexponent]
    rfl
  rw [hquotient, Rat.floor_intCast_div_natCast,
    Int.fdiv_eq_ediv_of_nonneg _ (Int.pow_pos (by decide)).le]
  push_cast
  rfl

theorem toRat_floor (d : Decimal) : d.floor.toRat = ⌊d.toRat⌋ := by
  unfold floor roundWith
  split
  · next hinteger =>
    obtain ⟨z, hz⟩ := exists_toRat_eq_intCast hinteger
    rw [hz, Int.floor_intCast]
  · next hfraction =>
    have hs := significand_ne_zero_of_exponent_neg hfraction
    split
    · next hsmall =>
      have hbelow_one : |d.toRat| < 1 := by
        have hdigits := digits_le_digitsAtMost d
        rw [← zpow_zero (10 : Rat)]
        refine (abs_toRat_bounds hs).2.trans_le (zpow_le_zpow_right₀ (by decide) ?_)
        rw [leadingExponent_of_ne_zero hs]
        omega
      rw [toRat_ofScaled, floor_toRat_of_small hs hbelow_one, zpow_zero, mul_one]
    · rw [toRat_ofScaled, floor_toRat_of_fraction hfraction, zpow_zero, mul_one]

protected theorem neg_neg (d : Decimal) : d.neg.neg = d := by
  cases d
  simp [neg]

/-- The ceiling is the floor seen from the other side. -/
theorem ceil_eq (d : Decimal) : d.ceil = d.neg.floor.neg := by
  have hdigits : d.neg.digitsAtMost = d.digitsAtMost := by
    simp only [digitsAtMost, digits, significand_neg, Int.natAbs_neg]
  unfold ceil floor roundWith
  simp only [exponent_neg, significand_neg, precision_neg, Int.sign_neg, hdigits]
  split_ifs
  · exact (Decimal.neg_neg d).symm
  · exact ofScaled_neg _ _ _
  · exact ofScaled_neg _ _ _

theorem toRat_ceil (d : Decimal) : d.ceil.toRat = ⌈d.toRat⌉ := by
  rw [ceil_eq, toRat_neg, toRat_floor, toRat_neg, Int.floor_neg, Int.cast_neg, neg_neg]

/-! ## The nearest integer -/

theorem toRat_half : half.toRat = 1 / 2 := by
  rw [half, ofInteger, toRat_ofScaled]
  norm_num

theorem significand_half : half.significand = 5 := by
  have hnormal : Normal 5 (-1) := .inl (by decide)
  rw [half, ofInteger, ofScaled_of_normal hnormal]

theorem digits_half : half.digits = 1 := by
  rw [digits, significand_half]
  exact (Text.digitCount_le_iff.2 (by decide)).antisymm (Text.lt_digitCount_iff.2 (by decide))

theorem precision_half : half.precision = 1 := by
  have h := digits_half
  rw [digits, significand_half] at h
  rw [half, ofInteger, precision_ofScaled, h, max_self]

theorem round_of_nonneg (h : 0 ≤ d.significand) : d.round = (d.add half).floor := by
  have hsign : ¬ d.isNegative = true := by simp [isNegative, h]
  rw [round, if_neg hsign]

theorem round_neg (h : 0 < d.significand) : d.neg.round = d.round.neg := by
  have hsign : d.neg.isNegative = true := by simp [isNegative, h]
  have hhalf : half.significand ≠ 0 := by
    rw [significand_half]
    decide
  rw [round_of_nonneg h.le, round, if_pos hsign, sub, neg_add_neg h.ne' hhalf, ceil_eq,
    Decimal.neg_neg]

/-- Rounding adds one half to the magnitude, in the precision of the decimal, and drops the
fraction. -/
theorem toRat_round (d : Decimal) :
    d.round.toRat = d.significand.sign *
      ⌊nearestSignificant (max d.precision 1) (|d.toRat| + 1 / 2)⌋ := by
  have hpos : ∀ d : Decimal, 0 < d.significand →
      d.round.toRat = ⌊nearestSignificant (max d.precision 1) (d.toRat + 1 / 2)⌋ := by
    intro d hd
    have hsign : d.significand.sign = half.significand.sign := by
      rw [Int.sign_eq_one_of_pos hd, significand_half]
      rfl
    have hp : 0 < max d.precision half.precision := by
      rw [precision_half]
      omega
    rw [round_of_nonneg hd.le, toRat_floor, toRat_add_of_sign hd.ne' hsign hp, toRat_half,
      precision_half]
  rcases lt_trichotomy d.significand 0 with hd | hd | hd
  · have hvalue : d.neg.toRat = |d.toRat| := by
      rw [toRat_neg, abs_of_neg (toRat_neg_iff.2 hd)]
    have h := hpos d.neg (neg_pos.2 hd)
    rw [precision_neg, hvalue] at h
    rw [← Decimal.neg_neg d, round_neg (neg_pos.2 hd), toRat_neg, h, Decimal.neg_neg,
      Int.sign_eq_neg_one_of_neg hd]
    push_cast
    ring
  · have hzero : d.isZero = true := by simp [isZero, hd]
    have hfloor : ⌊(1 / 2 : Rat)⌋ = 0 := Int.floor_eq_iff.2 (by norm_num)
    rw [round_of_nonneg hd.ge, toRat_floor, toRat_add_of_isZero_left hzero, toRat_half, hfloor, hd]
    simp
  · rw [hpos d hd, Int.sign_eq_one_of_pos hd, Int.cast_one, one_mul,
      abs_of_pos (toRat_pos_iff.2 hd)]

/-! ### Decimals within their precision -/

theorem floor_nearestSignificant {y : Rat} (hy : 0 < y) (h : Int.log 10 y < p) :
    ⌊nearestSignificant p y⌋ = ⌊y + (10 : Rat) ^ (Int.log 10 y - p + 1) / 2⌋ := by
  obtain ⟨k, hk⟩ := Int.eq_ofNat_of_zero_le (show 0 ≤ (p : Int) - 1 - Int.log 10 y by omega)
  have hexponent : Int.log 10 y - p + 1 = -(k : Int) := by omega
  have hpow : (0 : Rat) < (10 : Rat) ^ k := pow_pos (by decide) k
  have hsum : y + ((10 : Rat) ^ k)⁻¹ / 2 =
      (y * (10 : Rat) ^ k + 1 / 2) / ((10 ^ k : Nat) : Rat) := by
    push_cast
    field_simp
  have hnonneg : 0 ≤ (y * (10 : Rat) ^ k + 1 / 2) / ((10 ^ k : Nat) : Rat) := by positivity
  have hrounded : (⌊y * (10 : Rat) ^ k + 1 / 2⌋₊ : Rat) * ((10 : Rat) ^ k)⁻¹ =
      (⌊y * (10 : Rat) ^ k + 1 / 2⌋₊ : Int) / ((10 ^ k : Nat) : Rat) := by
    push_cast
    rfl
  rw [Number.nearestSignificant_of_pos hy, Number.mantissa, Number.shifted, hk, hexponent,
    zpow_neg, zpow_natCast, hsum, hrounded, Rat.floor_intCast_div_natCast,
    ← Int.natCast_floor_eq_floor hnonneg, Nat.floor_div_natCast]
  rfl

/-- The magnitude of a decimal that has no digits behind the point. -/
theorem exists_abs_toRat_eq_natCast (hd : d.significand ≠ 0) (hdigits : d.digits ≤ p)
    (h : p ≤ d.leadingExponent + 1) :
    ∃ m : Nat, m ≠ 0 ∧ |d.toRat| = m ∧ (digitCount m : Int) = d.leadingExponent + 1 := by
  have hexponent : 0 ≤ d.exponent := by
    rw [leadingExponent_of_ne_zero hd] at h
    omega
  obtain ⟨k, hk⟩ := Int.eq_ofNat_of_zero_le hexponent
  have hvalue : |d.toRat| = ((d.significand.natAbs * 10 ^ k : Nat) : Rat) := by
    rw [abs_toRat, hk, zpow_natCast]
    push_cast
    rfl
  have hm : d.significand.natAbs * 10 ^ k ≠ 0 :=
    Nat.mul_ne_zero (Int.natAbs_ne_zero.2 hd) (Nat.pow_pos (by decide)).ne'
  refine ⟨_, hm, hvalue, ?_⟩
  have hlog := log_abs_toRat hd
  rw [hvalue, Number.log_natCast hm] at hlog
  omega

/-- One half is too small to be seen. -/
theorem nearestSignificant_add_half_of_long (hd : d.significand ≠ 0) (hdigits : d.digits ≤ p)
    (h : p < d.leadingExponent + 1) :
    nearestSignificant p (|d.toRat| + 1 / 2) = |d.toRat| := by
  have hsame : nearestSignificant p |d.toRat| = |d.toRat| := by
    rw [abs_toRat]
    exact Number.nearestSignificant_of_digitCount_le hdigits _
  obtain ⟨m, hm, hvalue, hcount⟩ := exists_abs_toRat_eq_natCast hd hdigits h.le
  have hsmall : 2 * (1 / 2) * (10 : Rat) ^ p < (10 : Rat) ^ digitCount m := by
    rw [mul_one_div_cancel two_ne_zero, one_mul]
    exact pow_lt_pow_right₀ (by decide) (by omega)
  have hround := Number.nearestSignificant_natCast_add hm (by norm_num) (by norm_num) hsmall 0
  rw [zpow_zero, mul_one, mul_one, ← hvalue, hsame] at hround
  exact hround

/-- One half is rounded to one. -/
theorem floor_add_half_of_full (hd : d.significand ≠ 0) (hdigits : d.digits ≤ p)
    (h : d.leadingExponent + 1 = p) :
    ((⌊nearestSignificant p (|d.toRat| + 1 / 2)⌋ : Int) : Rat) = |d.toRat| + 1 := by
  obtain ⟨m, hm, hvalue, hcount⟩ := exists_abs_toRat_eq_natCast hd hdigits h.ge
  have hlog : Int.log 10 ((m : Rat) + 1 / 2) = p - 1 := by
    rw [Number.log_natCast_add hm (by norm_num) (by norm_num)]
    omega
  have hunit : (10 : Rat) ^ (Int.log 10 ((m : Rat) + 1 / 2) - p + 1) = 1 := by
    rw [hlog]
    norm_num
  have hsum : (m : Rat) + 1 / 2 + 1 / 2 = ((m + 1 : Nat) : Rat) := by
    push_cast
    ring
  rw [hvalue, floor_nearestSignificant (by positivity) (by omega), hunit, hsum, Int.floor_natCast]
  push_cast
  rfl

/-- The magnitude and one half are both whole numbers of a unit that is a tenth of one at most. -/
theorem exists_add_half_mul_pow (hd : d.significand ≠ 0) (hdigits : d.digits ≤ p)
    (h : d.leadingExponent + 1 < p) :
    ∃ k n : Nat, d.leadingExponent - p + 1 = -((k + 1 : Nat) : Int) ∧
      (|d.toRat| + 1 / 2) * (10 : Rat) ^ (k + 1) = n := by
  obtain ⟨k, hk⟩ := Int.eq_ofNat_of_zero_le (show 0 ≤ (p : Int) - 2 - d.leadingExponent by omega)
  obtain ⟨j, hj⟩ := Nat.exists_eq_add_of_le hdigits
  have hexponent : d.exponent + ((k + 1 : Nat) : Int) = (j : Int) := by
    rw [leadingExponent_of_ne_zero hd] at hk
    omega
  refine ⟨k, d.significand.natAbs * 10 ^ j + 5 * 10 ^ k, by omega, ?_⟩
  rw [add_mul, abs_toRat, ← zpow_natCast, mul_assoc, ten_zpow_mul hexponent, zpow_natCast,
    zpow_natCast, pow_succ]
  push_cast
  ring

/-- A whole number of steps is followed by the next integer after one step at the earliest. -/
theorem add_step_le_floor_add_one {y step : Rat} {k n : Nat} (hstep : step * (10 : Rat) ^ k = 1)
    (hy : y * (10 : Rat) ^ k = n) : y + step ≤ ⌊y⌋ + 1 := by
  have hpow : (0 : Rat) < (10 : Rat) ^ k := pow_pos (by decide) k
  have hlt : (n : Int) < (⌊y⌋ + 1) * 10 ^ k := by
    have := mul_lt_mul_of_pos_right (Int.lt_floor_add_one y) hpow
    rw [hy] at this
    exact_mod_cast this
  have hle : (n : Rat) + 1 ≤ (⌊y⌋ + 1 : Rat) * (10 : Rat) ^ k := by exact_mod_cast hlt
  apply le_of_mul_le_mul_right _ hpow
  rwa [add_mul, hy, hstep]

theorem log_add_half_lt (hd : d.significand ≠ 0) (hp : p ≠ 0) (h : d.leadingExponent + 1 < p) :
    Int.log 10 (|d.toRat| + 1 / 2) < p := by
  obtain ⟨-, hhigh⟩ := abs_toRat_bounds hd
  obtain ⟨q, rfl⟩ := Nat.exists_eq_succ_of_ne_zero hp
  have hle : (10 : Rat) ^ (d.leadingExponent + 1) ≤ (10 : Rat) ^ (q : Int) :=
    zpow_le_zpow_right₀ (by decide) (by omega)
  have hone : (1 : Rat) ≤ (10 : Rat) ^ q := one_le_pow₀ (by decide)
  rw [zpow_natCast] at hle
  rw [log_lt_iff (by positivity), zpow_natCast, pow_succ]
  linarith

/-- If one half brings a magnitude to its next power of ten, that power is the integer part. -/
theorem abs_toRat_lt_floor (hd : d.significand ≠ 0) (hwhole : 0 ≤ d.leadingExponent + 1)
    (hcarry : d.leadingExponent < Int.log 10 (|d.toRat| + 1 / 2)) :
    |d.toRat| < ⌊|d.toRat| + 1 / 2⌋ := by
  obtain ⟨-, hhigh⟩ := abs_toRat_bounds hd
  obtain ⟨j, hj⟩ := Int.eq_ofNat_of_zero_le hwhole
  have hcarried : (10 : Rat) ^ (d.leadingExponent + 1) ≤ |d.toRat| + 1 / 2 :=
    (zpow_le_zpow_right₀ (by decide) (by omega)).trans ((le_log_iff (by positivity)).1 le_rfl)
  rw [hj, zpow_natCast] at hcarried hhigh
  have hinteger : ((10 ^ j : Int) : Rat) ≤ |d.toRat| + 1 / 2 := by exact_mod_cast hcarried
  have hle : (10 : Rat) ^ j ≤ ⌊|d.toRat| + 1 / 2⌋ := by exact_mod_cast Int.le_floor.2 hinteger
  exact hhigh.trans_le hle

theorem zpow_le_tenth {k : Int} (h : k ≤ -1) : (10 : Rat) ^ k ≤ 1 / 10 :=
  (zpow_le_zpow_right₀ (by decide) h).trans (by norm_num)

/-- There is place for one half. -/
theorem floor_add_half_of_short (hd : d.significand ≠ 0) (hdigits : d.digits ≤ p)
    (h : d.leadingExponent + 1 < p) :
    ⌊nearestSignificant p (|d.toRat| + 1 / 2)⌋ = ⌊|d.toRat| + 1 / 2⌋ := by
  obtain ⟨hlow, hhigh⟩ := abs_toRat_bounds hd
  have hpos : 0 < |d.toRat| + 1 / 2 := by positivity
  have hlog_le : d.leadingExponent ≤ Int.log 10 (|d.toRat| + 1 / 2) :=
    (le_log_iff hpos).2 (by linarith)
  have hp : p ≠ 0 := by
    have : d.digits ≠ 0 := Text.digitCount_ne_zero (Int.natAbs_ne_zero.2 hd)
    omega
  have hlog_lt := log_add_half_lt hd hp h
  have hfloor := Int.floor_le (|d.toRat| + 1 / 2)
  rw [floor_nearestSignificant hpos hlog_lt, Int.floor_eq_iff]
  generalize hstep : (10 : Rat) ^ (Int.log 10 (|d.toRat| + 1 / 2) - p + 1) = step
  have hstep_pos : 0 < step := hstep ▸ ten_zpow_pos _
  refine ⟨by linarith, ?_⟩
  -- Either the sum has the leading place of the decimal, or one half carries to a new one.
  rcases hlog_le.eq_or_lt with hsame | hcarry
  · obtain ⟨k, n, hunit, hwhole⟩ := exists_add_half_mul_pow hd hdigits h
    have hpow : (0 : Rat) < (10 : Rat) ^ (k + 1) := pow_pos (by decide) _
    have hone : step * (10 : Rat) ^ (k + 1) = 1 := by
      rw [← hstep, ← hsame, hunit, zpow_neg, zpow_natCast, inv_mul_cancel₀ hpow.ne']
    linarith [add_step_le_floor_add_one hone hwhole]
  · by_cases hsmall : d.leadingExponent + 1 < 0
    · -- The sum is below 0.6.
      have hmagnitude := zpow_le_tenth (show d.leadingExponent + 1 ≤ -1 by omega)
      have hlog_neg : Int.log 10 (|d.toRat| + 1 / 2) < 0 := by
        rw [log_lt_iff hpos, zpow_zero]
        linarith
      have hstep_le : step ≤ 1 / 10 := hstep ▸ zpow_le_tenth (by omega)
      have hnonneg : (0 : Rat) ≤ ⌊|d.toRat| + 1 / 2⌋ :=
        Int.cast_nonneg (Int.floor_nonneg.2 hpos.le)
      linarith
    · have hone : step ≤ 1 := by
        rw [← hstep]
        exact zpow_le_one_of_nonpos₀ (by decide) (by omega)
      linarith [abs_toRat_lt_floor hd (not_lt.1 hsmall) hcarry]

end Decimal

namespace Number

variable {x : Number} {r : Rat} {z : Int}

/-- `z` is the integer nearest to `r`, away from zero if two are equally near. -/
structure IsNearest (r : Rat) (z : Int) : Prop where
  close : |(z : Rat) - r| ≤ 1 / 2
  away : |(z : Rat) - r| = 1 / 2 → |r| < |(z : Rat)|

theorem roundRat_eq (r : Rat) : roundRat r = SignType.sign r * ⌊|r| + 1 / 2⌋ := by
  rcases lt_trichotomy r 0 with hr | rfl | hr
  · have h := roundRat_of_nonneg (neg_nonneg.2 hr.le)
    rw [roundRat_neg] at h
    rw [abs_of_neg hr, ← h, sign_neg hr]
    simp
  · simp [roundRat]
  · rw [abs_of_pos hr, ← roundRat_of_nonneg hr.le, sign_pos hr]
    simp

theorem isNearest_roundRat (r : Rat) : IsNearest r (roundRat r) := by
  have hnonneg : ∀ a : Rat, 0 ≤ a →
      |(roundRat a : Rat) - a| = 1 / 2 → |a| < |(roundRat a : Rat)| := by
    intro a ha hhalf
    have hlow := Int.lt_floor_add_one (a + 1 / 2)
    have hfloor : 0 ≤ ⌊a + 1 / 2⌋ := Int.floor_nonneg.2 (by linarith)
    rw [roundRat_of_nonneg ha] at hhalf ⊢
    rw [abs_of_nonneg ha, abs_of_nonneg (Int.cast_nonneg hfloor)]
    rcases abs_eq (by norm_num) |>.1 hhalf with h | h <;> linarith
  refine ⟨abs_roundRat_sub_le r, fun hhalf => ?_⟩
  rcases le_total 0 r with hr | hr
  · exact hnonneg r hr hhalf
  · have h := hnonneg (-r) (neg_nonneg.2 hr)
    rw [roundRat_neg, Int.cast_neg, neg_sub_neg, abs_sub_comm, abs_neg, abs_neg] at h
    exact h hhalf

/-- There is one nearest integer only. -/
theorem isNearest_iff : IsNearest r z ↔ z = roundRat r := by
  refine ⟨fun h => ?_, fun h => h ▸ isNearest_roundRat r⟩
  have hother := isNearest_roundRat r
  generalize roundRat r = w at hother
  -- Of two nearest integers one is farther from zero than the number, and so is the other one.
  have hunique : ∀ a b : Int, IsNearest r a → IsNearest r b → ¬ a < b := by
    intro a b ha hb hlt
    have hgap : (a : Rat) + 1 ≤ b := by exact_mod_cast hlt
    have ha_close := abs_le.1 ha.close
    have hb_close := abs_le.1 hb.close
    have hr : r = a + 1 / 2 := by linarith
    have hb_eq : (b : Rat) = a + 1 := by linarith
    have ha_away := ha.away (by rw [hr]; norm_num [abs_of_neg])
    have hb_away := hb.away (by rw [hr, hb_eq]; norm_num)
    rw [hr, hb_eq] at hb_away
    rw [hr] at ha_away
    rcases le_or_gt 0 a with hsign | hsign
    · have : (0 : Rat) ≤ a := Int.cast_nonneg hsign
      rw [abs_of_nonneg this, abs_of_nonneg (by linarith)] at ha_away
      linarith
    · have : (a : Rat) + 1 ≤ 0 := by exact_mod_cast hsign
      rw [abs_of_nonpos this, abs_of_nonpos (by linarith)] at hb_away
      linarith
  have h₁ := hunique z w h hother
  have h₂ := hunique w z hother h
  omega

/-- The sum with one half of which rounding drops the fraction. That of an approximate number is
rounded itself. -/
def plusHalf : Number → Rat
  | exact r => |r| + 1 / 2
  | approx d => nearestSignificant (max d.precision 1) (|d.toRat| + 1 / 2)

/-- An approximate number has no more digits than its precision. -/
def WithinPrecision : Number → Prop
  | exact _ => True
  | approx d => d.digits ≤ max d.precision 1

/-- An approximate number is an integer of as many digits as its precision. -/
def FillsPrecision : Number → Prop
  | exact _ => False
  | approx d => d.significand ≠ 0 ∧ d.leadingExponent + 1 = max d.precision 1

instance : DecidablePred WithinPrecision
  | exact _ => isTrue trivial
  | approx d => inferInstanceAs (Decidable (d.digits ≤ max d.precision 1))

instance : DecidablePred FillsPrecision
  | exact _ => isFalse not_false
  | approx d =>
    inferInstanceAs (Decidable (d.significand ≠ 0 ∧ d.leadingExponent + 1 = max d.precision 1))

theorem value_floor (x : Number) : x.floor.value = ⌊x.value⌋ := by
  cases x with
  | exact r => rfl
  | approx d => exact Decimal.toRat_floor d

theorem value_ceil (x : Number) : x.ceil.value = ⌈x.value⌉ := by
  cases x with
  | exact r => exact congrArg Int.cast (Rat.ceil_eq_neg_floor_neg r)
  | approx d => exact Decimal.toRat_ceil d

theorem value_round (x : Number) : x.round.value = SignType.sign x.value * ⌊x.plusHalf⌋ := by
  cases x with
  | exact r =>
    show ((roundRat r : Int) : Rat) = SignType.sign r * ⌊|r| + 1 / 2⌋
    rw [roundRat_eq, Int.cast_mul, SignType.intCast_cast]
  | approx d =>
    have hsign : ((SignType.sign d.toRat : SignType) : Rat) = d.significand.sign := by
      rcases lt_trichotomy d.significand 0 with h | h | h
      · rw [sign_neg (Decimal.toRat_neg_iff.2 h), Int.sign_eq_neg_one_of_neg h]
        simp
      · simp [Decimal.toRat, h]
      · rw [sign_pos (Decimal.toRat_pos_iff.2 h), Int.sign_eq_one_of_pos h]
        simp
    exact (Decimal.toRat_round d).trans (congrArg (· * _) hsign.symm)

theorem floor_plusHalf_of_zero (hx : x.value = 0) : ⌊x.plusHalf⌋ = ⌊|x.value| + 1 / 2⌋ := by
  cases x with
  | exact r => rfl
  | approx d =>
    have hhalf : nearestSignificant (max d.precision 1) (1 / 2) = 1 / 2 := by
      rw [← Decimal.toRat_half, Decimal.nearestSignificant_toRat_iff (by omega)]
      exact Decimal.digits_half.le.trans (le_max_right _ _)
    show ⌊nearestSignificant (max d.precision 1) (|d.toRat| + 1 / 2)⌋ = ⌊|d.toRat| + 1 / 2⌋
    rw [show d.toRat = 0 from hx, abs_zero, zero_add, hhalf]

/-- Rounding is right exactly if the sum with one half is not rounded to another integer. -/
theorem isNearest_round_iff (x : Number) :
    (∃ z : Int, x.round.value = z ∧ IsNearest x.value z) ↔ ⌊x.plusHalf⌋ = ⌊|x.value| + 1 / 2⌋ := by
  have hround : x.round.value = ((SignType.sign x.value * ⌊x.plusHalf⌋ : Int) : Rat) := by
    rw [value_round, Int.cast_mul, SignType.intCast_cast]
  simp only [isNearest_iff, exists_eq_right, hround, roundRat_eq, Int.cast_inj]
  refine ⟨fun h => ?_, fun h => h ▸ rfl⟩
  rcases lt_trichotomy x.value 0 with hx | hx | hx
  · rw [sign_neg hx] at h
    exact neg_inj.1 (by simpa using h)
  · exact floor_plusHalf_of_zero hx
  · rw [sign_pos hx] at h
    simpa using h

theorem FillsPrecision.value_ne_zero (h : x.FillsPrecision) : x.value ≠ 0 := by
  cases x with
  | exact r => exact h.elim
  | approx d => exact Decimal.toRat_ne_zero_iff.2 h.1

theorem FillsPrecision.floor_plusHalf (h : x.FillsPrecision) (hdigits : x.WithinPrecision) :
    ((⌊x.plusHalf⌋ : Int) : Rat) = |x.value| + 1 := by
  cases x with
  | exact r => exact h.elim
  | approx d => exact Decimal.floor_add_half_of_full h.1 hdigits h.2

theorem floor_plusHalf_iff (h : x.WithinPrecision) :
    ⌊x.plusHalf⌋ = ⌊|x.value| + 1 / 2⌋ ↔ ¬ x.FillsPrecision := by
  by_cases hx : x.value = 0
  · exact ⟨fun _ hfills => hfills.value_ne_zero hx, fun _ => floor_plusHalf_of_zero hx⟩
  cases x with
  | exact r => exact ⟨fun _ => not_false, fun _ => rfl⟩
  | approx d =>
    have hd : d.significand ≠ 0 := Decimal.toRat_ne_zero_iff.1 hx
    rcases lt_trichotomy (d.leadingExponent + 1) ((max d.precision 1 : Nat) : Int) with
      hlt | heq | hgt
    · have hshort := Decimal.floor_add_half_of_short hd h hlt
      exact ⟨fun _ hfills => hlt.ne hfills.2, fun _ => hshort⟩
    · refine ⟨fun hsame => ?_, fun hne => absurd ⟨hd, heq⟩ hne⟩
      have hfull := FillsPrecision.floor_plusHalf (x := approx d) ⟨hd, heq⟩ h
      have hlow := Int.floor_le (|(approx d).value| + 1 / 2)
      rw [← hsame, hfull] at hlow
      linarith
    · have hlong := Decimal.nearestSignificant_add_half_of_long hd h hgt
      obtain ⟨m, -, hm, -⟩ := Decimal.exists_abs_toRat_eq_natCast hd h hgt.le
      refine ⟨fun _ hfills => hgt.ne' hfills.2, fun _ => ?_⟩
      have hfloor : ⌊(m : Rat) + 1 / 2⌋ = m := by
        rw [Int.floor_eq_iff]
        push_cast
        constructor <;> linarith
      show ⌊nearestSignificant (max d.precision 1) (|d.toRat| + 1 / 2)⌋ = ⌊|d.toRat| + 1 / 2⌋
      rw [hlong, hm, hfloor, Int.floor_natCast]

/-- **What rounding to whole numbers does.** Floor and ceiling are those of the value. The nearest
integer is found exactly if the sum with one half keeps its integer part when it is rounded. So it
is found for every exact number, and for every approximate one that has no more digits than its
precision, unless it is an integer that fills the precision: of that one the next integer away from
zero is found. -/
theorem value_of_rounding (x : Number) :
    x.floor.value = ⌊x.value⌋ ∧ x.ceil.value = ⌈x.value⌉ ∧
      x.round.value = SignType.sign x.value * ⌊x.plusHalf⌋ ∧
      ((∃ z : Int, x.round.value = z ∧ IsNearest x.value z) ↔
        ⌊x.plusHalf⌋ = ⌊|x.value| + 1 / 2⌋) ∧
      (x.WithinPrecision →
        ((∃ z : Int, x.round.value = z ∧ IsNearest x.value z) ↔ ¬ x.FillsPrecision) ∧
          (x.FillsPrecision → x.round.value = x.value + SignType.sign x.value)) := by
  refine ⟨value_floor x, value_ceil x, value_round x, isNearest_round_iff x, fun h => ⟨?_, ?_⟩⟩
  · rw [isNearest_round_iff, floor_plusHalf_iff h]
  · intro hfills
    rw [value_round, hfills.floor_plusHalf h, mul_add, sign_mul_abs, mul_one]

/-- At precision 3, 99.9 is rounded to 100 and 999 to 1000. -/
theorem value_of_rounding_three_digits :
    ((exact (999 / 10)).toApprox 3).WithinPrecision ∧
      (∃ z : Int, ((exact (999 / 10)).toApprox 3).round.value = z ∧
        IsNearest ((exact (999 / 10)).toApprox 3).value z) ∧
      ((exact 999).toApprox 3).WithinPrecision ∧ ((exact 999).toApprox 3).FillsPrecision ∧
      ((exact 999).toApprox 3).round.value = ((exact 999).toApprox 3).value + 1 := by
  obtain ⟨-, -, -, -, hshort⟩ := value_of_rounding ((exact (999 / 10)).toApprox 3)
  obtain ⟨-, -, -, -, hfull⟩ := value_of_rounding ((exact 999).toApprox 3)
  have hshort_within : ((exact (999 / 10)).toApprox 3).WithinPrecision := by decide +kernel
  have hshort_place : ¬ ((exact (999 / 10)).toApprox 3).FillsPrecision := by decide +kernel
  have hfull_within : ((exact 999).toApprox 3).WithinPrecision := by decide +kernel
  have hfills : ((exact 999).toApprox 3).FillsPrecision := by decide +kernel
  have hvalue : ((exact 999).toApprox 3).value = 999 := by decide +kernel
  refine ⟨hshort_within, (hshort hshort_within).1.2 hshort_place, hfull_within, hfills, ?_⟩
  rw [(hfull hfull_within).2 hfills, hvalue, sign_pos (by norm_num), SignType.coe_one]

/-- The number `10 ^ 49 + 1` has fifty digits, and is rounded to another integer at that
precision. -/
theorem round_of_fifty_digits :
    ((exact (10 ^ 49 + 1)).toApprox 50).value = 10 ^ 49 + 1 ∧
      ((exact (10 ^ 49 + 1)).toApprox 50).round.value = 10 ^ 49 + 2 ∧
      ¬ ∃ z : Int, ((exact (10 ^ 49 + 1)).toApprox 50).round.value = z ∧
        IsNearest ((exact (10 ^ 49 + 1)).toApprox 50).value z := by
  have hvalue : ((exact (10 ^ 49 + 1)).toApprox 50).value = 10 ^ 49 + 1 := by decide +kernel
  have hround : ((exact (10 ^ 49 + 1)).toApprox 50).round.value = 10 ^ 49 + 2 := by decide +kernel
  refine ⟨hvalue, hround, ?_⟩
  rintro ⟨z, hz, hnearest⟩
  have hclose := hnearest.close
  rw [← hz, hvalue, hround] at hclose
  norm_num at hclose

end Number

end Reckoner
