import Reckoner.Proofs.Number.Layout
import Reckoner.Proofs.Number.Nonzero
import Reckoner.Proofs.Number.Reading
import Mathlib.Algebra.Order.Floor.Semifield
import Mathlib.Data.Int.Log
import Mathlib.Data.Rat.Floor
import Mathlib.Data.Sign.Basic
import Mathlib.Tactic.Linarith
import Mathlib.Tactic.FieldSimp

/-!
# Rounding to significant digits

The text that `roundSignificant r n` writes denotes `r` rounded to `n` significant digits, halves
away from zero (`nearestSignificant`), as long as the number of digits and the magnitude of `r` stay
below `2 ^ 32` together (`denotes_roundSignificant`). Powers of ten that are longer are cut off
(`tenPow`), and so is the text then (`roundSignificant_cut`).

The leading digit is estimated from the digit counts of numerator and denominator and corrected by
one comparison; this gives the logarithm, rounded down (`leadingExponent_eq_log`). With the first
`n` digits in front of the point (`shifted`), rounding gives a mantissa of `n` digits, or the power
`10 ^ n` that a carry through all of them makes (`mantissa_bounds`).
-/

namespace Reckoner.Number

open Text

variable {r a : Rat} {n m d : Nat} {k : Int}

/-- A rational rounded to `n` significant digits, halves away from zero. -/
def nearestSignificant (n : Nat) (r : Rat) : Rat :=
  SignType.sign r * ⌊|r| * (10 : Rat) ^ (n - 1 - Int.log 10 |r|) + 1 / 2⌋ *
    (10 : Rat) ^ (Int.log 10 |r| - n + 1)

/-! ## Powers of ten -/

theorem tenPow_eq (h : n < 2 ^ 32) : tenPow n = 10 ^ n := by
  rw [tenPow, Nat.mod_eq_of_lt h]

theorem scaleByTen_eq (h : k.natAbs < 2 ^ 32) : scaleByTen a k = a * (10 : Rat) ^ k := by
  unfold scaleByTen
  split
  · next hk =>
    obtain ⟨k, rfl⟩ := Int.eq_ofNat_of_zero_le hk
    rw [Int.natAbs_natCast] at h
    rw [Int.toNat_natCast, tenPow_eq h, zpow_natCast]
    push_cast
    rfl
  · next hk =>
    obtain ⟨k, rfl⟩ : ∃ m : Nat, k = -m := ⟨k.natAbs, by omega⟩
    rw [Int.natAbs_neg, Int.natAbs_natCast] at h ⊢
    rw [tenPow_eq h, zpow_neg, zpow_natCast, div_eq_mul_inv]
    push_cast
    rfl

theorem ten_zpow_pos (k : Int) : (0 : Rat) < (10 : Rat) ^ k := zpow_pos (by decide) k

/-! ## The leading digit -/

theorem log_lt_iff (ha : 0 < a) : Int.log 10 a < k ↔ a < (10 : Rat) ^ k := by
  exact_mod_cast (Int.lt_zpow_iff_log_lt (b := 10) (by decide) (x := k) ha).symm

theorem le_log_iff (ha : 0 < a) : k ≤ Int.log 10 a ↔ (10 : Rat) ^ k ≤ a := by
  exact_mod_cast (Int.zpow_le_iff_le_log (b := 10) (by decide) (x := k) ha).symm

theorem lt_zpow_digitCount (n : Nat) : (n : Rat) < (10 : Rat) ^ (digitCount n : Int) := by
  rw [zpow_natCast]
  exact_mod_cast lt_pow_digitCount n

theorem zpow_digitCount_le (hn : n ≠ 0) : (10 : Rat) ^ ((digitCount n : Int) - 1) ≤ n := by
  have hcount := digitCount_ne_zero hn
  have hpred : (digitCount n : Int) - 1 = ((digitCount n - 1 : Nat) : Int) := by omega
  rw [hpred, zpow_natCast]
  exact_mod_cast pow_digitCount_le hn

/-- The difference of the digit counts of numerator and denominator is the logarithm, or one
more. -/
theorem log_le_digitCounts (ha : 0 < a) :
    Int.log 10 a ≤ (digitCount a.num.natAbs : Int) - digitCount a.den ∧
      (digitCount a.num.natAbs : Int) - digitCount a.den ≤ Int.log 10 a + 1 := by
  have hnum : a * a.den = a.num.natAbs := by rw [cast_natAbs_num, abs_of_pos ha]
  have hnum_ne : a.num.natAbs ≠ 0 := Int.natAbs_ne_zero.2 (Rat.num_ne_zero.2 ha.ne')
  have hden : (0 : Rat) < a.den := Nat.cast_pos.2 a.den_pos
  constructor
  · apply Int.lt_add_one_iff.1
    apply (log_lt_iff ha).2
    apply lt_of_mul_lt_mul_right _ hden.le
    calc a * a.den = a.num.natAbs := hnum
      _ < (10 : Rat) ^ (digitCount a.num.natAbs : Int) := lt_zpow_digitCount _
      _ = (10 : Rat) ^ ((digitCount a.num.natAbs : Int) - digitCount a.den + 1) *
          (10 : Rat) ^ ((digitCount a.den : Int) - 1) := (ten_zpow_mul (by omega)).symm
      _ ≤ (10 : Rat) ^ ((digitCount a.num.natAbs : Int) - digitCount a.den + 1) * a.den :=
          mul_le_mul_of_nonneg_left (zpow_digitCount_le a.den_nz) (ten_zpow_pos _).le
  · apply sub_le_iff_le_add.1
    apply (le_log_iff ha).2
    apply le_of_mul_le_mul_right _ hden
    calc (10 : Rat) ^ ((digitCount a.num.natAbs : Int) - digitCount a.den - 1) * a.den
        ≤ (10 : Rat) ^ ((digitCount a.num.natAbs : Int) - digitCount a.den - 1) *
          (10 : Rat) ^ (digitCount a.den : Int) :=
          mul_le_mul_of_nonneg_left (lt_zpow_digitCount _).le (ten_zpow_pos _).le
      _ = (10 : Rat) ^ ((digitCount a.num.natAbs : Int) - 1) := ten_zpow_mul (by omega)
      _ ≤ a.num.natAbs := zpow_digitCount_le hnum_ne
      _ = a * a.den := hnum.symm

theorem leadingExponent_eq_log (ha : 0 < a) (hsize : (Int.log 10 a).natAbs + 1 < 2 ^ 32) :
    leadingExponent a = Int.log 10 a := by
  obtain ⟨hlow, hhigh⟩ := log_le_digitCounts ha
  unfold leadingExponent
  generalize (digitCount a.num.natAbs : Int) - digitCount a.den = guess at hlow hhigh ⊢
  -- The one comparison tells the two values apart that the estimate leaves.
  have hscaled : scaleByTen a (-guess) < 1 ↔ Int.log 10 a < guess := by
    rw [scaleByTen_eq (by omega), log_lt_iff ha, zpow_neg, mul_inv_lt_iff₀ (ten_zpow_pos _),
      one_mul]
  simp only [hscaled]
  split <;> omega

/-! ## The mantissa -/

/-- A positive rational with its first `n` digits in front of the point. -/
def shifted (n : Nat) (a : Rat) : Rat := a * (10 : Rat) ^ (n - 1 - Int.log 10 a)

/-- The first `n` digits of a positive rational, rounded. -/
def mantissa (n : Nat) (a : Rat) : Nat := ⌊shifted n a + 1 / 2⌋₊

theorem shifted_pos (n : Nat) (ha : 0 < a) : 0 < shifted n a := mul_pos ha (ten_zpow_pos _)

theorem shifted_bounds (n : Nat) (ha : 0 < a) :
    (10 : Rat) ^ ((n : Int) - 1) ≤ shifted n a ∧ shifted n a < (10 : Rat) ^ (n : Int) := by
  constructor
  · calc (10 : Rat) ^ ((n : Int) - 1)
        = (10 : Rat) ^ Int.log 10 a * (10 : Rat) ^ (n - 1 - Int.log 10 a) :=
          (ten_zpow_mul (by omega)).symm
      _ ≤ a * (10 : Rat) ^ (n - 1 - Int.log 10 a) :=
          mul_le_mul_of_nonneg_right ((le_log_iff ha).1 le_rfl) (ten_zpow_pos _).le
  · calc a * (10 : Rat) ^ (n - 1 - Int.log 10 a)
        < (10 : Rat) ^ (Int.log 10 a + 1) * (10 : Rat) ^ (n - 1 - Int.log 10 a) :=
          mul_lt_mul_of_pos_right ((log_lt_iff ha).1 (Int.lt_add_one_iff.2 le_rfl))
            (ten_zpow_pos _)
      _ = (10 : Rat) ^ (n : Int) := ten_zpow_mul (by omega)

/-- The mantissa has `n` digits, or is the power of ten after the last of these numbers. -/
theorem mantissa_bounds (ha : 0 < a) (hn : 0 < n) :
    10 ^ (n - 1) ≤ mantissa n a ∧ mantissa n a ≤ 10 ^ n := by
  obtain ⟨hlow, hhigh⟩ := shifted_bounds n ha
  have hpred : (n : Int) - 1 = ((n - 1 : Nat) : Int) := by omega
  rw [hpred, zpow_natCast] at hlow
  rw [zpow_natCast] at hhigh
  constructor
  · apply Nat.le_floor
    push_cast
    linarith
  · apply Nat.lt_succ_iff.1
    refine (Nat.floor_lt' (Nat.succ_ne_zero _)).2 ?_
    push_cast
    linarith

theorem roundQuotient_eq_floor (hd : 0 < d) : roundQuotient m d = ⌊(m : Rat) / d + 1 / 2⌋₊ := by
  have hden : (d : Rat) ≠ 0 := Nat.cast_ne_zero.2 (Nat.ne_of_gt hd)
  have hquotient : (m : Rat) / d + 1 / 2 = ((2 * m + d : Nat) : Rat) / ((2 * d : Nat) : Rat) := by
    push_cast
    field_simp
  rw [roundQuotient, hquotient, Nat.floor_div_eq_div]

theorem roundQuotient_eq_mantissa (ha : 0 < a) :
    roundQuotient (shifted n a).num.natAbs (shifted n a).den = mantissa n a := by
  have hden : ((shifted n a).den : Rat) ≠ 0 := Nat.cast_ne_zero.2 (shifted n a).den_nz
  rw [roundQuotient_eq_floor (shifted n a).den_pos, cast_natAbs_num,
    abs_of_pos (shifted_pos n ha), mul_div_cancel_right₀ _ hden, mantissa]

/-! ## The text -/

theorem abs_eq_abs (r : Rat) : r.abs = |r| := by
  unfold Rat.abs
  split
  · next h => exact (abs_of_nonneg h).symm
  · next h => exact (abs_of_neg (not_le.1 h)).symm

theorem roundSignificant_eq (hr : r ≠ 0) (hn : 0 < n)
    (hsize : (Int.log 10 |r|).natAbs + n < 2 ^ 32) :
    roundSignificant r n =
      if mantissa n |r| = 10 ^ n then
        layoutDigits (r < 0) (decimalDigits (10 ^ (n - 1))) (Int.log 10 |r| + 1)
      else layoutDigits (r < 0) (decimalDigits (mantissa n |r|)) (Int.log 10 |r|) := by
  have ha : 0 < |r| := abs_pos.2 hr
  have hmax : max n 1 = n := by omega
  have hwrap : Int.bmod (n - 1 - Int.log 10 |r|) (2 ^ 64) = n - 1 - Int.log 10 |r| :=
    Int.bmod_eq_of_le_mul_two (by omega) (by omega)
  have hshifted : scaleByTen |r| (n - 1 - Int.log 10 |r|) = shifted n |r| :=
    scaleByTen_eq (by omega)
  have hpow : tenPow n = 10 ^ n := tenPow_eq (by omega)
  have hpred : tenPow (n - 1) = 10 ^ (n - 1) := tenPow_eq (by omega)
  unfold roundSignificant
  rw [if_neg hr]
  simp only [hmax, abs_eq_abs, leadingExponent_eq_log ha (by omega), hwrap, hshifted, hpow, hpred,
    roundQuotient_eq_mantissa ha]

/-- The text of a mantissa denotes it, with and without a carry: the power `10 ^ n` is written as
`10 ^ (n - 1)`, one place higher. -/
theorem denotes_mantissa (negative : Bool) (e : Int) (hn : 0 < n) (hlow : 10 ^ (n - 1) ≤ m)
    (hhigh : m ≤ 10 ^ n) :
    ∃ x, DenotesDecimal
      (if m = 10 ^ n then layoutDigits negative (decimalDigits (10 ^ (n - 1))) (e + 1)
        else layoutDigits negative (decimalDigits m) e) x
      (signed negative (m * (10 : Rat) ^ (e - n + 1))) := by
  split
  · next hcarry =>
    have hlength : (decimalDigits (10 ^ (n - 1))).length = n :=
      length_decimalDigits hn (Nat.le_refl _) (Nat.pow_lt_pow_right (by decide) (by omega))
    have h := denotes_layoutDigits negative (denotes_decimalDigits (10 ^ (n - 1))) (e + 1)
    have hvalue : ((10 ^ (n - 1) : Nat) : Rat) * (10 : Rat) ^ (e + 1 + 1 - n) =
        m * (10 : Rat) ^ (e - n + 1) := by
      rw [hcarry]
      push_cast
      rw [← zpow_natCast, ← zpow_natCast, ten_zpow_mul rfl, ten_zpow_mul rfl]
      congr 1
      omega
    rw [hlength, hvalue] at h
    exact ⟨_, h⟩
  · next hcarry =>
    have hlength : (decimalDigits m).length = n := length_decimalDigits hn hlow (by omega)
    have h := denotes_layoutDigits negative (denotes_decimalDigits m) e
    have hexponent : e + 1 - (n : Int) = e - n + 1 := by omega
    rw [hlength, hexponent] at h
    exact ⟨_, h⟩

theorem signed_eq_sign_mul (hr : r ≠ 0) (v : Rat) :
    signed (r < 0) v = SignType.sign r * v := by
  unfold signed
  rcases lt_or_gt_of_ne hr with hneg | hpos
  · simp [hneg]
  · simp [hpos, not_lt.2 hpos.le]

theorem nearestSignificant_eq (hr : r ≠ 0) (n : Nat) :
    nearestSignificant n r =
      signed (r < 0) (mantissa n |r| * (10 : Rat) ^ (Int.log 10 |r| - n + 1)) := by
  have hfloor : (mantissa n |r| : Rat) = ⌊shifted n |r| + 1 / 2⌋ := by
    apply natCast_floor_eq_intCast_floor
    have hpos := shifted_pos n (abs_pos.2 hr)
    linarith
  rw [signed_eq_sign_mul hr, hfloor, ← mul_assoc]
  rfl

/-- **The approximate text of a rational** is the rational rounded to significant digits. -/
theorem denotes_roundSignificant (r : Rat) (n : Nat) (hr : r ≠ 0) (hn : 0 < n)
    (hsize : (Int.log 10 |r|).natAbs + n < 2 ^ 32) :
    ∃ x, DenotesDecimal (roundSignificant r n) x (nearestSignificant n r) := by
  obtain ⟨hlow, hhigh⟩ := mantissa_bounds (abs_pos.2 hr) hn
  rw [roundSignificant_eq hr hn hsize, nearestSignificant_eq hr]
  exact denotes_mantissa (r < 0) (Int.log 10 |r|) hn hlow hhigh

/-- Nines that are carried through all digits, and from scientific layout into plain one. -/
theorem denotes_carried_nines :
    (-99996 / 10 ^ 11 : Rat) ≠ 0 ∧ 0 < 3 ∧
      (Int.log 10 |(-99996 / 10 ^ 11 : Rat)|).natAbs + 3 < 2 ^ 32 ∧
      ∃ x, DenotesDecimal "-0.000001".toList x (nearestSignificant 3 (-99996 / 10 ^ 11)) := by
  have hne : (-99996 / 10 ^ 11 : Rat) ≠ 0 := by norm_num
  have hlog : Int.log 10 |(-99996 / 10 ^ 11 : Rat)| = -7 := by decide +kernel
  have hsize : (Int.log 10 |(-99996 / 10 ^ 11 : Rat)|).natAbs + 3 < 2 ^ 32 := by
    rw [hlog]
    decide
  have htext : roundSignificant (-99996 / 10 ^ 11) 3 = "-0.000001".toList := by decide +kernel
  refine ⟨hne, by decide, hsize, ?_⟩
  rw [← htext]
  exact denotes_roundSignificant (-99996 / 10 ^ 11) 3 hne (by decide) hsize

/-! ## Too many digits -/

/-- A rational that has no more than `n` digits is not changed. -/
theorem nearestSignificant_of_integer {z : Int} (hz : shifted n |r| = z) :
    nearestSignificant n r = r := by
  have hfloor : ⌊(z : Rat) + 1 / 2⌋ = z := by
    rw [Int.floor_eq_iff]
    constructor <;> linarith
  have hcancel : (10 : Rat) ^ (n - 1 - Int.log 10 |r|) * (10 : Rat) ^ (Int.log 10 |r| - n + 1) =
      (10 : Rat) ^ (0 : Int) := ten_zpow_mul (by omega)
  unfold shifted at hz
  rw [nearestSignificant, hz, hfloor, ← hz, mul_assoc, mul_assoc, hcancel, zpow_zero, mul_one,
    sign_mul_abs]

theorem nearestSignificant_quarter (hn : 2 ≤ n) : nearestSignificant n (1 / 4) = 1 / 4 := by
  obtain ⟨k, rfl⟩ := Nat.exists_eq_add_of_le hn
  have habs : |(1 / 4 : Rat)| = 1 / 4 := abs_of_pos (by norm_num)
  have hlow : -1 ≤ Int.log 10 |(1 / 4 : Rat)| := (le_log_iff (by norm_num)).2 (by norm_num)
  have hhigh : Int.log 10 |(1 / 4 : Rat)| < 0 := (log_lt_iff (by norm_num)).2 (by norm_num)
  have hlog : Int.log 10 |(1 / 4 : Rat)| = -1 := by omega
  apply nearestSignificant_of_integer (z := 25 * 10 ^ k)
  have hexponent : ((2 + k : Nat) : Int) - 1 - -1 = ((2 + k : Nat) : Int) := by omega
  rw [shifted, hlog, hexponent, zpow_natCast, pow_add, habs]
  push_cast
  ring

/-- With `2 ^ 32 + 1` digits, a quarter is written as if one digit were asked for. -/
theorem roundSignificant_cut :
    roundSignificant (1 / 4) (2 ^ 32 + 1) = "0.3".toList ∧
      nearestSignificant (2 ^ 32 + 1) (1 / 4) = 1 / 4 ∧
      ∀ x, ¬ DenotesDecimal (roundSignificant (1 / 4) (2 ^ 32 + 1)) x
        (nearestSignificant (2 ^ 32 + 1) (1 / 4)) := by
  have htext : roundSignificant (1 / 4) (2 ^ 32 + 1) = "0.3".toList := by decide +kernel
  have hnearest : nearestSignificant (2 ^ 32 + 1) (1 / 4) = 1 / 4 :=
    nearestSignificant_quarter (by decide)
  refine ⟨htext, hnearest, fun x hdenotes => ?_⟩
  rw [htext, hnearest] at hdenotes
  have hexponent : exponentOf? "0.3".toList = some 0 := by decide +kernel
  obtain rfl : x = 0 := Option.some.inj (hdenotes.exponentOf?.symm.trans hexponent)
  have hread : readDecimal? "0.3".toList = some (1 / 4) :=
    (BoundedDecimal.of_plain hdenotes).read
  exact absurd hread (by decide +kernel)

end Reckoner.Number
