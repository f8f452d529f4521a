import Reckoner.Proofs.Number.Negation
import Reckoner.Proofs.Number.Renderings

/-!
# Rounding to a precision

What decimal operations make of the values of their operands. Rounding a significand is rounding its
value to significant digits (`toRat_rounded`), and so is a product the nearest decimal to the exact
one (`toRat_mul`). Whether a decimal stays as it is under such a rounding can be read off its digit
count (`nearestSignificant_toRat_iff`). A quotient is rounded in another place, where it can have
one digit more (`digits_div_le`).

What they have in common is the error. Each of them goes to the nearest integer in front of a point
that `p` digits or more are in front of (`Rounded`), so that it is not off by more than half a unit
in the last of `p` digits, relative to a number whose leading digit is a one (`Rounded.abs_sub_le`),
and by less than that if a one is all there is to the leading digits (`Rounded.abs_sub_le_div`).
-/

namespace Reckoner

/-- `y` is `x`, brought to the nearest multiple of a unit that `x` is at least `10 ^ (p - 1)` of. -/
inductive Rounded (p : Nat) (x : Rat) : Rat → Prop
  | same : Rounded p x x
  | nearest (unit t : Rat) (m : Nat) (value : x = unit * t)
      (digits : (10 : Rat) ^ (p - 1 : Int) ≤ t) (close : |(m : Rat) - t| ≤ 1 / 2) :
      Rounded p x (unit * m)

namespace Rounded

open Number (ten_zpow_mul ten_zpow_pos)

variable {p q : Nat} {x y : Rat}

theorem mono (hpq : p ≤ q) (h : Rounded q x y) : Rounded p x y := by
  cases h with
  | same => exact .same
  | nearest unit t m value digits close =>
    have hpower : (10 : Rat) ^ (p - 1 : Int) ≤ (10 : Rat) ^ (q - 1 : Int) :=
      zpow_le_zpow_right₀ (by decide) (by omega)
    exact .nearest unit t m value (hpower.trans digits) close

theorem neg (h : Rounded p x y) : Rounded p (-x) (-y) := by
  cases h with
  | same => exact .same
  | nearest unit t m value digits close =>
    rw [← neg_mul]
    exact .nearest (-unit) t m (by rw [value, neg_mul]) digits close

/-- A bound on the error in front of the point is one on the relative error. -/
theorem abs_sub_le_mul {bound : Rat} (hbound : 0 ≤ bound)
    (hfront : ∀ (t : Rat) (m : Nat), (10 : Rat) ^ (p - 1 : Int) ≤ t → |(m : Rat) - t| ≤ 1 / 2 →
      |(m : Rat) - t| ≤ t * bound) (h : Rounded p x y) : |y - x| ≤ |x| * bound := by
  cases h with
  | same =>
    rw [sub_self, abs_zero]
    exact mul_nonneg (abs_nonneg x) hbound
  | nearest unit t m value digits close =>
    have ht : 0 < t := (ten_zpow_pos _).trans_le digits
    rw [value, ← mul_sub, abs_mul, abs_mul, abs_of_pos ht, mul_assoc]
    exact mul_le_mul_of_nonneg_left (hfront t m digits close) (abs_nonneg unit)

/-- Half a unit in the last of `p` digits. -/
theorem abs_sub_le (h : Rounded p x y) : |y - x| ≤ |x| * (10 : Rat) ^ (1 - p : Int) / 2 := by
  rw [mul_div_assoc]
  apply h.abs_sub_le_mul (div_nonneg (ten_zpow_pos _).le zero_le_two)
  intro t m digits close
  have hone : 1 ≤ t * (10 : Rat) ^ (1 - p : Int) := by
    calc (1 : Rat) = (10 : Rat) ^ (p - 1 : Int) * (10 : Rat) ^ (1 - p : Int) := by
          rw [ten_zpow_mul (k := 0) (by omega), zpow_zero]
      _ ≤ t * (10 : Rat) ^ (1 - p : Int) := mul_le_mul_of_nonneg_right digits (ten_zpow_pos _).le
  linarith

/-- The error in front of the point is less than one half as long as the number is less than one
half above a power of ten, and relative to it anything larger is off by less. -/
theorem abs_sub_le_div (hp : 0 < p) (h : Rounded p x y) :
    |y - x| ≤ |x| * (1 / (2 * (10 : Rat) ^ (p - 1 : Int) + 1)) := by
  apply h.abs_sub_le_mul (by positivity)
  intro t m digits close
  have hpower : (10 : Rat) ^ (p - 1 : Int) = ((10 ^ (p - 1) : Nat) : Rat) := by
    have hpred : (p : Int) - 1 = ((p - 1 : Nat) : Int) := by omega
    rw [hpred, zpow_natCast, Nat.cast_pow, Nat.cast_ofNat]
  rw [hpower] at digits ⊢
  generalize 10 ^ (p - 1) = n at *
  have hn : (0 : Rat) < 2 * n + 1 := by positivity
  rw [mul_one_div, le_div_iff₀ hn]
  obtain ⟨hlow, hhigh⟩ := abs_le.1 close
  by_cases ht : t < n + 1 / 2
  · -- The integer is the power of ten itself.
    have hm : m = n := by
      have hle : (m : Rat) < (n + 1 : Nat) := by
        push_cast
        linarith
      have hge : (n : Rat) < (m + 1 : Nat) := by
        push_cast
        linarith
      have := Nat.cast_lt.1 hle
      have := Nat.cast_lt.1 hge
      omega
    rw [hm, abs_sub_comm, abs_of_nonneg (by linarith)]
    nlinarith
  · nlinarith

end Rounded

namespace Number

variable {r : Rat} {m n : Nat} {e : Int}

theorem nearestSignificant_neg (n : Nat) (r : Rat) :
    nearestSignificant n (-r) = -nearestSignificant n r := by
  rw [nearestSignificant, nearestSignificant, abs_neg, Left.sign_neg, SignType.coe_neg]
  ring

@[simp]
theorem nearestSignificant_zero (n : Nat) : nearestSignificant n 0 = 0 := by
  simp [nearestSignificant]

theorem nearestSignificant_of_pos (hr : 0 < r) (n : Nat) :
    nearestSignificant n r = mantissa n r * (10 : Rat) ^ (Int.log 10 r - n + 1) := by
  rw [nearestSignificant_eq hr.ne', abs_of_pos hr]
  simp [signed, hr.le]

/-- What is behind the point does not move the leading digit. -/
theorem log_natCast_add {x : Rat} (hm : m ≠ 0) (hx : 0 ≤ x) (hlt : x < 1) :
    Int.log 10 ((m : Rat) + x) = Text.digitCount m - 1 := by
  have hpos : (0 : Rat) < m := Nat.cast_pos.2 (Nat.pos_of_ne_zero hm)
  have hsucc : ((m + 1 : Nat) : Rat) ≤ (10 : Rat) ^ (Text.digitCount m : Int) := by
    rw [zpow_natCast]
    exact_mod_cast Text.lt_pow_digitCount m
  push_cast at hsucc
  apply le_antisymm
  · have hlog := (log_lt_iff (k := Text.digitCount m) (add_pos_of_pos_of_nonneg hpos hx)).2
      (by linarith)
    omega
  · apply (le_log_iff (add_pos_of_pos_of_nonneg hpos hx)).2
    linarith [zpow_digitCount_le hm]

/-- Rounding digits `m` at any place. -/
theorem nearestSignificant_natCast (hm : m ≠ 0) (n : Nat) (e : Int) :
    nearestSignificant n (m * (10 : Rat) ^ e) =
      mantissa n m * (10 : Rat) ^ (e + Text.digitCount m - n) := by
  have hpos : (0 : Rat) < m := Nat.cast_pos.2 (Nat.pos_of_ne_zero hm)
  have hexponent : (Text.digitCount m : Int) - 1 + e - n + 1 = e + Text.digitCount m - n := by omega
  rw [nearestSignificant_of_pos (mul_pos hpos (ten_zpow_pos e)), mantissa_mul_zpow hpos,
    log_mul_zpow hpos, log_natCast hm, hexponent]

/-- Digits that fit are kept. -/
theorem nearestSignificant_of_digitCount_le (h : Text.digitCount m ≤ n) (e : Int) :
    nearestSignificant n (m * (10 : Rat) ^ e) = m * (10 : Rat) ^ e := by
  by_cases hm : m = 0
  · simp [hm]
  · have hexponent : ((n - Text.digitCount m : Nat) : Int) + (e + Text.digitCount m - n) = e := by
      omega
    rw [nearestSignificant_natCast hm, mantissa_of_digitCount_le hm h, ← ten_zpow_mul hexponent,
      zpow_natCast]
    push_cast
    ring

/-- Behind the digits of `m`, a rest that is less than one half is not seen. -/
theorem mantissa_natCast_add_of_fits {x : Rat} (hm : m ≠ 0) (hx : 0 ≤ x) (hlt : x < 1)
    (hsmall : 2 * x * (10 : Rat) ^ n < (10 : Rat) ^ Text.digitCount m)
    (hfits : Text.digitCount m ≤ n) : mantissa n (m + x) = mantissa n m := by
  have hlog := log_natCast_add hm hx hlt
  obtain ⟨k, hk⟩ := Nat.exists_eq_add_of_le hfits
  have hexponent : (n : Int) - 1 - (Text.digitCount m - 1) = (k : Int) := by omega
  have hrest : 2 * x * (10 : Rat) ^ k < 1 := by
    have hpow : (0 : Rat) < (10 : Rat) ^ Text.digitCount m := pow_pos (by decide) _
    rw [hk, pow_add] at hsmall
    nlinarith
  have hrest_nonneg : 0 ≤ x * (10 : Rat) ^ k := mul_nonneg hx (pow_pos (by decide) k).le
  rw [mantissa_of_digitCount_le hm hfits, mantissa, shifted, hlog, hexponent, zpow_natCast,
    Nat.sub_eq_of_eq_add' hk]
  apply (Nat.floor_eq_iff (by positivity)).2
  push_cast
  constructor <;> linarith

/-- A rest below the last digit of `m` is dropped with the digits of `m` that are. These count an
even number, of which the half is added. -/
theorem mantissa_natCast_add_of_dropped {x : Rat} (hm : m ≠ 0) (hx : 0 ≤ x) (hlt : x < 1)
    (hdropped : n < Text.digitCount m) : mantissa n (m + x) = mantissa n m := by
  have hlog := log_natCast_add hm hx hlt
  obtain ⟨k, hk⟩ : ∃ k, Text.digitCount m = n + (k + 1) :=
    ⟨Text.digitCount m - n - 1, by omega⟩
  have hexponent : (n : Int) - 1 - (Text.digitCount m - 1) = -((k + 1 : Nat) : Int) := by omega
  have heven : 10 ^ (k + 1) = 2 * (5 * 10 ^ k) := by rw [Nat.pow_succ]; omega
  have hfloor : ⌊((m + 5 * 10 ^ k : Nat) : Rat) + x⌋₊ = m + 5 * 10 ^ k := by
    apply (Nat.floor_eq_iff (by positivity)).2
    constructor <;> linarith
  have hquotient : ((m : Rat) + x) * ((10 : Rat) ^ (k + 1))⁻¹ + 1 / 2 =
      (((m + 5 * 10 ^ k : Nat) : Rat) + x) / ((10 ^ (k + 1) : Nat) : Rat) := by
    push_cast
    rw [pow_succ]
    field_simp
    ring
  rw [mantissa_of_lt_digitCount hm hdropped, mantissa, shifted, hlog, hexponent, zpow_neg,
    zpow_natCast, hquotient, Nat.floor_div_natCast, hfloor, Nat.sub_eq_of_eq_add' hk,
    roundQuotient, heven, ← Nat.mul_add, Nat.mul_div_mul_left _ _ two_pos]

theorem mantissa_natCast_add {x : Rat} (hm : m ≠ 0) (hx : 0 ≤ x) (hlt : x < 1)
    (hsmall : 2 * x * (10 : Rat) ^ n < (10 : Rat) ^ Text.digitCount m) :
    mantissa n (m + x) = mantissa n m := by
  by_cases hfits : Text.digitCount m ≤ n
  · exact mantissa_natCast_add_of_fits hm hx hlt hsmall hfits
  · exact mantissa_natCast_add_of_dropped hm hx hlt (not_le.1 hfits)

/-- What is too far below the digits that are kept does not matter. -/
theorem nearestSignificant_natCast_add {x : Rat} (hm : m ≠ 0) (hx : 0 ≤ x) (hlt : x < 1)
    (hsmall : 2 * x * (10 : Rat) ^ n < (10 : Rat) ^ Text.digitCount m) (e : Int) :
    nearestSignificant n ((m + x) * (10 : Rat) ^ e) =
      nearestSignificant n (m * (10 : Rat) ^ e) := by
  have hpos : (0 : Rat) < m := Nat.cast_pos.2 (Nat.pos_of_ne_zero hm)
  have hpos_add : (0 : Rat) < m + x := add_pos_of_pos_of_nonneg hpos hx
  rw [nearestSignificant_of_pos (mul_pos hpos_add (ten_zpow_pos e)),
    nearestSignificant_of_pos (mul_pos hpos (ten_zpow_pos e)), mantissa_mul_zpow hpos_add,
    mantissa_mul_zpow hpos, log_mul_zpow hpos_add, log_mul_zpow hpos,
    mantissa_natCast_add hm hx hlt hsmall, log_natCast_add hm hx hlt, log_natCast hm]

theorem abs_floor_add_half_sub_le {y : Rat} (hy : 0 ≤ y) :
    |((⌊y + 1 / 2⌋₊ : Nat) : Rat) - y| ≤ 1 / 2 := by
  have hlow := Nat.floor_le (a := y + 1 / 2) (by linarith)
  have hhigh := Nat.lt_floor_add_one (y + 1 / 2)
  rw [abs_le]
  constructor <;> linarith

theorem rounded_nearestSignificant (n : Nat) (r : Rat) : Rounded n r (nearestSignificant n r) := by
  have hpositive : ∀ a : Rat, 0 < a → Rounded n a (nearestSignificant n a) := by
    intro a ha
    have hscale : a = (10 : Rat) ^ (Int.log 10 a - n + 1) * shifted n a := by
      rw [shifted, mul_left_comm, ten_zpow_mul (k := 0) (by omega), zpow_zero, mul_one]
    have hdigits : (10 : Rat) ^ (n - 1 : Int) ≤ shifted n a := by
      rw [shifted, ← ten_zpow_mul (i := Int.log 10 a) (j := n - 1 - Int.log 10 a) (by omega)]
      exact mul_le_mul_of_nonneg_right ((le_log_iff ha).1 le_rfl) (ten_zpow_pos _).le
    rw [nearestSignificant_of_pos ha, mul_comm]
    exact .nearest _ _ _ hscale hdigits (abs_floor_add_half_sub_le (shifted_pos n ha).le)
  rcases lt_trichotomy r 0 with hr | rfl | hr
  · have h := (hpositive (-r) (neg_pos.2 hr)).neg
    rwa [nearestSignificant_neg, neg_neg, neg_neg] at h
  · rw [nearestSignificant_zero]
    exact .same
  · exact hpositive r hr

end Number

namespace Decimal

open Number (nearestSignificant nearestSignificant_neg nearestSignificant_zero mantissa ten_zpow_mul
  ten_zpow_pos)

open Text (digitCount digitCount_le_iff)

variable {a b d : Decimal} {s e : Int} {p : Nat}

theorem toRat_ofScaled (s e : Int) (p : Nat) : (ofScaled s e p).toRat = s * (10 : Rat) ^ e := by
  unfold ofScaled
  split
  · next hs => simp [toRat, hs]
  · next hs =>
    have hdigits := stripZeros_mul_pow s.natAbs
    have hsign : (s.sign : Rat) * (s.natAbs : Rat) = s := by
      rw [← Int.cast_natCast s.natAbs, ← Int.cast_mul, Int.sign_mul_natAbs]
    have hstripped : (s.natAbs : Rat) =
        (stripZeros s.natAbs).1 * (10 : Rat) ^ ((stripZeros s.natAbs).2 : Int) := by
      rw [zpow_natCast]
      exact_mod_cast hdigits.symm
    rw [← hsign, hstripped, toRat, mul_assoc, mul_assoc, ten_zpow_mul (add_comm _ e)]
    push_cast
    ring

theorem toRat_rounded (hp : 0 < p) (s e : Int) :
    (rounded p s e).toRat = nearestSignificant p (s * (10 : Rat) ^ e) := by
  have hnat : ∀ m : Nat, (rounded p m e).toRat = nearestSignificant p (m * (10 : Rat) ^ e) := by
    intro m
    by_cases hfits : Text.digitCount m ≤ p
    · have hexcess : Text.digitCount m - p = 0 := by omega
      rw [Number.nearestSignificant_of_digitCount_le hfits]
      simp only [rounded, Int.natAbs_natCast, hexcess, or_true, if_true, toRat_ofScaled,
        Int.cast_natCast]
    · have hm : m ≠ 0 := by
        rintro rfl
        rw [Text.digitCount_zero] at hfits
        omega
      have hround : ¬ (p = 0 ∨ Text.digitCount m - p = 0) := by omega
      have hexponent : e + ((Text.digitCount m - p : Nat) : Int) = e + Text.digitCount m - p := by
        omega
      rw [Number.nearestSignificant_natCast hm, Number.mantissa_of_lt_digitCount hm (by omega)]
      simp only [rounded, Int.natAbs_natCast, if_neg hround, toRat_ofScaled, hexponent,
        Int.sign_natCast_of_ne_zero hm, Int.one_mul, Int.cast_natCast]
  obtain ⟨m, rfl | rfl⟩ := Int.eq_nat_or_neg s
  · exact hnat m
  · rw [rounded_neg, toRat_neg, hnat, Int.cast_neg, Int.cast_natCast]
    rw [← nearestSignificant_neg]
    congr 1
    ring

/-- A value that is rounded to fewer digits than it has changes: a normal significand does not end
in the zeros that rounding leaves. -/
theorem nearestSignificant_toRat_iff (hp : 0 < p) :
    nearestSignificant p d.toRat = d.toRat ↔ d.digits ≤ p := by
  have hnat : ∀ (m : Nat) (e : Int), (m ≠ 0 → m % 10 ≠ 0) →
      (nearestSignificant p (m * (10 : Rat) ^ e) = m * (10 : Rat) ^ e ↔ digitCount m ≤ p) := by
    intro m e hnormal
    refine ⟨fun hsame => ?_, fun h => Number.nearestSignificant_of_digitCount_le h e⟩
    by_contra hlt
    have hm : m ≠ 0 := by
      rintro rfl
      rw [Text.digitCount_zero] at hlt
      omega
    obtain ⟨k, hk⟩ : ∃ k, digitCount m = p + (k + 1) := ⟨digitCount m - p - 1, by omega⟩
    have hexponent : ((k + 1 : Nat) : Int) + e = e + digitCount m - p := by omega
    rw [Number.nearestSignificant_natCast hm, ← ten_zpow_mul hexponent, zpow_natCast, ← mul_assoc]
      at hsame
    have hzeros : mantissa p m * 10 ^ (k + 1) = m := by
      exact_mod_cast mul_right_cancel₀ (ten_zpow_pos e).ne' hsame
    rw [Nat.pow_succ, ← Nat.mul_assoc] at hzeros
    have := hnormal hm
    omega
  have hnormal : d.significand.natAbs ≠ 0 → d.significand.natAbs % 10 ≠ 0 := by
    rcases d.normal with h | h <;> omega
  rw [digits, ← hnat _ d.exponent hnormal, toRat]
  rcases Int.natAbs_eq d.significand with habs | habs
  · rw [habs, Int.cast_natCast, Int.natAbs_natCast]
  · rw [habs, Int.cast_neg, Int.cast_natCast, Rat.neg_mul, nearestSignificant_neg, neg_inj,
      Int.natAbs_neg, Int.natAbs_natCast]

/-- A decimal is brought to a precision by rounding, but only if its own precision is larger. -/
theorem toRat_withPrecision (d : Decimal) (p : Nat) :
    (d.withPrecision p).toRat =
      if d.precision ≤ max p 1 then d.toRat else nearestSignificant (max p 1) d.toRat := by
  unfold withPrecision
  by_cases h : d.precision ≤ max p 1
  · rw [if_neg (not_lt.2 h), if_pos h]
    rfl
  · rw [if_pos (not_le.1 h), if_neg h]
    exact toRat_rounded (by omega) _ _

/-- A product is the exact one, rounded. -/
theorem toRat_mul (h : 0 < max a.precision b.precision) :
    (a.mul b).toRat = nearestSignificant (max a.precision b.precision) (a.toRat * b.toRat) := by
  rw [mul, toRat_rounded h, toRat, toRat, ← ten_zpow_mul (rfl : a.exponent + b.exponent = _)]
  push_cast
  congr 1
  ring

/-! ## Quotients -/

/-- A quotient is exact, or its dividend is widened until the integer quotient has `p` digits, and
not by more than that leads to `p + 1` digits. -/
inductive IsQuotient (p n d : Nat) (sign : Int) (e : Int) : Decimal → Prop
  | whole (q : Nat) (exact : n = q * d) : IsQuotient p n d sign e (ofScaled (sign * q) e p)
  | rounded (shift : Nat) (wide : d * 10 ^ (p - 1) ≤ n * 10 ^ shift)
      (narrow : Text.digitCount n ≤ p → n * 10 ^ shift < d * 10 ^ (p + 1)) :
      IsQuotient p n d sign e (ofScaled (sign * roundQuotient (n * 10 ^ shift) d) (e - shift) p)

/-! The digits of an integer quotient are counted by those of its operands. -/

section Widened

variable {n d : Nat}

theorem wide_of_lt (hp : 0 < p) (hn : n ≠ 0) (h : n < d) :
    d * 10 ^ (p - 1) ≤ n * 10 ^ (digitCount d + p - digitCount n) := by
  have hcount := Text.digitCount_ne_zero hn
  calc d * 10 ^ (p - 1) ≤ 10 ^ digitCount d * 10 ^ (p - 1) :=
        Nat.mul_le_mul_right _ (Text.lt_pow_digitCount d).le
    _ ≤ 10 ^ (digitCount n - 1) * 10 ^ (digitCount d + p - digitCount n) := by
        have hle : digitCount n ≤ digitCount d :=
          digitCount_le_iff.2 (h.trans (Text.lt_pow_digitCount d))
        rw [← Nat.pow_add, ← Nat.pow_add]
        apply Nat.pow_le_pow_right (by decide)
        omega
    _ ≤ n * 10 ^ (digitCount d + p - digitCount n) :=
        Nat.mul_le_mul_right _ (Text.pow_digitCount_le hn)

theorem wide_of_le (hd : d ≠ 0) (h : d ≤ n) :
    d * 10 ^ (p - 1) ≤ n * 10 ^ (p - digitCount (n / d)) := by
  have hq : n / d ≠ 0 := Nat.div_ne_zero_iff.2 ⟨hd, h⟩
  have hcount := Text.digitCount_ne_zero hq
  calc d * 10 ^ (p - 1)
      ≤ d * (10 ^ (digitCount (n / d) - 1) * 10 ^ (p - digitCount (n / d))) := by
        rw [← Nat.pow_add]
        exact Nat.mul_le_mul_left _ (Nat.pow_le_pow_right (by decide) (by omega))
    _ ≤ d * (n / d * 10 ^ (p - digitCount (n / d))) :=
        Nat.mul_le_mul_left _ (Nat.mul_le_mul_right _ (Text.pow_digitCount_le hq))
    _ ≤ n * 10 ^ (p - digitCount (n / d)) := by
        rw [← Nat.mul_assoc]
        exact Nat.mul_le_mul_right _ (Nat.mul_div_le n d)

theorem narrow_of_lt (hd : d ≠ 0) (h : n < d) :
    n * 10 ^ (digitCount d + p - digitCount n) < d * 10 ^ (p + 1) := by
  have hcount := Text.digitCount_ne_zero hd
  have hle : digitCount n ≤ digitCount d :=
    digitCount_le_iff.2 (h.trans (Text.lt_pow_digitCount d))
  calc n * 10 ^ (digitCount d + p - digitCount n)
      < 10 ^ digitCount n * 10 ^ (digitCount d + p - digitCount n) :=
        Nat.mul_lt_mul_of_pos_right (Text.lt_pow_digitCount n) (Nat.pow_pos (by decide))
    _ = 10 ^ (digitCount d - 1) * 10 ^ (p + 1) := by
        rw [← Nat.pow_add, ← Nat.pow_add]
        congr 1
        omega
    _ ≤ d * 10 ^ (p + 1) := Nat.mul_le_mul_right _ (Text.pow_digitCount_le hd)

theorem narrow_of_fits (hd : d ≠ 0) (h : digitCount n ≤ p) :
    n * 10 ^ (p - digitCount (n / d)) < d * 10 ^ (p + 1) := by
  have hle : digitCount (n / d) ≤ p :=
    digitCount_le_iff.2 ((Nat.div_le_self n d).trans_lt (digitCount_le_iff.1 h))
  calc n * 10 ^ (p - digitCount (n / d)) < d * (n / d + 1) * 10 ^ (p - digitCount (n / d)) :=
        Nat.mul_lt_mul_of_pos_right (Nat.lt_mul_div_succ n (Nat.pos_of_ne_zero hd))
          (Nat.pow_pos (by decide))
    _ ≤ d * 10 ^ digitCount (n / d) * 10 ^ (p - digitCount (n / d)) :=
        Nat.mul_le_mul_right _ (Nat.mul_le_mul_left _ (Text.lt_pow_digitCount (n / d)))
    _ = d * 10 ^ p := by
        rw [Nat.mul_assoc, ← Nat.pow_add]
        congr 2
        omega
    _ ≤ d * 10 ^ (p + 1) :=
        Nat.mul_le_mul_left _ (Nat.pow_le_pow_right (by decide) (Nat.le_succ p))

end Widened

theorem isQuotient_div (hb : b.significand ≠ 0) (hp : 0 < max a.precision b.precision) :
    IsQuotient (max a.precision b.precision) a.significand.natAbs b.significand.natAbs
      (a.significand * b.significand).sign (a.exponent - b.exponent) (a.div b) := by
  have hd := Int.natAbs_ne_zero.2 hb
  unfold div
  simp only [← Int.sign_mul]
  generalize a.significand.natAbs = n
  generalize b.significand.natAbs = d at *
  split
  · next hdvd => exact .whole _ (Nat.div_mul_cancel (Nat.dvd_of_mod_eq_zero hdvd)).symm
  · next hdvd =>
    split
    · next hlt =>
      have hn : n ≠ 0 := by
        rintro rfl
        exact hdvd (Nat.zero_mod d)
      rw [Nat.mod_eq_of_lt hlt]
      exact .rounded _ (wide_of_lt hp hn hlt) fun _ => narrow_of_lt hd hlt
    · next hge => exact .rounded _ (wide_of_le hd (Nat.le_of_not_lt hge)) (narrow_of_fits hd)

theorem toRat_div_toRat (a b : Decimal) :
    a.toRat / b.toRat = (a.significand * b.significand).sign *
      ((a.significand.natAbs : Rat) / b.significand.natAbs) *
      (10 : Rat) ^ (a.exponent - b.exponent) := by
  have hsplit : a.toRat / b.toRat = (a.significand : Rat) / b.significand *
      (10 : Rat) ^ (a.exponent - b.exponent) := by
    rw [toRat, toRat, zpow_sub₀ (by decide), mul_div_mul_comm]
  have hsign : ((b.significand.sign : Rat))⁻¹ = b.significand.sign := by
    rcases lt_trichotomy b.significand 0 with h | h | h
    · rw [Int.sign_eq_neg_one_of_neg h]
      norm_num
    · rw [h]
      norm_num
    · rw [Int.sign_eq_one_of_pos h]
      norm_num
  have hvalue : ∀ s : Int, (s : Rat) = s.sign * (s.natAbs : Rat) := by
    intro s
    rw [← Int.cast_natCast s.natAbs, ← Int.cast_mul, Int.sign_mul_natAbs]
  rw [hsplit, hvalue a.significand, hvalue b.significand, mul_div_mul_comm, Int.sign_mul,
    Int.cast_mul, div_eq_mul_inv (a.significand.sign : Rat), hsign]

theorem abs_roundQuotient_sub_le {m k : Nat} (hk : 0 < k) :
    |(roundQuotient m k : Rat) - m / k| ≤ 1 / 2 := by
  rw [Number.roundQuotient_eq_floor hk]
  exact Number.abs_floor_add_half_sub_le (by positivity)

theorem rounded_div (hb : b.significand ≠ 0) (hp : 0 < max a.precision b.precision) :
    Rounded (max a.precision b.precision) (a.toRat / b.toRat) (a.div b).toRat := by
  have hquotient := isQuotient_div hb hp
  have hd := Nat.pos_of_ne_zero (Int.natAbs_ne_zero.2 hb)
  rw [toRat_div_toRat]
  generalize a.div b = c at hquotient ⊢
  generalize a.significand.natAbs = n at *
  generalize b.significand.natAbs = d at *
  generalize a.exponent - b.exponent = e at *
  generalize (a.significand * b.significand).sign = sign at *
  generalize max a.precision b.precision = p at *
  have hd0 : (0 : Rat) < d := Nat.cast_pos.2 hd
  cases hquotient with
  | whole q exact =>
    have hcancel : (n : Rat) / d = q := by
      rw [exact, Nat.cast_mul, mul_div_cancel_right₀ _ hd0.ne']
    rw [toRat_ofScaled, hcancel, Int.cast_mul, Int.cast_natCast]
    exact .same
  | rounded shift wide narrow =>
    have hshift : (sign : Rat) * ((n : Rat) / d) * (10 : Rat) ^ e =
        sign * (10 : Rat) ^ (e - shift) * (((n * 10 ^ shift : Nat) : Rat) / d) := by
      rw [zpow_sub₀ (by decide), zpow_natCast]
      push_cast
      field_simp
    have hdigits : (10 : Rat) ^ (p - 1 : Int) ≤ ((n * 10 ^ shift : Nat) : Rat) / d := by
      have hpred : (p : Int) - 1 = ((p - 1 : Nat) : Int) := by omega
      rw [le_div_iff₀ hd0, hpred, zpow_natCast, mul_comm]
      exact_mod_cast wide
    rw [toRat_ofScaled, Int.cast_mul, Int.cast_natCast,
      mul_right_comm (sign : Rat) (roundQuotient _ _ : Rat)]
    exact .nearest _ _ _ hshift hdigits (abs_roundQuotient_sub_le hd)

/-- What is not above a power of ten has no more digits when its zeros are gone. -/
theorem digits_ofScaled_le {k : Nat} (hk : k ≠ 0) (h : s.natAbs ≤ 10 ^ k) :
    (ofScaled s e p).digits ≤ k := by
  by_cases hs : s = 0
  · rw [hs, ofScaled, dif_pos rfl, digits, Int.natAbs_zero, Text.digitCount_zero]
    exact Nat.zero_le k
  · have habs : (ofScaled s e p).significand.natAbs = (stripZeros s.natAbs).1 := by
      rw [ofScaled, dif_neg hs, Int.natAbs_mul, Int.natAbs_natCast, Int.natAbs_sign_of_ne_zero hs,
        Nat.one_mul]
    have hmod : (stripZeros s.natAbs).1 % 10 ≠ 0 := stripAll_fst_mod (Int.natAbs_ne_zero.2 hs)
    have hle : (stripZeros s.natAbs).1 ≤ 10 ^ k :=
      (Nat.le_of_dvd (Nat.pos_of_ne_zero (Int.natAbs_ne_zero.2 hs))
        (Dvd.intro _ (stripZeros_mul_pow s.natAbs))).trans h
    rw [digits, habs, digitCount_le_iff]
    refine lt_of_le_of_ne hle fun hpow => hmod ?_
    rw [hpow]
    exact Nat.mod_eq_zero_of_dvd (dvd_pow_self 10 hk)

theorem digits_div_le (hb : b.significand ≠ 0) (hp : 0 < max a.precision b.precision)
    (ha : a.digits ≤ max a.precision b.precision) :
    (a.div b).digits ≤ max a.precision b.precision + 1 := by
  have hquotient := isQuotient_div hb hp
  have hd := Nat.pos_of_ne_zero (Int.natAbs_ne_zero.2 hb)
  rw [digits, digitCount_le_iff] at ha
  generalize a.div b = c at hquotient ⊢
  generalize a.significand.natAbs = n at *
  generalize b.significand.natAbs = d at *
  generalize max a.precision b.precision = p at *
  have hsign : ∀ q : Nat, ((a.significand * b.significand).sign * (q : Int)).natAbs ≤ q := by
    intro q
    have hle : (a.significand * b.significand).sign.natAbs ≤ 1 := by
      rw [Int.natAbs_sign]
      split <;> decide
    rw [Int.natAbs_mul, Int.natAbs_natCast]
    exact (Nat.mul_le_mul_right q hle).trans_eq (Nat.one_mul q)
  cases hquotient with
  | whole q exact =>
    apply digits_ofScaled_le (Nat.succ_ne_zero p)
    calc ((a.significand * b.significand).sign * (q : Int)).natAbs ≤ q := hsign q
      _ ≤ q * d := Nat.le_mul_of_pos_right q hd
      _ ≤ 10 ^ p := exact ▸ ha.le
      _ ≤ 10 ^ (p + 1) := Nat.pow_le_pow_right (by decide) (Nat.le_succ p)
  | rounded shift wide narrow =>
    apply digits_ofScaled_le (Nat.succ_ne_zero p)
    refine (hsign _).trans (roundQuotient_le_of_le_mul hd ?_)
    exact (narrow (digitCount_le_iff.2 ha)).le.trans_eq (Nat.mul_comm _ _)

end Decimal

end Reckoner
