import Mathlib
import Reckoner.Proofs.Number.Magnitude
import Reckoner.Proofs.Number.Significant

/-!
# Two ways to round a text

The approximate text of a decimal is made from the digits of its significand: they are cut off
behind the last one that is kept, and the next digit decides whether that one is raised
(`formatDigits`). The approximate text of a rational is made by arithmetic (`roundSignificant`). A
decimal has the same text either way (`approxValue_eq_roundSignificant`), as long as the power of
ten of its leading digit and the number of digits stay below `2 ^ 32` together; past that the powers
of ten in `roundSignificant` are cut off (`approxValue_of_quarter`).

Both ways lay out the same mantissa. For a decimal it does not depend on the exponent
(`mantissa_mul_zpow`): of `m` with `k` digits too many it is `m / 10 ^ k`, rounded, and whether that
is rounded up can be seen from the first of these digits (`roundQuotient_pow`,
`Text.Denotes.five_le_iff`). A mantissa with fewer digits than are kept is filled up with zeros,
which the layout drops again.
-/

namespace Reckoner

namespace Number

open Text

variable {m n k : Nat} {a : Rat} {e : Int}

/-! ## The mantissa of a decimal -/

/-- A quotient by a power of ten is rounded up from half of that power on. -/
theorem roundQuotient_pow (m k : Nat) :
    roundQuotient m (10 ^ k) =
      if 10 ^ k ≤ 2 * (m % 10 ^ k) then m / 10 ^ k + 1 else m / 10 ^ k := by
  have hpos : 0 < 10 ^ k := Nat.pow_pos (by decide)
  generalize 10 ^ k = p at *
  have hdiv : 2 * m + p = (2 * (m % p) + p) + 2 * p * (m / p) := by
    have h := Nat.mod_add_div m p
    rw [Nat.mul_assoc]
    omega
  have hmod := Nat.mod_lt m hpos
  rw [roundQuotient, hdiv, Nat.add_mul_div_left _ _ (by omega)]
  split
  · next hhalf =>
    have hone : (2 * (m % p) + p) / (2 * p) = 1 := Nat.div_eq_of_lt_le (by omega) (by omega)
    rw [hone, Nat.add_comm]
  · next hhalf =>
    have hzero : (2 * (m % p) + p) / (2 * p) = 0 := Nat.div_eq_of_lt (by omega)
    rw [hzero, Nat.zero_add]

theorem log_mul_zpow (ha : 0 < a) (e : Int) :
    Int.log 10 (a * (10 : Rat) ^ e) = Int.log 10 a + e := by
  have hpos : 0 < a * (10 : Rat) ^ e := mul_pos ha (ten_zpow_pos e)
  apply le_antisymm
  · apply Int.lt_add_one_iff.1
    apply (log_lt_iff hpos).2
    have hexponent : Int.log 10 a + 1 + e = Int.log 10 a + e + 1 := by omega
    rw [← ten_zpow_mul hexponent]
    exact mul_lt_mul_of_pos_right ((log_lt_iff ha).1 (by omega)) (ten_zpow_pos e)
  · apply (le_log_iff hpos).2
    rw [← ten_zpow_mul rfl]
    exact mul_le_mul_of_nonneg_right ((le_log_iff ha).1 le_rfl) (ten_zpow_pos e).le

/-- The mantissa is a matter of the digits, not of the place of the point. -/
theorem mantissa_mul_zpow (ha : 0 < a) (e : Int) (n : Nat) :
    mantissa n (a * (10 : Rat) ^ e) = mantissa n a := by
  have hexponent : e + (n - 1 - (Int.log 10 a + e)) = n - 1 - Int.log 10 a := by omega
  rw [mantissa, mantissa, shifted, shifted, log_mul_zpow ha, mul_assoc, ten_zpow_mul hexponent]

theorem log_natCast (hm : m ≠ 0) : Int.log 10 (m : Rat) = digitCount m - 1 := by
  have hpos : (0 : Rat) < m := Nat.cast_pos.2 (Nat.pos_of_ne_zero hm)
  apply le_antisymm
  · have hlt := (log_lt_iff hpos).2 (lt_zpow_digitCount m)
    omega
  · exact (le_log_iff hpos).2 (zpow_digitCount_le hm)

/-- Digits that are missing are zeros. -/
theorem mantissa_of_digitCount_le (hm : m ≠ 0) (h : digitCount m ≤ n) :
    mantissa n m = m * 10 ^ (n - digitCount m) := by
  have hexponent : (n : Int) - 1 - (digitCount m - 1) = ((n - digitCount m : Nat) : Int) := by omega
  have hshifted : shifted n m = ((m * 10 ^ (n - digitCount m) : Nat) : Rat) := by
    rw [shifted, log_natCast hm, hexponent, zpow_natCast]
    push_cast
    rfl
  rw [mantissa, hshifted]
  apply (Nat.floor_eq_iff (by positivity)).2
  constructor <;> linarith

/-- Digits too many are rounded off. -/
theorem mantissa_of_lt_digitCount (hm : m ≠ 0) (h : n < digitCount m) :
    mantissa n m = roundQuotient m (10 ^ (digitCount m - n)) := by
  have hexponent : (n : Int) - 1 - (digitCount m - 1) = -((digitCount m - n : Nat) : Int) := by
    omega
  rw [roundQuotient_eq_floor (Nat.pow_pos (by decide)), mantissa, shifted, log_natCast hm,
    hexponent, zpow_neg, zpow_natCast, div_eq_mul_inv]
  push_cast
  rfl

/-! ## The text -/

/-- A layout does not show the zeros at the end of its digits. -/
theorem layoutDigits_append_zeros (negative : Bool) (cs : List Char) (k : Nat) (e : Int) :
    layoutDigits negative (cs ++ List.replicate k '0') e = layoutDigits negative cs e := by
  have hzeros : ∀ c ∈ List.replicate k '0', (c == '0') = true := by
    intro c hc
    rw [List.eq_of_mem_replicate hc]
    rfl
  rw [layoutDigits, layoutDigits, dropEndWhile_append_of_pos hzeros]

theorem dropWhile_decimalDigits (hm : m ≠ 0) :
    (decimalDigits m).dropWhile (· == '0') = decimalDigits m := by
  cases hdigits : decimalDigits m with
  | nil => rfl
  | cons c cs =>
    have hc := head_decimalDigits_ne_zero hm hdigits
    simp [hc]

/-- The digits of a number are rounded to its mantissa. -/
theorem formatDigits_eq (negative : Bool) (e : Int) (hm : m ≠ 0) (hn : 0 < n) :
    formatDigits negative (decimalDigits m) e n =
      if mantissa n m = 10 ^ n then layoutDigits negative (decimalDigits (10 ^ (n - 1))) (e + 1)
      else layoutDigits negative (decimalDigits (mantissa n m)) e := by
  have hmax : max n 1 = n := by omega
  have hnonempty : (decimalDigits m).isEmpty = false :=
    List.isEmpty_eq_false_iff.2 (decimalDigits_ne_nil m)
  have hlength := length_decimalDigits_eq hm
  unfold formatDigits
  simp only [dropWhile_decimalDigits hm, hnonempty, hmax, Bool.false_eq_true, if_false]
  cases hdrop : (decimalDigits m).drop n with
  | nil =>
    have hle : digitCount m ≤ n := hlength ▸ List.drop_eq_nil_iff.1 hdrop
    have hlt : m * 10 ^ (n - digitCount m) < 10 ^ n := by
      rw [← digitCount_le_iff, digitCount_mul_pow hm]
      omega
    rw [mantissa_of_digitCount_le hm hle, if_neg (Nat.ne_of_lt hlt), decimalDigits_mul_pow hm,
      layoutDigits_append_zeros]
  | cons c cs =>
    have hrest : cs.length + 1 = digitCount m - n := by
      have h := congrArg List.length hdrop
      rw [List.length_drop, hlength, List.length_cons] at h
      exact h.symm
    have hsplit := denotes_decimalDigits m
    rw [← List.take_append_drop n (decimalDigits m), hdrop] at hsplit
    obtain ⟨hhead, htail⟩ := hsplit.split
    rw [List.length_cons, hrest] at hhead htail
    -- The first digit that is dropped decides as the remainder of the division does.
    have hmantissa : mantissa n m =
        if '5' ≤ c then digitsValue ((decimalDigits m).take n) + 1
        else digitsValue ((decimalDigits m).take n) := by
      rw [mantissa_of_lt_digitCount hm (by omega), roundQuotient_pow, hhead.value]
      simp only [htail.five_le_iff, hrest]
    rw [hmantissa]

theorem roundSignificant_max (r : Rat) (n : Nat) :
    roundSignificant r (max n 1) = roundSignificant r n := by
  have hmax : max (max n 1) 1 = max n 1 := by omega
  unfold roundSignificant
  rw [hmax]

theorem formatDigits_max (negative : Bool) (cs : List Char) (e : Int) (n : Nat) :
    formatDigits negative cs e (max n 1) = formatDigits negative cs e n := by
  have hmax : max (max n 1) 1 = max n 1 := by omega
  unfold formatDigits
  rw [hmax]

theorem signed_neg_iff (negative : Bool) (ha : 0 < a) :
    signed negative a < 0 ↔ negative = true := by
  cases negative with
  | false => simp [signed, ha.le]
  | true => simp [signed, ha]

theorem abs_signed (negative : Bool) (ha : 0 < a) : |signed negative a| = a := by
  cases negative with
  | false => exact abs_of_pos ha
  | true => exact (abs_neg a).trans (abs_of_pos ha)

/-- The digits of a number at any place of the point are rounded as the number that they denote. -/
theorem formatDigits_eq_roundSignificant (negative : Bool) (e : Int) (hm : m ≠ 0)
    (hsize : (e + digitCount m - 1).natAbs + max n 1 < 2 ^ 32) :
    formatDigits negative (decimalDigits m) (e + digitCount m - 1) n =
      roundSignificant (signed negative (m * (10 : Rat) ^ e)) n := by
  have hpos : (0 : Rat) < m := Nat.cast_pos.2 (Nat.pos_of_ne_zero hm)
  have hscaled : 0 < (m : Rat) * (10 : Rat) ^ e := mul_pos hpos (ten_zpow_pos e)
  have habs := abs_signed negative hscaled
  have hne : signed negative (m * (10 : Rat) ^ e) ≠ 0 := abs_pos.1 (habs.symm ▸ hscaled)
  have hlog : Int.log 10 ((m : Rat) * (10 : Rat) ^ e) = e + digitCount m - 1 := by
    rw [log_mul_zpow hpos, log_natCast hm]
    omega
  have hsign : decide (signed negative (m * (10 : Rat) ^ e) < 0) = negative := by
    simp [signed_neg_iff negative hscaled]
  have hn : 0 < max n 1 := by omega
  rw [← formatDigits_max, ← roundSignificant_max, formatDigits_eq negative _ hm hn,
    roundSignificant_eq hne hn (by rwa [habs, hlog]), habs, hlog, hsign, mantissa_mul_zpow hpos]

theorem toRat_eq_signed (d : Decimal) :
    d.toRat = signed (d.significand < 0) (d.significand.natAbs * (10 : Rat) ^ d.exponent) := by
  have hsign : decide ((d.significand : Rat) < 0) = decide (d.significand < 0) :=
    decide_eq_decide.2 Int.cast_lt_zero
  have habs : (d.significand.natAbs : Rat) = |(d.significand : Rat)| := by
    rw [Nat.cast_natAbs, Int.cast_abs]
  have hsignificand := signed_abs (d.significand : Rat)
  rw [hsign, ← habs] at hsignificand
  rw [Decimal.toRat, ← hsignificand]
  unfold signed
  split <;> ring

/-- **The approximate text of a decimal** is that of the rational that it stands for. -/
theorem approxValue_eq_roundSignificant (d : Decimal) (s : Settings)
    (hsize : d.significand ≠ 0 → d.leadingExponent.natAbs + max s.approxDigits 1 < 2 ^ 32) :
    ((approx d).toParts s).approxValue =
      some (String.ofList (roundSignificant d.toRat s.approxDigits)) := by
  simp only [toParts, decimalParts]
  congr 2
  by_cases hzero : d.significand = 0
  · have hvalue : d.toRat = 0 := by rw [Decimal.toRat, hzero, Int.cast_zero, zero_mul]
    rw [hzero, hvalue]
    rfl
  · have hsize := hsize hzero
    have hdigits : d.digits = digitCount d.significand.natAbs := rfl
    have hm := Int.natAbs_ne_zero.2 hzero
    rw [Decimal.leadingExponent_of_ne_zero hzero, hdigits] at hsize
    rw [length_decimalDigits_eq hm, toRat_eq_signed]
    exact formatDigits_eq_roundSignificant _ d.exponent hm hsize

/-- Nines of a decimal that are carried through all digits. -/
theorem approxValue_of_carried_nines :
    ((Decimal.ofScaled (-99996) (-11) 50).significand ≠ 0 →
      (Decimal.ofScaled (-99996) (-11) 50).leadingExponent.natAbs + max 3 1 < 2 ^ 32) ∧
    ((approx (Decimal.ofScaled (-99996) (-11) 50)).toParts { approxDigits := 3 }).approxValue =
      some (String.ofList (roundSignificant (Decimal.ofScaled (-99996) (-11) 50).toRat 3)) := by
  have hdigits : digitCount 99996 ≤ 5 := digitCount_le_iff.2 (by decide)
  have hsize : (Decimal.ofScaled (-99996) (-11) 50).leadingExponent.natAbs + max 3 1 < 2 ^ 32 := by
    rw [Decimal.leadingExponent_ofScaled (by decide)]
    show (-11 + (digitCount 99996 : Int) - 1).natAbs + 3 < 2 ^ 32
    omega
  exact ⟨fun _ => hsize, approxValue_eq_roundSignificant _ { approxDigits := 3 } fun _ => hsize⟩

/-! ## Too many digits -/

/-- With `2 ^ 32 + 1` digits, the decimal `0.25` is written as it is, and the rational that it
stands for as if one digit were asked for. -/
theorem approxValue_of_quarter :
    (Decimal.ofScaled 25 (-2) 50).toRat = 1 / 4 ∧
      ((approx (Decimal.ofScaled 25 (-2) 50)).toParts
        { approxDigits := 2 ^ 32 + 1 }).approxValue = some "0.25" ∧
      String.ofList (roundSignificant (1 / 4) (2 ^ 32 + 1)) = "0.3" ∧
      ¬ ∀ (d : Decimal) (s : Settings), ((approx d).toParts s).approxValue =
        some (String.ofList (roundSignificant d.toRat s.approxDigits)) := by
  have hvalue : (Decimal.ofScaled 25 (-2) 50).toRat = 1 / 4 := by cbv
  have hdecimal : ((approx (Decimal.ofScaled 25 (-2) 50)).toParts
      { approxDigits := 2 ^ 32 + 1 }).approxValue = some "0.25" := by cbv
  have hrational : String.ofList (roundSignificant (1 / 4) (2 ^ 32 + 1)) = "0.3" := by
    cbv
  refine ⟨hvalue, hdecimal, hrational, fun h => ?_⟩
  have htext := h (Decimal.ofScaled 25 (-2) 50) { approxDigits := 2 ^ 32 + 1 }
  rw [hvalue, hdecimal, hrational] at htext
  exact absurd htext (by decide)

end Number

end Reckoner
