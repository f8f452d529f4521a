import Reckoner.Proofs.Number.Whole

/-!
# Numbers that are integers

Whether a significand with an exponent is a whole number can be seen from its digits: those that the
exponent puts behind the point are all zeros (`Decimal.wholeDigits_iff`). The significand of a decimal
does not end in a zero, so that the sign of its exponent is enough
(`Decimal.isInteger_eq_wholeDigits`). A number of either kind is an integer if and only if its value
is one.

Before a number is read as an integer of 64 bits its size is estimated, so that no long power of ten
is expanded in vain. The estimate keeps out no number that there is room for:

    x.toInt64? = some n ↔ x.value = n ∧ FitsSigned 64 n
-/

namespace Reckoner

namespace Text

variable {n k : Nat}

/-- The test that a text ends in `k` zeros. -/
theorem drop_zeros_iff (cs : List Char) (k : Nat) :
    (k ≤ cs.length && (cs.drop (cs.length - k)).all (· == '0')) = true ↔
      List.replicate k '0' <:+ cs := by
  have hlength : (cs.drop (cs.length - k)).length = k ↔ k ≤ cs.length := by
    rw [List.length_drop]
    omega
  rw [Bool.and_eq_true, decide_eq_true_eq, List.all_eq_true, List.suffix_iff_eq_drop,
    List.length_replicate, eq_comm, List.eq_replicate_iff, hlength]
  simp only [beq_iff_eq]

/-- A numeral ends in as many zeros as there are factors of ten in its number. -/
theorem zeros_suffix_iff (hn : n ≠ 0) :
    List.replicate k '0' <:+ decimalDigits n ↔ 10 ^ k ∣ n := by
  constructor
  · rintro ⟨cs, hcs⟩
    have hdenotes := denotes_decimalDigits n
    rw [← hcs] at hdenotes
    obtain ⟨f, -, rfl⟩ := Denotes.append_zeros_iff.1 hdenotes
    exact Nat.dvd_mul_left _ f
  · rintro ⟨f, rfl⟩
    have hf : f ≠ 0 := by
      rintro rfl
      exact hn (Nat.mul_zero _)
    rw [Nat.mul_comm, decimalDigits_mul_pow hf]
    exact List.suffix_append _ _

end Text

namespace Decimal

variable {s e : Int}

/-! ## Digits behind the point -/

/-- Whether the digits of a significand that its exponent puts behind the point are all zeros. If
there are not as many digits, the first of them stands behind the point. -/
def wholeDigits (s e : Int) : Bool :=
  0 ≤ e || s == 0 ||
    let digits := Text.decimalDigits s.natAbs
    e.natAbs ≤ digits.length && (digits.drop (digits.length - e.natAbs)).all (· == '0')

theorem wholeDigits_of_nonneg (he : 0 ≤ e) : wholeDigits s e = true := by
  simp [wholeDigits, he]

/-- Behind the point there are only zeros if the power of ten divides the significand. -/
theorem wholeDigits_iff_dvd (he : ¬ 0 ≤ e) :
    wholeDigits s e = true ↔ (10 : Int) ^ e.natAbs ∣ s := by
  by_cases hs : s = 0
  · subst hs
    exact iff_of_true (by simp [wholeDigits]) (dvd_zero _)
  · have hdigits := Text.drop_zeros_iff (Text.decimalDigits s.natAbs) e.natAbs
    rw [Text.zeros_suffix_iff (Int.natAbs_ne_zero.2 hs), ← Int.natCast_dvd] at hdigits
    simpa [wholeDigits, he, hs] using hdigits

/-- **Only zeros behind the point make a whole number.** -/
theorem wholeDigits_iff (s e : Int) :
    wholeDigits s e = true ↔ ∃ n : Int, (s : Rat) * (10 : Rat) ^ e = n := by
  by_cases he : 0 ≤ e
  · obtain ⟨k, rfl⟩ := Int.eq_ofNat_of_zero_le he
    refine iff_of_true (wholeDigits_of_nonneg he) ⟨s * 10 ^ k, ?_⟩
    rw [zpow_natCast]
    push_cast
    rfl
  · have hexponent : e = -(e.natAbs : Int) := by omega
    have hpos : (10 : Rat) ^ e.natAbs ≠ 0 := pow_ne_zero _ (by decide)
    rw [wholeDigits_iff_dvd he]
    refine exists_congr fun n => ?_
    rw [hexponent, zpow_neg, zpow_natCast, ← div_eq_mul_inv, div_eq_iff hpos, Int.natAbs_neg,
      Int.natAbs_natCast, mul_comm]
    exact_mod_cast Iff.rfl

/-- In normal form a negative exponent leaves a digit behind the point that is not zero. -/
theorem isInteger_eq_wholeDigits (d : Decimal) :
    d.isInteger = wholeDigits d.significand d.exponent := by
  rw [Bool.eq_iff_iff, isInteger, decide_eq_true_eq]
  refine ⟨wholeDigits_of_nonneg, fun hwhole => ?_⟩
  by_contra he
  have hdvd : (10 : Int) ∣ d.significand :=
    (dvd_pow_self 10 (by omega)).trans ((wholeDigits_iff_dvd he).1 hwhole)
  rcases d.normal with hnormal | ⟨-, hzero⟩
  · exact hnormal (Int.emod_eq_zero_of_dvd hdvd)
  · exact he hzero.ge

theorem isInteger_iff (d : Decimal) : d.isInteger = true ↔ ∃ n : Int, d.toRat = n := by
  rw [isInteger_eq_wholeDigits]
  exact wholeDigits_iff _ _

end Decimal

namespace Number

variable {x : Number} {n : Int}

theorem isInteger_iff (x : Number) : x.isInteger = true ↔ ∃ n : Int, x.value = n := by
  cases x with
  | exact r =>
    rw [isInteger, value, beq_iff_eq]
    constructor
    · intro hden
      exact ⟨r.num, ((Rat.den_eq_one_iff r).1 hden).symm⟩
    · rintro ⟨n, rfl⟩
      exact Rat.den_intCast n
  | approx d => exact d.isInteger_iff

/-! ## Integers of 64 bits -/

/-- The leading digit of an integer of 64 bits stands at `10 ^ 19` at most. -/
theorem decimalExponent_le (hx : x.value = n) (hn : FitsSigned 64 n) : x.decimalExponent ≤ 19 := by
  have hbound : n.natAbs < 2 ^ 64 := by
    obtain ⟨hlow, hhigh⟩ := hn
    omega
  cases x with
  | exact r =>
    obtain rfl : r = n := hx
    have hbits : bitCount n.natAbs ≤ 64 := bitCount_le_iff.2 hbound
    rw [decimalExponent, Rat.num_intCast]
    unfold bitExponent
    omega
  | approx d =>
    have hvalue : d.toRat = n := hx
    rw [decimalExponent]
    by_cases hs : d.significand = 0
    · rw [Decimal.leadingExponent_of_zero hs]
      decide
    · have hlt : (10 : Rat) ^ d.leadingExponent < (10 : Rat) ^ (20 : Int) := by
        calc (10 : Rat) ^ d.leadingExponent ≤ |d.toRat| := (Decimal.abs_toRat_bounds hs).1
          _ = (n.natAbs : Rat) := by rw [hvalue, Nat.cast_natAbs, Int.cast_abs]
          _ < (2 ^ 64 : Nat) := Nat.cast_lt.2 hbound
          _ < (10 : Rat) ^ (20 : Int) := by norm_num
      have := (zpow_lt_zpow_iff_right₀ (by norm_num)).1 hlt
      omega

/-- The value of an integer that is not too long is expanded. -/
theorem toRat?_of_isInteger (hx : x.isInteger = true) (hsize : x.decimalExponent ≤ 19) :
    x.toRat? = some x.value := by
  cases x with
  | exact r => rfl
  | approx d =>
    have hexponent : 0 ≤ d.exponent := of_decide_eq_true hx
    have hshort : d.exponent.natAbs ≤ maxExpandedExponent := by
      simp only [decimalExponent, Decimal.leadingExponent] at hsize
      unfold maxExpandedExponent
      omega
    exact if_pos hshort

/-- The estimate of the size makes no difference: what it keeps out has no room in 64 bits. -/
theorem toInt64?_eq_filter (x : Number) :
    x.toInt64? = if x.isInteger then (some ⌊x.value⌋).filter (FitsSigned 64 ·) else none := by
  by_cases hx : x.isInteger = true
  · obtain ⟨n, hn⟩ := (isInteger_iff x).1 hx
    rw [if_pos hx, toInt64?]
    by_cases hsize : x.decimalExponent ≤ 19
    · rw [if_neg (by simpa [hx] using hsize), toRat?_of_isInteger hx hsize]
      rfl
    · have hlong : ¬ FitsSigned 64 n := fun hfits => hsize (decimalExponent_le hn hfits)
      rw [if_pos (by simpa [hx] using hsize), hn, Int.floor_intCast, Option.filter_some,
        if_neg fun hfits => hlong (of_decide_eq_true hfits)]
  · rw [if_neg hx, toInt64?, if_pos (by simp [hx])]

theorem toInt64?_eq_some_iff (x : Number) (n : Int) :
    x.toInt64? = some n ↔ x.value = n ∧ FitsSigned 64 n := by
  rw [toInt64?_eq_filter]
  constructor
  · intro h
    split at h
    · next hx =>
      obtain ⟨m, hm⟩ := (isInteger_iff x).1 hx
      obtain ⟨hfloor, hfits⟩ := Option.filter_eq_some_iff.1 h
      rw [hm, Int.floor_intCast, Option.some.injEq] at hfloor
      exact ⟨hfloor ▸ hm, of_decide_eq_true hfits⟩
    · cases h
  · rintro ⟨hn, hfits⟩
    rw [if_pos ((isInteger_iff x).2 ⟨n, hn⟩), hn, Int.floor_intCast]
    exact Option.filter_eq_some_iff.2 ⟨rfl, decide_eq_true hfits⟩

/-- **Integers are recognized by value.** A number of either kind is an integer if its value is one,
and is read as the integer of 64 bits that it is equal to. If there is none, nothing is read. -/
theorem integer_by_value (x : Number) :
    (x.isInteger = true ↔ ∃ n : Int, x.value = n) ∧
    (∀ n : Int, x.toInt64? = some n ↔ x.value = n ∧ FitsSigned 64 n) ∧
    (x.toInt64? = none ↔ ¬ ∃ n : Int, x.value = n ∧ FitsSigned 64 n) := by
  refine ⟨isInteger_iff x, toInt64?_eq_some_iff x, ?_⟩
  rw [Option.eq_none_iff_forall_ne_some, not_exists]
  exact forall_congr' fun n => not_congr (toInt64?_eq_some_iff x n)

end Number

end Reckoner
