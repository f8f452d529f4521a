import Reckoner.Proofs.Decimal.Sum

/-!
# Neutral operands

Sums, differences, products and quotients of approximate numbers are computed on
`workingPrecision` digits, whatever the precision of their operands. A neutral operand therefore
changes an approximate number that has more digits. A sum and a quotient bring it to the working
precision, which only a larger precision can hurt; a product is rounded in any case, so that it also
shortens a quotient that has one digit more than its precision (`neutral_iff`).

The numbers that come out of `toApprox` and `sqrt` have the precision they were made with
(`Obtained.precision_eq`). Those made out of exact numbers have one digit more at most
(`digits_toDecimal_le`), roots have none (`digits_sqrt_le`).
-/

namespace Reckoner

namespace Decimal

open Number (nearestSignificant)
open Text (digitCount digitCount_le_iff)

variable {a d : Decimal} {p : Nat}

theorem digits_ofScaled_le_of_digitCount {s e : Int} {k : Nat} (hp : 0 < k)
    (h : digitCount s.natAbs ≤ k) : (ofScaled s e p).digits ≤ k :=
  digits_ofScaled_le hp.ne' (digitCount_le_iff.1 h).le

theorem digits_rounded_le (hp : 0 < p) (s e : Int) : (rounded p s e).digits ≤ p := by
  simp only [rounded]
  split
  · next hfits => exact digits_ofScaled_le_of_digitCount hp (by omega)
  · next hlong =>
    apply digits_ofScaled_le hp.ne'
    have hs : s ≠ 0 := by
      rintro rfl
      simp [Text.digitCount_zero] at hlong
    rw [Int.natAbs_mul, Int.natAbs_sign_of_ne_zero hs, Nat.one_mul, Int.natAbs_natCast]
    apply roundQuotient_le_of_le_mul (Nat.pow_pos (by decide))
    rw [← Nat.pow_add]
    exact (digitCount_le_iff.1 (by omega)).le

theorem digits_withPrecision_le (hp : 0 < p) (h : d.digits ≤ d.precision) :
    (d.withPrecision p).digits ≤ p := by
  have hmax : max p 1 = p := by omega
  simp only [withPrecision, hmax]
  split
  · exact digits_rounded_le hp _ _
  · next hle => exact h.trans (not_lt.1 hle)

theorem digits_ofInteger_le (s e : Int) : (ofInteger s e).digits ≤ (ofInteger s e).precision := by
  rw [ofInteger, precision_ofScaled]
  exact digits_ofScaled_le_of_digitCount (by omega) (le_max_right _ _)

theorem precision_sqrt : a.sqrt.precision = a.precision := precision_rounded

theorem digits_sqrt_le (hp : 0 < a.precision) : a.sqrt.digits ≤ a.precision :=
  digits_rounded_le hp _ _

/-- A number in a precision that is not smaller keeps its value when it is brought to `p` digits,
and any other one if it has no more of them. -/
theorem toRat_withPrecision_eq_iff (hp : 0 < p) :
    (d.withPrecision p).toRat = d.toRat ↔ d.precision ≤ p ∨ d.digits ≤ p := by
  have hmax : max p 1 = p := by omega
  rw [toRat_withPrecision, hmax]
  split
  · next hle => simp [hle]
  · next hlt => simp [hlt, nearestSignificant_toRat_iff hp]

/-- Rounding twice to the same digits is rounding once. -/
theorem nearestSignificant_withPrecision (hp : 0 < p) (d : Decimal) :
    nearestSignificant p (d.withPrecision p).toRat = nearestSignificant p d.toRat := by
  have hmax : max p 1 = p := by omega
  rw [toRat_withPrecision, hmax]
  split
  · rfl
  · rw [toRat, ← toRat_rounded hp, nearestSignificant_toRat_iff hp]
    exact digits_rounded_le hp _ _

/-- A quotient by one is exact. -/
theorem toRat_div_of_one {b : Decimal} (hs : b.significand = 1) (he : b.exponent = 0) :
    (a.div b).toRat = a.toRat := by
  simp only [div, hs, he, Int.natAbs_one, Nat.mod_one, Nat.div_one, if_true, toRat_ofScaled,
    Int.sign_one, Int.mul_one, Int.sub_zero, Int.sign_mul_natAbs]
  rfl

end Decimal

namespace Number

variable {d : Decimal} {p : Nat} {y : Number}

theorem precision_toDecimal (y : Number) (p : Nat) : (y.toDecimal p).precision = max p 1 := by
  cases y with
  | exact r =>
    show (ratToDecimal r p).precision = _
    unfold ratToDecimal
    split
    · exact Decimal.precision_withPrecision
    · rw [Decimal.precision_div, Decimal.precision_withPrecision, Decimal.precision_withPrecision,
        max_self]
  | approx d => exact Decimal.precision_withPrecision

/-- A quotient can have one digit more than its precision. -/
theorem digits_toDecimal_le (hp : 0 < p) (r : Rat) : ((exact r).toDecimal p).digits ≤ p + 1 := by
  have hnum := Decimal.digits_withPrecision_le hp (Decimal.digits_ofInteger_le r.num 0)
  have hmax : max (((Decimal.ofInteger r.num 0).withPrecision p).precision)
      ((Decimal.ofInteger r.den 0).withPrecision p).precision = p := by
    rw [Decimal.precision_withPrecision, Decimal.precision_withPrecision]
    omega
  show (ratToDecimal r p).digits ≤ p + 1
  unfold ratToDecimal
  split
  · exact Nat.le_succ_of_le hnum
  · have hden : ((Decimal.ofInteger r.den 0).withPrecision p).significand ≠ 0 :=
      Decimal.significand_withPrecision_ne_zero
        (Decimal.significand_ofScaled_ne_zero (Int.natCast_ne_zero.2 r.den_nz))
    have hquotient := Decimal.digits_div_le hden (hmax ▸ hp) (hmax.symm ▸ hnum)
    rwa [hmax] at hquotient

/-- The decimal of a number that was made approximate at precision `p`, or of a root taken at that
precision. -/
inductive Obtained (p : Nat) (d : Decimal) : Prop
  | approximated (y : Number) (h : y.toApprox p = approx d)
  | root (y : Number) (h : y.sqrt p = .ok (approx d))

theorem eq_of_toApprox (h : y.toApprox p = approx d) : d = y.toDecimal p := by
  cases h
  rfl

theorem eq_of_sqrt (h : y.sqrt p = .ok (approx d)) : d = (y.toDecimal p).sqrt := by
  unfold sqrt at h
  split at h
  · cases h
  · split at h
    · cases h
    · split at h
      · cases h
      · cases h
        rfl

theorem Obtained.precision_eq (h : Obtained p d) (hp : 0 < p) : d.precision = p := by
  cases h with
  | approximated y h => rw [eq_of_toApprox h, precision_toDecimal, max_eq_left hp]
  | root y h => rw [eq_of_sqrt h, Decimal.precision_sqrt, precision_toDecimal, max_eq_left hp]

theorem digits_sqrt_le (hp : 0 < p) (h : y.sqrt p = .ok (approx d)) : d.digits ≤ p := by
  have hprecision : (y.toDecimal p).precision = p := by rw [precision_toDecimal, max_eq_left hp]
  rw [eq_of_sqrt h]
  exact (Decimal.digits_sqrt_le (by omega)).trans_eq hprecision

/-! ## The four operations -/

theorem value_add_zero_iff (d : Decimal) :
    ((approx d).add (exact 0)).value = d.toRat ↔
      d.precision ≤ workingPrecision ∨ d.digits ≤ workingPrecision := by
  have hzero : ((exact 0).toDecimal workingPrecision).isZero = true := isZero_toDecimal rfl _
  show ((d.withPrecision workingPrecision).add _).toRat = _ ↔ _
  rw [Decimal.toRat_add_of_isZero_right hzero, Decimal.toRat_withPrecision_eq_iff (by decide)]

theorem value_sub_zero_iff (d : Decimal) :
    ((approx d).sub (exact 0)).value = d.toRat ↔
      d.precision ≤ workingPrecision ∨ d.digits ≤ workingPrecision := by
  have hzero : ((exact 0).toDecimal workingPrecision).neg.isZero = true := by
    simpa [Decimal.isZero] using isZero_toDecimal (x := exact 0) rfl workingPrecision
  show ((d.withPrecision workingPrecision).add (Decimal.neg _)).toRat = _ ↔ _
  rw [Decimal.toRat_add_of_isZero_right hzero, Decimal.toRat_withPrecision_eq_iff (by decide)]

theorem toDecimal_one :
    (exact 1).toDecimal workingPrecision = ⟨1, 0, workingPrecision, .inl (by decide)⟩ := by
  have hnormal : Decimal.Normal 1 0 := .inl (by decide)
  have hdigits : Text.digitCount 1 ≤ workingPrecision :=
    (Text.digitCount_le_iff.2 (by decide : 1 < 10 ^ 1)).trans (by decide)
  show (Decimal.ofInteger 1 0).withPrecision workingPrecision = _
  rw [Decimal.withPrecision_ofInteger hnormal (by decide)]
  exact Decimal.rounded_of_digits_le (d := ⟨1, 0, 1, hnormal⟩) hdigits

theorem value_mul_one_iff (d : Decimal) :
    ((approx d).mul (exact 1)).value = d.toRat ↔ d.digits ≤ workingPrecision := by
  have hone : ((exact 1).toDecimal workingPrecision).toRat = 1 := by
    rw [toDecimal_one, Decimal.toRat]
    norm_num
  have hprecision : max (d.withPrecision workingPrecision).precision
      ((exact 1).toDecimal workingPrecision).precision = workingPrecision := by
    rw [Decimal.precision_withPrecision, precision_toDecimal]
    rfl
  have hpos : 0 < max (d.withPrecision workingPrecision).precision
      ((exact 1).toDecimal workingPrecision).precision := by
    rw [hprecision]
    decide
  show ((d.withPrecision workingPrecision).mul _).toRat = _ ↔ _
  rw [Decimal.toRat_mul hpos, hprecision, hone, mul_one,
    Decimal.nearestSignificant_withPrecision (by decide),
    Decimal.nearestSignificant_toRat_iff (by decide)]

theorem div_one_eq (d : Decimal) :
    ∃ q, (approx d).div (exact 1) = .ok q ∧
      (q.value = d.toRat ↔ d.precision ≤ workingPrecision ∨ d.digits ≤ workingPrecision) := by
  refine ⟨_, rfl, ?_⟩
  show ((d.withPrecision workingPrecision).div _).toRat = _ ↔ _
  rw [toDecimal_one, Decimal.toRat_div_of_one rfl rfl,
    Decimal.toRat_withPrecision_eq_iff (by decide)]

/-- **When neutral operands change nothing.** A sum and a difference with zero and a quotient by one
keep the value of a number made at precision `p` exactly if `p` does not exceed the working
precision or the number does not have more digits than that; a product with one keeps it exactly if
the number does not have more digits. A number made out of an exact one has `p + 1` digits at most,
and a root `p` digits. -/
theorem neutral_iff (hp : 0 < p) (h : Obtained p d) :
    (((approx d).add (exact 0)).value = d.toRat ↔
        p ≤ workingPrecision ∨ d.digits ≤ workingPrecision) ∧
      (((approx d).sub (exact 0)).value = d.toRat ↔
        p ≤ workingPrecision ∨ d.digits ≤ workingPrecision) ∧
      (((approx d).mul (exact 1)).value = d.toRat ↔ d.digits ≤ workingPrecision) ∧
      (∃ q, (approx d).div (exact 1) = .ok q ∧
        (q.value = d.toRat ↔ p ≤ workingPrecision ∨ d.digits ≤ workingPrecision)) ∧
      (∀ r : Rat, (exact r).toApprox p = approx d → d.digits ≤ p + 1) ∧
      ∀ y : Number, y.sqrt p = .ok (approx d) → d.digits ≤ p := by
  have hprecision := h.precision_eq hp
  have hadd := value_add_zero_iff d
  have hsub := value_sub_zero_iff d
  have hdiv := div_one_eq d
  rw [hprecision] at hadd hsub hdiv
  refine ⟨hadd, hsub, value_mul_one_iff d, hdiv, fun r hr => ?_, fun y hy => digits_sqrt_le hp hy⟩
  rw [eq_of_toApprox hr]
  exact digits_toDecimal_le hp r

/-- A third keeps its digits under neutral operands at the default precision. -/
theorem neutral_of_third :
    0 < 50 ∧ Obtained 50 ((exact (1 / 3)).toDecimal 50) ∧
      (((exact (1 / 3)).toApprox 50).add (exact 0)).value = ((exact (1 / 3)).toApprox 50).value ∧
      (((exact (1 / 3)).toApprox 50).mul (exact 1)).value =
        ((exact (1 / 3)).toApprox 50).value := by
  have hobtained : Obtained 50 ((exact (1 / 3)).toDecimal 50) := .approximated _ rfl
  obtain ⟨hadd, -, hmul, -⟩ := neutral_iff (by decide) hobtained
  exact ⟨by decide, hobtained, hadd.2 (.inl (by decide)), hmul.2 (by decide +kernel)⟩

/-- With sixty digits, it loses ten of them. The quotient 2/11 has one digit more than its
precision, and loses it in a product with one. -/
theorem neutral_of_long_digits :
    (((exact (1 / 3)).toApprox 60).add (exact 0)).value ≠ ((exact (1 / 3)).toApprox 60).value ∧
      (((exact (2 / 11)).toApprox 50).mul (exact 1)).value ≠
        ((exact (2 / 11)).toApprox 50).value := by
  constructor <;> decide +kernel

end Number

end Reckoner
