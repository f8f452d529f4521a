import Reckoner.Quantity
import Reckoner.Proofs.Unit.Algebra
import Mathlib.Tactic.FieldSimp
import Mathlib.Tactic.Ring

/-!
# Arithmetic of quantities is arithmetic on coherent values

An exact quantity of value `v` in a unit of scale `f` stands for the coherent value `v * f`. Every
operation gives a quantity that stands for the result of the same operation on coherent values, by
whatever way it takes: operands brought to one unit, factors folded into the value, or units left
alone because the other one is unity.

The condition throughout is that the result is exact. An exact result may have become approximate
only for its length (`Number.withinLimits`, `Number.powInt`), and then it is no longer equal to the
exact one.
-/

namespace Reckoner

namespace Quantity

variable {a b q : Quantity} {s : Settings} {x y f g : Rat}

/-- The value and the scale of the unit are exact, and the scale starts at zero. -/
structure IsExact (q : Quantity) : Prop where
  value : q.value.isExact
  factor : q.unit.factor.isExact
  factor_ne_zero : q.unit.factor.isZero = false
  offset : q.unit.offset = Number.ofInt 0

/-- The value `x` in a unit of scale `f`. -/
structure Holds (q : Quantity) (x f : Rat) : Prop where
  value : q.value = .exact x
  scale : q.unit.ScaledBy f

theorem IsExact.holds (h : q.IsExact) : ∃ x f, q.Holds x f := by
  obtain ⟨x, hx⟩ := Number.isExact_iff.1 h.value
  obtain ⟨f, hf⟩ := Number.isExact_iff.1 h.factor
  refine ⟨x, f, hx, hf, ?_, h.offset⟩
  have hzero := h.factor_ne_zero
  rw [hf] at hzero
  exact of_decide_eq_false hzero

namespace Holds

theorem coherentValue (h : q.Holds x f) : q.coherentValue = .exact (x * f) := by
  rw [Quantity.coherentValue, h.value, h.scale.toCoherent]

theorem hasOffset_eq_false (ha : a.Holds x f) (hb : b.Holds y g) : hasOffset a b = false := by
  rw [hasOffset, MeasureUnit.hasOffset, MeasureUnit.hasOffset, ha.scale.offset, hb.scale.offset]
  rfl

end Holds

/-- Units that are the same have the same scale. -/
theorem scale_eq_of_same {u v : MeasureUnit} (hu : u.ScaledBy f) (hv : v.ScaledBy g)
    (h : u.same v) : f = g := by
  simp only [MeasureUnit.same, Bool.and_eq_true] at h
  have hfactor := h.1.1.1.1.1.2
  rw [hu.factor, hv.factor] at hfactor
  exact Number.equals_exact hfactor

/-- Bringing a value to another unit multiplies it by the ratio of the scales. -/
theorem Holds.rescale {u : MeasureUnit} {z : Number} (hq : q.Holds x f) (hu : u.ScaledBy g)
    (h : q.rescale u = .ok z) : z = .exact (x * (f / g)) := by
  unfold Quantity.rescale at h
  split at h
  · next hsame =>
    cases h
    rw [hq.value, scale_eq_of_same hq.scale hu hsame, div_self hu.ne_zero, mul_one]
  · simp only [MeasureUnit.factorTo, bind_eq_ok_iff, pure_eq_ok_iff, liftNumber_eq_ok_iff] at h
    obtain ⟨ratio, ⟨_, -, hratio⟩, rfl⟩ := h
    rw [hq.scale.factor, hu.factor, Number.exact_div _ hu.ne_zero] at hratio
    cases hratio
    rw [hq.value, Number.exact_mul]

/-- A quantity without a dimension is folded to a plain number, unless it is one already. -/
theorem fold_cases (q : Quantity) :
    q.fold = q ∨ q.unit.isDimensionless ∧ q.fold = plain (q.value.mul q.unit.factor) := by
  unfold Quantity.fold
  split
  · next hfold =>
    rw [Bool.and_eq_true] at hfold
    exact .inr ⟨hfold.1, rfl⟩
  · exact .inl rfl

/-- Folding the scale into the value keeps the coherent value and the exponents. -/
theorem Holds.fold (hu : q.unit.ScaledBy f) (h : q.fold.value = .exact y) :
    ∃ x g, q.value = .exact x ∧ q.fold.Holds y g ∧ y * g = x * f ∧
      q.fold.unit.exponent = q.unit.exponent := by
  rcases q.fold_cases with hfold | ⟨hdimensionless, hfold⟩
  · rw [hfold] at h ⊢
    exact ⟨y, f, h, ⟨h, hu⟩, rfl, rfl⟩
  · rw [hfold] at h ⊢
    obtain ⟨x, f', hx, hf', rfl⟩ := Number.lift₂_eq_exact h
    obtain rfl : f' = f := by
      rw [hu.factor] at hf'
      cases hf'
      rfl
    -- The folded quantity is plain, and its unit has the scale 1.
    refine ⟨x, 1, hx, ⟨h, rfl, one_ne_zero, rfl⟩, mul_one _, ?_⟩
    rw [MeasureUnit.exponent_of_isDimensionless hdimensionless]
    exact MeasureUnit.exponent_of_isDimensionless rfl

/-! ## Sums -/

/-- The sum of coherent values, or their difference, in the unit of the left operand. -/
theorem Holds.addWith {op : Number → Number → Number} {onRat : Rat → Rat → Rat}
    {kind : MeasureUnit.Combination} (ha : a.Holds x f) (hb : b.Holds y g)
    (hop : ∀ x y, op (.exact x) (.exact y) = .exact (onRat x y))
    (hmul : ∀ x y z, onRat x y * z = onRat (x * z) (y * z))
    (hunit : ∀ u, MeasureUnit.combine kind a.unit b.unit = .ok u → u = a.unit)
    (hq : q.value.isExact) (h : Quantity.addWith op kind a b s = .ok q) :
    q.coherentValue = op a.coherentValue b.coherentValue ∧ q.unit = a.unit := by
  unfold Quantity.addWith at h
  rw [ha.hasOffset_eq_false hb] at h
  simp only [Bool.false_eq_true, if_false, bind_eq_ok_iff, pure_eq_ok_iff,
    liftNumber_eq_ok_iff] at h
  -- Without offsets the sum is one of values in the left unit.
  obtain ⟨u, hu, right, hright, value, hvalue, rfl⟩ := h
  obtain rfl := hunit u hu
  obtain ⟨r, rfl : value = .exact r⟩ := Number.isExact_iff.1 hq
  have hsum := Number.withinLimits_eq_exact hvalue
  rw [ha.value, hb.rescale ha.scale hright, hop] at hsum
  have hr : r * f = onRat (x * f) (y * g) := by
    cases hsum
    rw [hmul, mul_assoc, div_mul_cancel₀ _ ha.scale.ne_zero]
  refine ⟨?_, rfl⟩
  rw [ha.coherentValue, hb.coherentValue, hop, ← hr]
  exact Holds.coherentValue ⟨rfl, ha.scale⟩

/-- The units of a sum are compatible, and it has the left one. -/
theorem combine_add_cases {kind : MeasureUnit.Combination} {u v w : MeasureUnit}
    (hkind : kind = .add ∨ kind = .sub) (h : MeasureUnit.combine kind u v = .ok w) :
    u.isCompatible v ∧ w = u := by
  rcases hkind with rfl | rfl <;>
  · simp only [MeasureUnit.combine, bind_eq_ok_iff, pure_eq_ok_iff] at h
    obtain ⟨_, hensure, rfl⟩ := h
    exact ⟨MeasureUnit.isCompatible_of_ensure hensure, rfl⟩

theorem combine_add {kind : MeasureUnit.Combination} {u v w : MeasureUnit}
    (hkind : kind = .add ∨ kind = .sub) (h : MeasureUnit.combine kind u v = .ok w) : w = u :=
  (combine_add_cases hkind h).2

/-! ## Products -/

/-- What is aligned stays as it is or is brought to a compatible unit. -/
theorem alignedWith_cases {b' : Quantity} (h : b.alignedWith a = .ok b') :
    b' = b ∨ b.unit.isCompatible a.unit ∧
      ∃ value, b.rescale a.unit = .ok value ∧ b' = ⟨value, a.unit⟩ := by
  unfold Quantity.alignedWith at h
  split at h
  · cases h
    exact .inl rfl
  · next hdifferent =>
    simp only [bind_eq_ok_iff, pure_eq_ok_iff] at h
    obtain ⟨value, hvalue, rfl⟩ := h
    simp only [Bool.or_eq_true, Bool.not_eq_true', not_or, Bool.not_eq_false] at hdifferent
    exact .inr ⟨hdifferent.1.2, value, hvalue, rfl⟩

/-- Aligning the right operand leaves its coherent value and its exponents as they are. -/
theorem Holds.alignedWith {b' : Quantity} (ha : a.Holds x f) (hb : b.Holds y g)
    (h : b.alignedWith a = .ok b') :
    ∃ y' g', b'.Holds y' g' ∧ y' * g' = y * g ∧ b'.unit.exponent = b.unit.exponent := by
  rcases alignedWith_cases h with rfl | ⟨hcompatible, value, hvalue, rfl⟩
  · exact ⟨y, g, hb, rfl, rfl⟩
  · refine ⟨y * (g / f), f, ⟨hb.rescale ha.scale hvalue, ha.scale⟩, ?_, ?_⟩
    · rw [mul_assoc, div_mul_cancel₀ _ ha.scale.ne_zero]
    · exact (MeasureUnit.exponent_of_isCompatible hcompatible).symm

theorem Holds.mul (ha : a.Holds x f) (hb : b.Holds y g) (hq : q.value.isExact)
    (h : a.mul b s = .ok q) :
    ∃ z r, q.Holds z r ∧ z * r = x * f * (y * g) ∧
      q.unit.exponent = a.unit.exponent + b.unit.exponent := by
  simp only [Quantity.mul, MeasureUnit.combine, bind_eq_ok_iff, pure_eq_ok_iff,
    liftNumber_eq_ok_iff] at h
  obtain ⟨b', hb', unit, hunit, value, hvalue, rfl⟩ := h
  obtain ⟨y', g', hb', hright, hexponent⟩ := ha.alignedWith hb hb'
  obtain ⟨z, hz⟩ := Number.isExact_iff.1 hq
  obtain ⟨w, r, hw, hfold, hcoherent, hsame⟩ :=
    Holds.fold (q := ⟨value, unit⟩) (ha.scale.multiply hb'.scale hunit) hz
  obtain rfl : value = .exact w := hw
  have hproduct := Number.withinLimits_eq_exact hvalue
  rw [ha.value, hb'.value] at hproduct
  cases hproduct
  refine ⟨z, r, hfold, ?_, ?_⟩
  · rw [hcoherent, ← hright, mul_mul_mul_comm]
  · rw [hsame, MeasureUnit.exponent_multiply hunit, hexponent]

theorem Holds.div (ha : a.Holds x f) (hb : b.Holds y g) (hq : q.value.isExact)
    (h : a.div b s = .ok q) :
    y ≠ 0 ∧ ∃ z r, q.Holds z r ∧ z * r = x * f / (y * g) ∧
      q.unit.exponent = a.unit.exponent - b.unit.exponent := by
  simp only [Quantity.div, MeasureUnit.combine, bind_eq_ok_iff, pure_eq_ok_iff,
    liftNumber_eq_ok_iff] at h
  obtain ⟨b', hb', value, ⟨quotient, hquotient, hvalue⟩, unit, hunit, rfl⟩ := h
  obtain ⟨y', g', hb', hright, hexponent⟩ := ha.alignedWith hb hb'
  obtain ⟨z, hz⟩ := Number.isExact_iff.1 hq
  obtain ⟨w, r, hw, hfold, hcoherent, hsame⟩ :=
    Holds.fold (q := ⟨value, unit⟩) (ha.scale.divide hb'.scale hunit) hz
  obtain rfl : value = .exact w := hw
  obtain rfl := Number.withinLimits_eq_exact hvalue
  rw [ha.value, hb'.value] at hquotient
  have hy' : y' ≠ 0 := of_decide_eq_false (Number.div_eq_ok hquotient).1
  rw [Number.exact_div _ hy'] at hquotient
  cases hquotient
  refine ⟨?_, z, r, hfold, ?_, ?_⟩
  · rintro rfl
    rw [zero_mul] at hright
    exact (mul_ne_zero hy' hb'.scale.ne_zero) hright
  · rw [hcoherent, ← hright, div_mul_div_comm]
  · rw [hsame, MeasureUnit.exponent_divide hunit, hexponent]

/-! ## Powers -/

theorem fold_eq_self (h : q.isPlain) : q.fold = q := by
  have hunity : q.unit.isUnity = true := h
  rw [fold, hunity, Bool.not_true, Bool.and_false]
  rfl

/-- A power with a plain whole exponent is a whole power. -/
theorem pow_plain {e : Quantity} {n : Int} (he : e.isPlain) (hn : e.value = Number.ofInt n) :
    a.pow e s = a.powInt e.value s := by
  have hwhole : (e.value.isExact && e.value.isInteger) = true := by
    rw [hn, Number.isInteger_ofInt]
    rfl
  unfold pow
  rw [fold_eq_self he]
  show (if (!e.isPlain) = true then _ else _) = _
  rw [if_neg (by simp [he]), if_pos hwhole]

/-- A power with an approximate exponent is one of plain numbers. -/
theorem pow_plain_approx {d : Decimal} (h : a.pow (plain (.approx d)) s = .ok q) :
    a.fold.isPlain ∧ ∃ power value, a.fold.value.powReal (.approx d) s.precision = .ok power ∧
      power.withinLimits s = .ok value ∧ q = plain value := by
  have hplain : (plain (.approx d)).isPlain = true := rfl
  have hinexact : ((plain (.approx d)).value.isExact && (plain (.approx d)).value.isInteger) =
      false := rfl
  unfold pow at h
  rw [fold_eq_self hplain] at h
  simp only [hplain, hinexact, Bool.not_true, Bool.false_eq_true, if_false] at h
  split at h
  · next hbase =>
    simp only [bind_eq_ok_iff, pure_eq_ok_iff, liftNumber_eq_ok_iff] at h
    obtain ⟨value, ⟨power, hpower, hvalue⟩, rfl⟩ := h
    exact ⟨hbase, power, value, hpower, hvalue, rfl⟩
  · cases h

/-- A whole power is one of the value and of the unit. -/
theorem powInt_cases {e : Number} {n : Int} (hn : e = Number.ofInt n)
    (h : a.powInt e s = .ok q) :
    ∃ power, a.unit.power n s = .ok q.unit ∧ a.value.powInt n s = .ok power ∧
      power.withinLimits s = .ok q.value := by
  unfold powInt at h
  split at h
  · cases h
  · next n' hn' =>
    subst hn
    obtain rfl := Number.toInt64?_ofInt (Option.filter_eq_some_iff.1 hn').1
    simp only [bind_eq_ok_iff, pure_eq_ok_iff, liftNumber_eq_ok_iff] at h
    obtain ⟨unit, hunit, value, ⟨power, hpower, hvalue⟩, rfl⟩ := h
    exact ⟨power, hunit, hpower, hvalue⟩

theorem Holds.pow {e : Quantity} {n : Int} (ha : a.Holds x f) (he : e.isPlain)
    (hn : e.value = Number.ofInt n) (hq : q.value.isExact) (hfactor : q.unit.factor.isExact)
    (h : a.pow e s = .ok q) :
    ∃ z r, q.Holds z r ∧ z * r = (x * f) ^ n ∧ q.unit.exponent = n • a.unit.exponent := by
  rw [pow_plain he hn] at h
  obtain ⟨power, hunit, hpower, hvalue⟩ := powInt_cases hn h
  obtain ⟨z, hz⟩ := Number.isExact_iff.1 hq
  rw [hz] at hvalue
  obtain rfl := Number.withinLimits_eq_exact hvalue
  rw [ha.value] at hpower
  obtain rfl := Number.powInt_eq_exact hpower
  exact ⟨x ^ n, f ^ n, ⟨hz, ha.scale.power hunit hfactor⟩, (mul_zpow x f n).symm,
    MeasureUnit.exponent_power hunit⟩

/-! ## The homomorphism -/

/-- **Arithmetic of quantities is arithmetic on coherent values.** Of exact operands, every exact
sum, difference, product, quotient and whole power stands for the sum, difference, product, quotient
and power of the coherent values. Sums keep the dimension and the things counted of the left
operand; in the others the exponents of the operands are added, subtracted and multiplied. -/
theorem arithmetic_on_coherentValue (ha : a.IsExact) (hq : q.value.isExact) :
    (∀ b : Quantity, b.IsExact →
      (a.add b s = .ok q →
        q.coherentValue = a.coherentValue.add b.coherentValue ∧
          q.unit.dimension = a.unit.dimension ∧ q.unit.adHoc = a.unit.adHoc) ∧
      (a.sub b s = .ok q →
        q.coherentValue = a.coherentValue.sub b.coherentValue ∧
          q.unit.dimension = a.unit.dimension ∧ q.unit.adHoc = a.unit.adHoc) ∧
      (a.mul b s = .ok q →
        q.coherentValue = a.coherentValue.mul b.coherentValue ∧
          q.unit.exponent = a.unit.exponent + b.unit.exponent) ∧
      (a.div b s = .ok q →
        a.coherentValue.div b.coherentValue = .ok q.coherentValue ∧
          q.unit.exponent = a.unit.exponent - b.unit.exponent)) ∧
    (∀ (e : Quantity) (n : Int), e.isPlain → e.value = Number.ofInt n →
      q.unit.factor.isExact → a.pow e s = .ok q →
        q.coherentValue = .exact (a.coherentValue.value ^ n) ∧
          q.unit.exponent = n • a.unit.exponent) := by
  obtain ⟨x, f, ha⟩ := ha.holds
  refine ⟨fun b hb => ?_, fun e n he hn hfactor h => ?_⟩
  · obtain ⟨y, g, hb⟩ := hb.holds
    refine ⟨fun h => ?_, fun h => ?_, fun h => ?_, fun h => ?_⟩
    · obtain ⟨hvalue, hunit⟩ := ha.addWith hb Number.exact_add (fun x y z => add_mul x y z)
        (fun _ => combine_add (.inl rfl)) hq h
      exact ⟨hvalue, by rw [hunit], by rw [hunit]⟩
    · obtain ⟨hvalue, hunit⟩ := ha.addWith hb Number.exact_sub (fun x y z => sub_mul x y z)
        (fun _ => combine_add (.inr rfl)) hq h
      exact ⟨hvalue, by rw [hunit], by rw [hunit]⟩
    · obtain ⟨z, r, hz, hvalue, hexponent⟩ := ha.mul hb hq h
      refine ⟨?_, hexponent⟩
      rw [hz.coherentValue, hvalue, ha.coherentValue, hb.coherentValue, Number.exact_mul]
    · obtain ⟨hy, z, r, hz, hvalue, hexponent⟩ := ha.div hb hq h
      refine ⟨?_, hexponent⟩
      rw [ha.coherentValue, hb.coherentValue,
        Number.exact_div _ (mul_ne_zero hy hb.scale.ne_zero), hz.coherentValue, hvalue]
  · obtain ⟨z, r, hz, hvalue, hexponent⟩ := ha.pow he hn hq hfactor h
    refine ⟨?_, hexponent⟩
    rw [hz.coherentValue, hvalue, ha.coherentValue]
    rfl

/-- A length in metres. -/
def metres (x : Rat) : Quantity := ⟨.exact x, .new "m" "meter" .length (Number.ofInt 1) "length"⟩

/-- A length in kilometres. -/
def kilometres (x : Rat) : Quantity :=
  ⟨.exact x, .new "km" "kilometer" .length (Number.ofInt 1000) "length"⟩

/-- The five operations on 2 km and 500 m. -/
theorem arithmetic_on_kilometres_and_metres :
    let a := kilometres 2
    let b := metres 500
    (∃ q, a.add b default = .ok q ∧ q.coherentValue = a.coherentValue.add b.coherentValue) ∧
    (∃ q, a.sub b default = .ok q ∧ q.coherentValue = a.coherentValue.sub b.coherentValue) ∧
    (∃ q, a.mul b default = .ok q ∧ q.coherentValue = a.coherentValue.mul b.coherentValue) ∧
    (∃ q, a.div b default = .ok q ∧ a.coherentValue.div b.coherentValue = .ok q.coherentValue) ∧
    (∃ q, a.pow (plain (.ofInt (-2))) default = .ok q ∧
      q.coherentValue = .exact (a.coherentValue.value ^ (-2 : Int))) := by
  intro a b
  have ha : a.IsExact := ⟨rfl, rfl, by decide +kernel, rfl⟩
  have hb : b.IsExact := ⟨rfl, rfl, by decide +kernel, rfl⟩
  refine ⟨?_, ?_, ?_, ?_, ?_⟩
  · obtain ⟨q, h, hq⟩ : ∃ q, a.add b default = .ok q ∧ q.value.isExact :=
      exists_eq_ok (by decide +kernel)
    exact ⟨q, h, (((arithmetic_on_coherentValue ha hq).1 b hb).1 h).1⟩
  · obtain ⟨q, h, hq⟩ : ∃ q, a.sub b default = .ok q ∧ q.value.isExact :=
      exists_eq_ok (by decide +kernel)
    exact ⟨q, h, (((arithmetic_on_coherentValue ha hq).1 b hb).2.1 h).1⟩
  · obtain ⟨q, h, hq⟩ : ∃ q, a.mul b default = .ok q ∧ q.value.isExact :=
      exists_eq_ok (by decide +kernel)
    exact ⟨q, h, (((arithmetic_on_coherentValue ha hq).1 b hb).2.2.1 h).1⟩
  · obtain ⟨q, h, hq⟩ : ∃ q, a.div b default = .ok q ∧ q.value.isExact :=
      exists_eq_ok (by decide +kernel)
    exact ⟨q, h, (((arithmetic_on_coherentValue ha hq).1 b hb).2.2.2 h).1⟩
  · obtain ⟨q, h, hq⟩ : ∃ q, a.pow (plain (.ofInt (-2))) default = .ok q ∧
        q.value.isExact && q.unit.factor.isExact := exists_eq_ok (by decide +kernel)
    rw [Bool.and_eq_true] at hq
    exact ⟨q, h,
      ((arithmetic_on_coherentValue ha hq.1).2 _ (-2) rfl rfl hq.2 h).1⟩

end Quantity

end Reckoner
