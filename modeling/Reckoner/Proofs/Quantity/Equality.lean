import Reckoner.Proofs.Quantity
import Reckoner.Proofs.Unit.Conversion

/-!
# Equality of quantities is equality of coherent values

Two quantities are compared in one of three ways. Where one of the units has an offset, both are
compared by their coherent values; otherwise the right one is brought to the left unit by the ratio
of the factors, or left as it is if the units are the same. On exact operands all of these decide
whether the coherent values are equal (`equals_of_isCompatible`), and so does the comparison that
takes no settings (`same_iff`). Quantities that are not compatible are not compared
(`equals_of_not_isCompatible`).

Being equal is an equivalence relation therefore, which comparison within a tolerance is not.
-/

namespace Reckoner.Quantity

variable {a b q : Quantity} {s : Settings} {x f o g : Rat}

/-- The value and the scale of the unit are exact, and the scale can be divided by. -/
structure OnExactScale (q : Quantity) : Prop where
  value : q.value.isExact
  scale : q.unit.ExactScale
  factor_ne_zero : q.unit.factor.isZero = false

namespace OnExactScale

theorem affine (h : q.OnExactScale) :
    ∃ x f o, q.value = .exact x ∧ q.unit.AffineScale f o := by
  obtain ⟨x, hx⟩ := Number.isExact_iff.1 h.value
  obtain ⟨f, o, hscale⟩ := h.scale.affine h.factor_ne_zero
  exact ⟨x, f, o, hx, hscale⟩

theorem coherentValue (h : q.OnExactScale) : ∃ r, q.coherentValue = .exact r := by
  obtain ⟨x, f, o, hx, hscale⟩ := h.affine
  refine ⟨x * f + o, ?_⟩
  rw [Quantity.coherentValue, hx, hscale.toCoherent]

end OnExactScale

/-- Without an offset the scale starts at zero. -/
theorem holds_of_affine (hx : q.value = .exact x) (hscale : q.unit.AffineScale f o)
    (h : q.unit.hasOffset = false) : q.Holds x f := by
  rw [MeasureUnit.hasOffset, hscale.offset, Bool.not_eq_false'] at h
  have ho : o = 0 := beq_iff_eq.1 h
  refine ⟨hx, hscale.factor, hscale.ne_zero, ?_⟩
  rw [hscale.offset, ho]
  rfl

/-- Values can be brought to every compatible unit. -/
theorem Holds.exists_rescale {u : MeasureUnit} (hq : q.Holds x f) (hu : u.ScaledBy g)
    (h : q.unit.isCompatible u) : ∃ z, q.rescale u = .ok z := by
  unfold Quantity.rescale
  split
  · exact ⟨_, rfl⟩
  · refine ⟨q.value.mul (.exact (f / g)), ?_⟩
    rw [MeasureUnit.factorTo, MeasureUnit.ensureCompatible, if_pos h, ok_bind, hq.scale.factor,
      hu.factor, Number.exact_div _ hu.ne_zero]
    rfl

theorem approxEq_exact_iff {tolerance : Nat} {r t : Rat} :
    (Number.exact r).approxEq tolerance (.exact t) ↔ r = t :=
  beq_iff_eq

/-- Coherent values are compared as they are. -/
theorem approxEq_coherentValue_iff (ha : a.OnExactScale) (hb : b.OnExactScale) {tolerance : Nat} :
    a.coherentValue.approxEq tolerance b.coherentValue ↔ a.coherentValue = b.coherentValue := by
  obtain ⟨r, hr⟩ := ha.coherentValue
  obtain ⟨t, ht⟩ := hb.coherentValue
  rw [hr, ht, approxEq_exact_iff, Number.exact.injEq]

/-- Values in one unit are equal if and only if they stand for one coherent value. -/
theorem approxEq_rescaled_iff {y : Rat} {z : Number} (ha : a.Holds x f) (hb : b.Holds y g)
    (hz : b.rescale a.unit = .ok z) {tolerance : Nat} :
    a.value.approxEq tolerance z ↔ a.coherentValue = b.coherentValue := by
  rw [hb.rescale ha.scale hz, ha.value, ha.coherentValue, hb.coherentValue, Number.exact.injEq,
    approxEq_exact_iff, ← mul_div_assoc, eq_div_iff ha.scale.ne_zero]

/-- **Compatible quantities are equal if their coherent values are**, in whichever way they are
compared. -/
theorem equals_of_isCompatible (ha : a.OnExactScale) (hb : b.OnExactScale)
    (h : a.unit.isCompatible b.unit) (s : Settings) :
    a.equals b s = .ok (decide (a.coherentValue = b.coherentValue)) := by
  have hcombine : MeasureUnit.combine .equals a.unit b.unit = .ok a.unit := by
    rw [MeasureUnit.combine, MeasureUnit.ensureCompatible, if_pos h]
    rfl
  rw [equals, hcombine, ok_bind]
  split
  · -- One of the units has an offset: the coherent values are compared.
    refine congrArg Except.ok (Bool.eq_iff_iff.2 ?_)
    rw [decide_eq_true_iff, approxEq_coherentValue_iff ha hb]
  · -- None of them has: values are compared in the unit on the left.
    next hoffset =>
    obtain ⟨haoffset, hboffset⟩ := Bool.or_eq_false_iff.1 (Bool.eq_false_iff.2 hoffset)
    obtain ⟨x, f, o, hx, hascale⟩ := ha.affine
    obtain ⟨y, g, c, hy, hbscale⟩ := hb.affine
    have ha := holds_of_affine hx hascale haoffset
    have hb := holds_of_affine hy hbscale hboffset
    obtain ⟨z, hz⟩ := hb.exists_rescale ha.scale (MeasureUnit.isCompatible_symm h)
    rw [hz, ok_bind]
    refine congrArg Except.ok (Bool.eq_iff_iff.2 ?_)
    rw [decide_eq_true_iff, approxEq_rescaled_iff ha hb hz]

theorem equals_of_not_isCompatible (h : ¬ a.unit.isCompatible b.unit) (s : Settings) :
    a.equals b s = .error (.incompatible a.unit.symbol b.unit.symbol a.unit.describe
      b.unit.describe) := by
  rw [equals, MeasureUnit.combine, MeasureUnit.ensureCompatible, if_neg h]
  rfl

theorem equals_eq_true_iff (ha : a.OnExactScale) (hb : b.OnExactScale) :
    a.equals b s = .ok true ↔ a.unit.isCompatible b.unit ∧ a.coherentValue = b.coherentValue := by
  by_cases h : a.unit.isCompatible b.unit
  · rw [equals_of_isCompatible ha hb h, Except.ok.injEq, decide_eq_true_iff]
    exact ⟨fun heq => ⟨h, heq⟩, And.right⟩
  · rw [equals_of_not_isCompatible h]
    exact ⟨fun herror => (nomatch herror), fun hsame => absurd hsame.1 h⟩

theorem same_iff (ha : a.OnExactScale) (hb : b.OnExactScale) :
    a.same b ↔ a.unit.isCompatible b.unit ∧ a.coherentValue = b.coherentValue := by
  rw [same, isCompatible, Bool.and_eq_true, Number.equals, approxEq_coherentValue_iff ha hb]

/-- Being equal under the settings `s`, of quantities on exact scales. -/
def EqualUnder (s : Settings) (a b : { q : Quantity // q.OnExactScale }) : Prop :=
  a.1.equals b.1 s = .ok true

theorem equivalence_equalUnder (s : Settings) : Equivalence (EqualUnder s) where
  refl a := (equals_eq_true_iff a.2 a.2).2 ⟨MeasureUnit.isCompatible_refl _, rfl⟩
  symm {a b} h := by
    obtain ⟨hcompatible, hvalue⟩ := (equals_eq_true_iff a.2 b.2).1 h
    exact (equals_eq_true_iff b.2 a.2).2 ⟨MeasureUnit.isCompatible_symm hcompatible, hvalue.symm⟩
  trans {a b c} hab hbc := by
    obtain ⟨hcompatible, hvalue⟩ := (equals_eq_true_iff a.2 b.2).1 hab
    obtain ⟨hcompatible', hvalue'⟩ := (equals_eq_true_iff b.2 c.2).1 hbc
    exact (equals_eq_true_iff a.2 c.2).2
      ⟨MeasureUnit.isCompatible_trans hcompatible hcompatible', hvalue.trans hvalue'⟩

/-- **Equality of quantities is equality of coherent values.** Quantities on exact scales, with
offsets or without, are not compared exactly if their dimensions or the things they count differ.
Otherwise they are equal if and only if their coherent values are, as they are by the comparison
that takes no settings. Among all of them this is an equivalence relation. -/
theorem equality_on_coherentValue (ha : a.OnExactScale) (hb : b.OnExactScale) (s : Settings) :
    (a.equals b s = .error (.incompatible a.unit.symbol b.unit.symbol a.unit.describe
        b.unit.describe) ↔
      a.unit.dimension ≠ b.unit.dimension ∨ a.unit.adHoc ≠ b.unit.adHoc) ∧
    (a.unit.dimension = b.unit.dimension → a.unit.adHoc = b.unit.adHoc →
      a.equals b s = .ok (decide (a.coherentValue = b.coherentValue))) ∧
    (a.same b ↔ a.equals b s = .ok true) ∧
    Equivalence (EqualUnder s) := by
  refine ⟨⟨fun h => ?_, fun h => ?_⟩, fun hdimension hthings => ?_, ?_, equivalence_equalUnder s⟩
  · by_contra hsame
    rw [not_or, not_not, not_not, ← MeasureUnit.isCompatible_iff] at hsame
    rw [equals_of_isCompatible ha hb hsame] at h
    cases h
  · apply equals_of_not_isCompatible
    rwa [MeasureUnit.isCompatible_iff, not_and_or]
  · exact equals_of_isCompatible ha hb (MeasureUnit.isCompatible_iff.2 ⟨hdimension, hthings⟩) s
  · rw [same_iff ha hb, equals_eq_true_iff ha hb]

/-- A temperature on a scale of `f` kelvins a degree that starts at `o` kelvins. -/
def degrees (x f o : Rat) : Quantity :=
  ⟨.exact x, { MeasureUnit.kelvin with factor := .exact f, offset := .exact o }⟩

/-- The freezing point of water in degrees Celsius and in degrees Fahrenheit. -/
theorem equality_of_freezing_points :
    let a := degrees 0 1 (27315 / 100)
    let b := degrees 32 (5 / 9) (45967 / 180)
    a.equals b default = .ok true ∧ a.same b := by
  intro a b
  have ha : a.OnExactScale := ⟨rfl, ⟨rfl, rfl⟩, by decide +kernel⟩
  have hb : b.OnExactScale := ⟨rfl, ⟨rfl, rfl⟩, by decide +kernel⟩
  obtain ⟨-, hequals, hsame, -⟩ := equality_on_coherentValue ha hb default
  have hvalue : a.coherentValue = b.coherentValue := by decide +kernel
  have htrue : a.equals b default = .ok true := by
    rw [hequals rfl rfl, decide_eq_true hvalue]
  exact ⟨htrue, hsame.2 htrue⟩

end Reckoner.Quantity
