import Reckoner.Unit.Algebra
import Reckoner.Proofs.Exponents
import Reckoner.Proofs.Number.Exact
import Reckoner.Proofs.Result
import Mathlib.Algebra.Field.Basic
import Mathlib.Algebra.Group.Pi.Basic

/-!
# What products, quotients and powers of units are

For each operation one lemma says all that a result can be (`multiply_cases`, `divide_cases`,
`power_cases`): an operand that the other one leaves untouched, or a unit derived from the exponents
and factors of both.

Two things are followed through the operations. The exponents of a unit, over the base dimensions
and the names of things counted alike, are added, subtracted and multiplied (`exponent_multiply` and
its companions). An exact scale that starts at zero stays one (`ScaledBy`).
-/

namespace Reckoner

namespace Dimension

theorem ofVector?_eq_some {x : Vector Int 9} {d : Dimension} (h : ofVector? x = some d) :
    d.exponents = x := by
  unfold ofVector? at h
  split at h
  · cases h
    rfl
  · cases h

/-- The exponent of a base dimension. -/
def exponent (d : Dimension) (i : Fin 9) : Int := d.exponents[i]

theorem isExponent_exponent (d : Dimension) (i : Fin 9) : IsExponent (d.exponent i) :=
  d.inRange _ (Vector.mem_toList_iff.2 (Vector.getElem_mem _))

theorem exponent_multiply {c d e : Dimension} (h : c.multiply d = some e) (i : Fin 9) :
    e.exponent i = c.exponent i + d.exponent i := by
  rw [exponent, ofVector?_eq_some h]
  exact Vector.getElem_zipWith _

theorem exponent_divide {c d e : Dimension} (h : c.divide d = some e) (i : Fin 9) :
    e.exponent i = c.exponent i - d.exponent i := by
  rw [exponent, ofVector?_eq_some h]
  exact Vector.getElem_zipWith _

theorem exponent_power {n : Int} {d e : Dimension} (h : d.power n = some e) (i : Fin 9) :
    e.exponent i = n * d.exponent i := by
  rw [exponent, ofVector?_eq_some h]
  exact (Vector.getElem_map _ _).trans (Int.mul_comm _ _)

theorem exponent_root {n : Int} {d e : Dimension} (h : d.root n = some e) :
    n ≠ 0 ∧ ∀ i, d.exponent i = n * e.exponent i := by
  unfold root at h
  split at h
  · next hroot =>
    obtain ⟨hn, hdivides⟩ := hroot
    refine ⟨hn, fun i => ?_⟩
    have hi : d.exponent i ∈ d.exponents.toList := by
      rw [Vector.mem_toList_iff]
      exact Vector.getElem_mem _
    have hdvd : n ∣ d.exponent i := by
      apply Int.dvd_of_tmod_eq_zero
      simpa using List.all_eq_true.1 hdivides _ hi
    have hvalue : e.exponent i = (d.exponent i).tdiv n := by
      rw [exponent, ofVector?_eq_some h]
      exact Vector.getElem_map _ _
    rw [hvalue, Int.mul_tdiv_cancel' hdvd]
  · cases h

/-! ### Operations with a result -/

theorem isSome_ofVector? {x : Vector Int 9} (h : ∀ i : Fin 9, IsExponent x[i]) :
    (ofVector? x).isSome := by
  have hall : ∀ e ∈ x.toList, IsExponent e := by
    intro e he
    obtain ⟨i, hi, rfl⟩ := Vector.getElem_of_mem (Vector.mem_toList_iff.1 he)
    exact h ⟨i, hi⟩
  rw [ofVector?, dif_pos hall]
  rfl

theorem isSome_multiply {c d : Dimension} (h : ∀ i, IsExponent (c.exponent i + d.exponent i)) :
    (c.multiply d).isSome := by
  refine isSome_ofVector? fun i => ?_
  have hvalue : (Vector.zipWith (· + ·) c.exponents d.exponents)[i] =
      c.exponent i + d.exponent i := Vector.getElem_zipWith _
  rw [hvalue]
  exact h i

theorem isSome_divide {c d : Dimension} (h : ∀ i, IsExponent (c.exponent i - d.exponent i)) :
    (c.divide d).isSome := by
  refine isSome_ofVector? fun i => ?_
  have hvalue : (Vector.zipWith (· - ·) c.exponents d.exponents)[i] =
      c.exponent i - d.exponent i := Vector.getElem_zipWith _
  rw [hvalue]
  exact h i

theorem isSome_power {n : Int} {d : Dimension} (h : ∀ i, IsExponent (n * d.exponent i)) :
    (d.power n).isSome := by
  refine isSome_ofVector? fun i => ?_
  have hvalue : (d.exponents.map (· * n))[i] = n * d.exponent i :=
    (Vector.getElem_map _ _).trans (Int.mul_comm _ _)
  rw [hvalue]
  exact h i

theorem ext_exponent {c d : Dimension} (h : ∀ i, c.exponent i = d.exponent i) : c = d := by
  obtain ⟨exponents, _⟩ := c
  obtain ⟨exponents', _⟩ := d
  obtain rfl : exponents = exponents' := by
    ext i hi
    exact h ⟨i, hi⟩
  rfl

end Dimension

namespace MeasureUnit

variable {u v w : MeasureUnit} {s : Settings} {n : Int}

theorem exponentsOr_eq_ok_iff {α : Type} {details : String} {x : Option α} {a : α} :
    exponentsOr details x = .ok a ↔ x = some a := by
  cases x <;> simp [exponentsOr]

/-! ## The possible results -/

/-- A product is one of its operands, the other being unity, or derived from both. -/
theorem multiply_cases (h : u.multiply v = .ok w) :
    (v.isUnity ∧ w = u) ∨ (u.isUnity ∧ w = v) ∨
      ∃ components adHoc name dimension, u.components.add v.components = some components ∧
        u.adHoc.add v.adHoc = some adHoc ∧ u.dimension.multiply v.dimension = some dimension ∧
        w = derived components adHoc name dimension (u.factor.mul v.factor) := by
  unfold multiply at h
  split at h
  · next hv =>
    cases h
    exact .inl ⟨hv, rfl⟩
  · split at h
    · next hu =>
      cases h
      exact .inr (.inl ⟨hu, rfl⟩)
    · simp only [bind_eq_ok_iff, pure_eq_ok_iff, exponentsOr_eq_ok_iff] at h
      obtain ⟨components, hc, adHoc, ha, dimension, hd, rfl⟩ := h
      exact .inr (.inr ⟨components, adHoc, _, dimension, hc, ha, hd, rfl⟩)

/-- A quotient is its dividend, the divisor being unity, or derived from both. -/
theorem divide_cases (h : u.divide v = .ok w) :
    (v.isUnity ∧ w = u) ∨
      ∃ components adHoc name dimension factor, u.components.sub v.components = some components ∧
        u.adHoc.sub v.adHoc = some adHoc ∧ u.dimension.divide v.dimension = some dimension ∧
        u.factor.div v.factor = .ok factor ∧
        w = derived components adHoc name dimension factor := by
  unfold divide at h
  split at h
  · next hv =>
    cases h
    exact .inl ⟨hv, rfl⟩
  · simp only [bind_eq_ok_iff, pure_eq_ok_iff, exponentsOr_eq_ok_iff, liftNumber_eq_ok_iff] at h
    obtain ⟨factor, hf, components, hc, adHoc, ha, dimension, hd, rfl⟩ := h
    exact .inr ⟨components, adHoc, _, dimension, factor, hc, ha, hd, hf, rfl⟩

/-- A power is its base, if that is unity or the exponent is 1, or derived from it. -/
theorem power_cases (h : u.power n s = .ok w) :
    ((n = 1 ∨ u.isUnity) ∧ w = u) ∨
      ∃ components adHoc name dimension factor, u.components.scale n = some components ∧
        u.adHoc.scale n = some adHoc ∧ u.dimension.power n = some dimension ∧
        u.factor.powInt n s = .ok factor ∧
        w = derived components adHoc name dimension factor := by
  unfold power at h
  split at h
  · next htrivial =>
    cases h
    exact .inl ⟨htrivial, rfl⟩
  · simp only [bind_eq_ok_iff, pure_eq_ok_iff, exponentsOr_eq_ok_iff, liftNumber_eq_ok_iff] at h
    obtain ⟨components, hc, adHoc, ha, dimension, hd, factor, hf, rfl⟩ := h
    exact .inr ⟨components, adHoc, _, dimension, factor, hc, ha, hd, hf, rfl⟩

/-! ## The possible failures -/

theorem exponentsOr_eq_error_iff {α : Type} {details : String} {x : Option α}
    {e : ConversionError} :
    exponentsOr details x = .error e ↔ x = none ∧ e = .invalidExponent details := by
  cases x <;> simp [exponentsOr, eq_comm]

/-- A product fails on exponents out of range only. -/
theorem multiply_error {e : ConversionError} (h : u.multiply v = .error e) :
    e = .invalidExponent (overflowText u v "*") ∧ (u.components.add v.components = none ∨
      u.adHoc.add v.adHoc = none ∨ u.dimension.multiply v.dimension = none) := by
  unfold multiply at h
  split at h
  · cases h
  · split at h
    · cases h
    · simp only [bind_eq_error_iff, exponentsOr_eq_error_iff] at h
      rcases h with ⟨hnone, rfl⟩ | ⟨_, -, ⟨hnone, rfl⟩ | ⟨_, -, ⟨hnone, rfl⟩ | ⟨_, -, h⟩⟩⟩
      · exact ⟨rfl, .inl hnone⟩
      · exact ⟨rfl, .inr (.inl hnone)⟩
      · exact ⟨rfl, .inr (.inr hnone)⟩
      · cases h

/-- A quotient by a unit of some scale fails on exponents out of range only. -/
theorem divide_error {e : ConversionError} (hv : v.factor.isZero = false)
    (h : u.divide v = .error e) :
    e = .invalidExponent (overflowText u v "/") ∧ (u.components.sub v.components = none ∨
      u.adHoc.sub v.adHoc = none ∨ u.dimension.divide v.dimension = none) := by
  unfold divide at h
  split at h
  · cases h
  · have hfactor : ∃ f, u.factor.div v.factor = .ok f := by
      rw [Number.div, hv]
      exact ⟨_, rfl⟩
    obtain ⟨f, hf⟩ := hfactor
    simp only [hf, liftNumber, ok_bind, bind_eq_error_iff, exponentsOr_eq_error_iff] at h
    rcases h with ⟨hnone, rfl⟩ | ⟨_, -, ⟨hnone, rfl⟩ | ⟨_, -, ⟨hnone, rfl⟩ | ⟨_, -, h⟩⟩⟩
    · exact ⟨rfl, .inl hnone⟩
    · exact ⟨rfl, .inr (.inl hnone)⟩
    · exact ⟨rfl, .inr (.inr hnone)⟩
    · cases h

/-- A power of a unit of some scale fails on exponents out of range only. -/
theorem power_error {e : ConversionError} (hu : u.factor.isZero = false) (hn : n.natAbs < 2 ^ 32)
    (h : u.power n s = .error e) :
    e = .invalidExponent ("exponent overflow raising " ++ u.symbol ++ " to " ++
      Text.decimalInt n) ∧ (u.components.scale n = none ∨
      u.adHoc.scale n = none ∨ u.dimension.power n = none) := by
  unfold power at h
  split at h
  · cases h
  · obtain ⟨f, hf⟩ := Number.exists_powInt hu hn s
    simp only [hf, liftNumber, bind_eq_error_iff, exponentsOr_eq_error_iff] at h
    rcases h with ⟨hnone, rfl⟩ | ⟨_, -, ⟨hnone, rfl⟩ | ⟨_, -, ⟨hnone, rfl⟩ | ⟨_, -, h⟩⟩⟩
    · exact ⟨rfl, .inl hnone⟩
    · exact ⟨rfl, .inr (.inl hnone)⟩
    · exact ⟨rfl, .inr (.inr hnone)⟩
    · rcases h with h | ⟨_, -, h⟩ <;> cases h

/-! ## Exponents -/

/-- The exponent of a base dimension or of the name of a thing counted. -/
def exponent (u : MeasureUnit) : Fin 9 ⊕ String → Int
  | .inl i => u.dimension.exponent i
  | .inr name => u.adHoc.get name

theorem isExponent_exponent (u : MeasureUnit) (base : Fin 9 ⊕ String) :
    IsExponent (u.exponent base) := by
  cases base with
  | inl i => exact Dimension.isExponent_exponent u.dimension i
  | inr name => exact Exponents.isExponent_get u.adHoc name

theorem exponent_of_isDimensionless (h : u.isDimensionless) : u.exponent = 0 := by
  simp only [isDimensionless, Dimension.isDimensionless, Bool.and_eq_true, List.all_eq_true,
    beq_iff_eq] at h
  obtain ⟨hdimension, hadHoc⟩ := h
  funext base
  cases base with
  | inl i => exact hdimension _ (Vector.mem_toList_iff.2 (Vector.getElem_mem _))
  | inr name =>
    have hentries : u.adHoc.entries = [] := List.isEmpty_iff.1 hadHoc
    show u.adHoc.get name = 0
    rw [Exponents.get, hentries]
    rfl

theorem exponent_of_isCompatible (h : u.isCompatible v) : u.exponent = v.exponent := by
  simp only [isCompatible, Bool.and_eq_true, beq_iff_eq] at h
  funext base
  cases base with
  | inl i => simp only [exponent, h.1]
  | inr name => simp only [exponent, h.2]

theorem dimension_eq_of_exponent (h : u.exponent = v.exponent) : u.dimension = v.dimension :=
  Dimension.ext_exponent fun i => congrFun h (.inl i)

theorem isCompatible_of_ensure {x : Unit} (h : u.ensureCompatible v = .ok x) :
    u.isCompatible v := by
  unfold ensureCompatible at h
  split at h
  · next hcompatible => exact hcompatible
  · cases h

theorem isUnity_iff : u.isUnity ↔
    u.isDimensionless ∧ u.components.isEmpty ∧ u.factor.isOne ∧ u.offset.isZero := by
  simp only [isUnity, isCoherent, Bool.and_eq_true, and_assoc]

theorem exponent_of_isUnity (h : u.isUnity) : u.exponent = 0 :=
  exponent_of_isDimensionless (isUnity_iff.1 h).1

/-- The exponents of a product are the sums of those of its operands. -/
theorem exponent_multiply (h : u.multiply v = .ok w) : w.exponent = u.exponent + v.exponent := by
  rcases multiply_cases h with ⟨hv, rfl⟩ | ⟨hu, rfl⟩ | ⟨_, _, _, _, -, ha, hd, rfl⟩
  · rw [exponent_of_isUnity hv, add_zero]
  · rw [exponent_of_isUnity hu, zero_add]
  · funext base
    cases base with
    | inl i => exact Dimension.exponent_multiply hd i
    | inr name => exact Exponents.get_add ha name

/-- The exponents of a quotient are the differences of those of its operands. -/
theorem exponent_divide (h : u.divide v = .ok w) : w.exponent = u.exponent - v.exponent := by
  rcases divide_cases h with ⟨hv, rfl⟩ | ⟨_, _, _, _, _, -, ha, hd, -, rfl⟩
  · rw [exponent_of_isUnity hv, sub_zero]
  · funext base
    cases base with
    | inl i => exact Dimension.exponent_divide hd i
    | inr name => exact Exponents.get_sub ha name

/-- The exponents of a power are multiples of those of its base. -/
theorem exponent_power (h : u.power n s = .ok w) : w.exponent = n • u.exponent := by
  rcases power_cases h with ⟨rfl | hu, rfl⟩ | ⟨_, _, _, _, _, -, ha, hd, -, rfl⟩
  · rw [one_zsmul]
  · rw [exponent_of_isUnity hu, zsmul_zero]
  · funext base
    cases base with
    | inl i => exact Dimension.exponent_power hd i
    | inr name => exact Exponents.get_scale ha name

/-! ## Components -/

section

variable {M : Type} [DivisionCommMonoid M] {f : String → M}

theorem monomial_of_isUnity (h : u.isUnity) : monomial f u.components.entries = 1 := by
  have hentries : u.components.entries = [] := List.isEmpty_iff.1 (isUnity_iff.1 h).2.1
  rw [hentries, monomial_nil]

/-- The components of a product are those of its operands. -/
theorem monomial_multiply (hf : AddsUp f) (h : u.multiply v = .ok w) :
    monomial f w.components.entries =
      monomial f u.components.entries * monomial f v.components.entries := by
  rcases multiply_cases h with ⟨hv, rfl⟩ | ⟨hu, rfl⟩ | ⟨_, _, _, _, hc, -, -, rfl⟩
  · rw [monomial_of_isUnity hv, mul_one]
  · rw [monomial_of_isUnity hu, one_mul]
  · exact Exponents.monomial_add hf hc

theorem monomial_divide (hf : AddsUp f) (h : u.divide v = .ok w) :
    monomial f w.components.entries =
      monomial f u.components.entries / monomial f v.components.entries := by
  rcases divide_cases h with ⟨hv, rfl⟩ | ⟨_, _, _, _, _, hc, -, -, -, rfl⟩
  · rw [monomial_of_isUnity hv, div_one]
  · exact Exponents.monomial_sub hf hc

theorem monomial_power (h : u.power n s = .ok w) :
    monomial f w.components.entries = monomial f u.components.entries ^ n := by
  rcases power_cases h with ⟨rfl | hu, rfl⟩ | ⟨_, _, _, _, _, hc, -, -, -, rfl⟩
  · rw [zpow_one]
  · rw [monomial_of_isUnity hu, one_zpow]
  · exact Exponents.monomial_scale hc

end

theorem get_components_multiply (h : u.multiply v = .ok w) (name : String) :
    w.components.get name = u.components.get name + v.components.get name := by
  apply Multiplicative.ofAdd.injective
  rw [ofAdd_add, Exponents.get_eq_monomial, Exponents.get_eq_monomial, Exponents.get_eq_monomial,
    monomial_multiply (Exponents.addsUp_of_group _) h]

theorem get_components_divide (h : u.divide v = .ok w) (name : String) :
    w.components.get name = u.components.get name - v.components.get name := by
  apply Multiplicative.ofAdd.injective
  rw [ofAdd_sub, Exponents.get_eq_monomial, Exponents.get_eq_monomial, Exponents.get_eq_monomial,
    monomial_divide (Exponents.addsUp_of_group _) h]

theorem get_components_power (h : u.power n s = .ok w) (name : String) :
    w.components.get name = n * u.components.get name := by
  apply Multiplicative.ofAdd.injective
  rw [← Int.zsmul_eq_mul, ofAdd_zsmul, Exponents.get_eq_monomial, Exponents.get_eq_monomial,
    monomial_power h]

/-! ## Operations with a result -/

/-- There is a product of units whose exponents stay in range. -/
theorem exists_multiply
    (hcomponents : ∀ name, IsExponent (u.components.get name + v.components.get name))
    (hexponent : ∀ base, IsExponent (u.exponent base + v.exponent base)) :
    ∃ w, u.multiply v = .ok w := by
  cases h : u.multiply v with
  | ok w => exact ⟨w, rfl⟩
  | error e =>
    rcases (multiply_error h).2 with hnone | hnone | hnone
    · exact absurd hnone (Option.isSome_iff_ne_none.1 (Exponents.isSome_add hcomponents))
    · exact absurd hnone (Option.isSome_iff_ne_none.1
        (Exponents.isSome_add fun name => hexponent (.inr name)))
    · exact absurd hnone (Option.isSome_iff_ne_none.1
        (Dimension.isSome_multiply fun i => hexponent (.inl i)))

/-- There is a quotient by a unit of some scale if the exponents stay in range. -/
theorem exists_divide (hv : v.factor.isZero = false)
    (hcomponents : ∀ name, IsExponent (u.components.get name - v.components.get name))
    (hexponent : ∀ base, IsExponent (u.exponent base - v.exponent base)) :
    ∃ w, u.divide v = .ok w := by
  cases h : u.divide v with
  | ok w => exact ⟨w, rfl⟩
  | error e =>
    rcases (divide_error hv h).2 with hnone | hnone | hnone
    · exact absurd hnone (Option.isSome_iff_ne_none.1 (Exponents.isSome_sub hcomponents))
    · exact absurd hnone (Option.isSome_iff_ne_none.1
        (Exponents.isSome_sub fun name => hexponent (.inr name)))
    · exact absurd hnone (Option.isSome_iff_ne_none.1
        (Dimension.isSome_divide fun i => hexponent (.inl i)))

/-- There is a power of a unit of some scale if its exponents stay in range. -/
theorem exists_power (hu : u.factor.isZero = false) (hn : n.natAbs < 2 ^ 32)
    (hcomponents : ∀ name, IsExponent (n * u.components.get name))
    (hexponent : ∀ base, IsExponent (n * u.exponent base)) (s : Settings) :
    ∃ w, u.power n s = .ok w := by
  cases h : u.power n s with
  | ok w => exact ⟨w, rfl⟩
  | error e =>
    rcases (power_error hu hn h).2 with hnone | hnone | hnone
    · exact absurd hnone (Option.isSome_iff_ne_none.1 (Exponents.isSome_scale hcomponents))
    · exact absurd hnone (Option.isSome_iff_ne_none.1
        (Exponents.isSome_scale fun name => hexponent (.inr name)))
    · exact absurd hnone (Option.isSome_iff_ne_none.1
        (Dimension.isSome_power fun i => hexponent (.inl i)))

/-! ## Exact scales -/

theorem isExact_multiply (hu : u.factor.isExact) (hv : v.factor.isExact)
    (h : u.multiply v = .ok w) : w.factor.isExact := by
  rcases multiply_cases h with ⟨-, rfl⟩ | ⟨-, rfl⟩ | ⟨_, _, _, _, -, -, -, rfl⟩
  · exact hu
  · exact hv
  · exact Number.isExact_mul hu hv

theorem isExact_divide (hu : u.factor.isExact) (hv : v.factor.isExact)
    (h : u.divide v = .ok w) : w.factor.isExact := by
  rcases divide_cases h with ⟨-, rfl⟩ | ⟨_, _, _, _, factor, -, -, -, hfactor, rfl⟩
  · exact hu
  · exact Number.isExact_div hu hv hfactor

/-- A power is exact unless it is rounded. -/
theorem isExact_power (hu : u.factor.isExact)
    (hpower : ∀ x, u.factor.powInt n s = .ok x → x.isExact) (h : u.power n s = .ok w) :
    w.factor.isExact := by
  rcases power_cases h with ⟨-, rfl⟩ | ⟨_, _, _, _, factor, -, -, -, hfactor, rfl⟩
  · exact hu
  · exact hpower factor hfactor

/-- The scale starts at zero and is exactly `r`, which is not 0. -/
structure ScaledBy (u : MeasureUnit) (r : Rat) : Prop where
  factor : u.factor = .exact r
  ne_zero : r ≠ 0
  offset : u.offset = Number.ofInt 0

namespace ScaledBy

variable {f g : Rat}

theorem toCoherent (h : u.ScaledBy f) (r : Rat) : u.toCoherent (.exact r) = .exact (r * f) := by
  rw [MeasureUnit.toCoherent, h.factor, h.offset, Number.exact_mul, Number.exact_add_zero]

theorem eq_one_of_isUnity (h : u.ScaledBy f) (hu : u.isUnity) : f = 1 := by
  have hone := (isUnity_iff.1 hu).2.2.1
  rw [h.factor] at hone
  exact Number.isOne_exact hone

theorem derived {components adHoc : Exponents} {name : String} {dimension : Dimension}
    (hf : f ≠ 0) : (derived components adHoc name dimension (.exact f)).ScaledBy f :=
  ⟨rfl, hf, rfl⟩

theorem multiply (hu : u.ScaledBy f) (hv : v.ScaledBy g) (h : u.multiply v = .ok w) :
    w.ScaledBy (f * g) := by
  rcases multiply_cases h with ⟨hone, rfl⟩ | ⟨hone, rfl⟩ | ⟨_, _, _, _, -, -, -, rfl⟩
  · rwa [hv.eq_one_of_isUnity hone, mul_one]
  · rwa [hu.eq_one_of_isUnity hone, one_mul]
  · rw [hu.factor, hv.factor, Number.exact_mul]
    exact derived (mul_ne_zero hu.ne_zero hv.ne_zero)

theorem divide (hu : u.ScaledBy f) (hv : v.ScaledBy g) (h : u.divide v = .ok w) :
    w.ScaledBy (f / g) := by
  rcases divide_cases h with ⟨hone, rfl⟩ | ⟨_, _, _, _, factor, -, -, -, hfactor, rfl⟩
  · rwa [hv.eq_one_of_isUnity hone, div_one]
  · rw [hu.factor, hv.factor, Number.exact_div _ hv.ne_zero] at hfactor
    cases hfactor
    exact derived (div_ne_zero hu.ne_zero hv.ne_zero)

/-- A power keeps an exact scale if its factor is not rounded. -/
theorem power (hu : u.ScaledBy f) (h : u.power n s = .ok w) (hexact : w.factor.isExact) :
    w.ScaledBy (f ^ n) := by
  rcases power_cases h with ⟨rfl | hone, rfl⟩ | ⟨_, _, _, _, factor, -, -, -, hfactor, rfl⟩
  · rwa [zpow_one]
  · have hf := hu.eq_one_of_isUnity hone
    rwa [hf, one_zpow, ← hf]
  · obtain ⟨r, hr : factor = .exact r⟩ := Number.isExact_iff.1 hexact
    rw [hu.factor, hr] at hfactor
    rw [hr, Number.powInt_eq_exact hfactor]
    exact derived (zpow_ne_zero n hu.ne_zero)

end ScaledBy

end MeasureUnit

end Reckoner
