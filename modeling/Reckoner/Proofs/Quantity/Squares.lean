import Reckoner.Proofs.Number.Powers
import Reckoner.Proofs.Number.Roots
import Reckoner.Proofs.Quantity

/-!
# Roots of squares

A square root takes a square back, with the unit. For the exponents this holds of all powers and
roots: if `n` is not 0, the `n`-th root of an `n`-th power has the exponents of the base
(`Dimension.root_power`, `Exponents.root_scale`). Value and scale have exact roots because they are
exact squares (`Number.sqrt_mul_self`).

Only plain numbers are left as they are by powers and roots, and the square of a unit with a positive
scale is plain only if the unit is (`MeasureUnit.isUnity_of_square`). So whichever way the square
has taken, the root finds the way back (`Quantity.restores_sqrt`). A power with the exponent one half
goes the same way, but checks the range of the result (`Quantity.pow_half_of_square`).
-/

namespace Reckoner

/-! ## Exponents -/

theorem Dimension.root_power {n : Int} {d e : Dimension} (hn : n ≠ 0) (h : d.power n = some e) :
    e.root n = some d := by
  have hvector := ofVector?_eq_some h
  have hdivides : e.exponents.toList.all (·.tmod n == 0) := by
    simp [hvector]
  have hquotients : e.exponents.map (·.tdiv n) = d.exponents := by
    rw [hvector, Vector.map_map]
    refine (Vector.map_congr_left fun x _ => ?_).trans (Vector.map_id _)
    exact Int.mul_tdiv_cancel x hn
  rw [root, if_pos ⟨hn, hdivides⟩, hquotients, ofVector?, dif_pos d.inRange]

theorem Exponents.root_scale {n : Int} {a b : Exponents} (hn : n ≠ 0) (ha : a.Reduced)
    (h : a.scale n = some b) : b.root n = some a := by
  -- No entry becomes 0, so that none is dropped.
  have hentries : b.entries = a.entries.map fun e => (e.1, e.2 * n) := by
    rw [ofEntries?_eq_some h, dropZeros, List.filter_eq_self]
    simp only [List.mem_map]
    rintro _ ⟨e, he, rfl⟩
    simpa using ⟨ha e he, hn⟩
  have hdivides : (b.entries.all fun e => n != 0 && e.2.tmod n == 0) = true := by
    simp [hentries, hn]
  have hquotients : (b.entries.map fun e => (e.1, e.2.tdiv n)) = a.entries := by
    rw [hentries, List.map_map]
    refine (List.map_congr_left fun e _ => ?_).trans (List.map_id _)
    exact Prod.ext rfl (Int.mul_tdiv_cancel e.2 hn)
  unfold root
  rw [if_pos hdivides]
  unfold ofEntries?
  simp only [hquotients]
  rw [dif_pos a.inRange]

/-! ## Numbers -/

namespace Number

variable {s : Settings} {r x : Rat} {y : Number}

theorem sqrt_mul_self (hr : 0 ≤ r) (p : Nat) : (exact (r * r)).sqrt p = .ok (exact r) := by
  rw [sqrt_of_nonneg (mul_nonneg hr hr), ratSqrt?_mul_self hr]

/-- An exact square is the square. -/
theorem square_eq_exact (hy : y.isExact) (h : (exact r).powInt 2 s = .ok y) :
    y = exact (r * r) := by
  obtain ⟨x, rfl⟩ := isExact_iff.1 hy
  rw [powInt_eq_exact h, zpow_ofNat, pow_two]

theorem ratBits_le_mul_self (r : Rat) : ratBits r ≤ ratBits (r * r) := by
  rw [ratBits, ratBits, Rat.mul_self_num, Rat.mul_self_den, Int.natAbs_mul]
  exact max_le_max (bitCount_mono (Nat.le_mul_self _)) (bitCount_mono (Nat.le_mul_self _))

/-- A number that stays exact within the limits needs no more bits than they allow. -/
theorem ratBits_le_of_withinLimits (h : (exact r).withinLimits s = .ok (exact x)) :
    ratBits r ≤ s.maxExactBits := by
  unfold withinLimits at h
  split at h
  · simp only [Except.ok.injEq] at h
    split at h
    · cases h
    · next hbits => exact Nat.not_lt.1 hbits
  · cases h

/-- A number whose square is exact is its own first power. -/
theorem powInt_one (hy : y.isExact) (h : (exact r).powInt 2 s = .ok y) :
    (exact r).powInt 1 s = .ok (exact r) := by
  by_cases hr : r = 0
  · subst hr
    exact powInt_of_zero one_pos s
  · have hestimate : powerBits r 1 ≤ powerBits r 2 :=
      min_le_min_right _ (Nat.mul_le_mul_left _ (by decide))
    rw [powInt_of_ne hr (by decide)] at h
    rw [powInt_of_ne hr one_ne_zero, zpow_one]
    split at h
    · cases h
      cases hy
    · next hbits => rw [if_neg (by omega), if_neg (by decide)]

/-- A number whose square stays exact within the limits is within them if its size is. -/
theorem withinLimits_of_square (h : (exact (r * r)).withinLimits s = .ok (exact x)) :
    (exact r).withinLimits s =
      if (exact r).inRange s then .ok (exact r) else .error .overflow := by
  have hbits := (ratBits_le_mul_self r).trans (ratBits_le_of_withinLimits h)
  simp only [withinLimits, if_neg (Nat.not_lt.2 hbits)]

end Number

/-! ## Units -/

namespace MeasureUnit

variable {u w t : MeasureUnit} {s : Settings} {n : Int} {f : Rat}

theorem isDimensionless_iff (h : u.adHoc.Reduced) : u.isDimensionless ↔ u.exponent = 0 := by
  refine ⟨exponent_of_isDimensionless, fun hzero => ?_⟩
  have hnone : (dimensionless).exponent = 0 := exponent_of_isDimensionless rfl
  have hdimension : u.dimension = .dimensionless :=
    dimension_eq_of_exponent (v := dimensionless) (hzero.trans hnone.symm)
  have hthings : u.adHoc = .empty :=
    h.ext Exponents.reduced_empty fun name => congrFun hzero (.inr name)
  rw [isDimensionless, hdimension, hthings]
  rfl

/-- A power with an exponent other than 0 has a dimension if the base has one. -/
theorem isDimensionless_of_power (hu : u.adHoc.Reduced) (hn : n ≠ 0) (h : u.power n s = .ok w)
    (hw : w.isDimensionless) : u.isDimensionless := by
  rw [isDimensionless_iff hu]
  have hzero : n • u.exponent = 0 := by
    rw [← exponent_power h]
    exact exponent_of_isDimensionless hw
  funext base
  exact (mul_eq_zero.1 (congrFun hzero base)).resolve_left hn

/-- The scale is exact and positive and starts at zero; no entries are 0. -/
structure IsPositive (u : MeasureUnit) (f : Rat) : Prop where
  factor : u.factor = .exact f
  pos : 0 < f
  offset : u.offset.isZero
  components : u.components.Reduced
  adHoc : u.adHoc.Reduced

/-- The square has the square of the scale, if that is exact. -/
theorem factor_square (hu : u.factor = .exact f) (h : u.power 2 s = .ok w)
    (hw : w.factor.isExact) (hunity : ¬ u.isUnity) : w.factor = .exact (f * f) := by
  rcases power_cases h with ⟨htwo | hunity', -⟩ | ⟨_, _, _, _, factor, -, -, -, hfactor, rfl⟩
  · cases htwo
  · exact absurd hunity' hunity
  · rw [hu] at hfactor
    exact Number.square_eq_exact hw hfactor

/-- A unit is the unit of plain numbers if its square is. -/
theorem isUnity_of_square (hu : u.IsPositive f) (h : u.power 2 s = .ok w)
    (hexact : w.factor.isExact) (hw : w.isUnity) : u.isUnity := by
  by_contra hunity
  obtain ⟨hdimension, hempty, hone, -⟩ := isUnity_iff.1 hw
  have hcomponents : u.components = .empty := by
    refine hu.components.ext Exponents.reduced_empty fun name => ?_
    have hentries : w.components.entries = [] := List.isEmpty_iff.1 hempty
    have hzero : 2 * u.components.get name = 0 := by
      rw [← get_components_power h, Exponents.get, hentries]
      rfl
    simpa using hzero
  have hscale : f = 1 := by
    rw [factor_square hu.factor h hexact hunity] at hone
    exact (mul_self_eq_one_iff.1 (Number.isOne_exact hone)).resolve_right
      (neg_one_lt_zero.trans hu.pos).ne'
  refine hunity (isUnity_iff.2 ⟨isDimensionless_of_power hu.adHoc two_ne_zero h hdimension, ?_, ?_,
    hu.offset⟩)
  · rw [hcomponents]
    rfl
  · rw [hu.factor, hscale]
    rfl

/-- The unit has the exponents and the scale of the other one. -/
structure Restores (t u : MeasureUnit) : Prop where
  components : t.components = u.components
  dimension : t.dimension = u.dimension
  adHoc : t.adHoc = u.adHoc
  factor : t.factor = u.factor

/-- A unit whose exponents and whose scale have square roots has one. -/
theorem exists_root {components adHoc : Exponents} {dimension : Dimension} {factor : Number}
    (hw : ¬ w.isUnity) (hd : w.dimension.root 2 = some dimension)
    (hc : w.components.root 2 = some components) (ha : w.adHoc.root 2 = some adHoc)
    (hf : w.factor.sqrt s.precision = .ok factor) :
    ∃ name, w.root 2 s = .ok (derived components adHoc name dimension factor) := by
  unfold root
  rw [if_neg hw]
  simp only [hd, hc, ha, hf, exponentsOr, ok_bind, if_true, liftNumber]
  exact ⟨_, rfl⟩

/-- **The root of the square of a unit** is that unit, its name apart. -/
theorem root_square (hu : u.IsPositive f) (h : u.power 2 s = .ok w) (hw : w.factor.isExact) :
    ∃ t, w.root 2 s = .ok t ∧ t.Restores u := by
  by_cases hunity : u.isUnity
  · have hself : u.power 2 s = .ok u := if_pos (.inr hunity)
    obtain rfl : u = w := by
      rw [hself] at h
      exact Except.ok.inj h
    exact ⟨u, if_pos hunity, rfl, rfl, rfl, rfl⟩
  · have hplain : ¬ w.isUnity := fun hplain => hunity (isUnity_of_square hu h hw hplain)
    have hscale : w.factor.sqrt s.precision = .ok u.factor := by
      rw [factor_square hu.factor h hw hunity, Number.sqrt_mul_self hu.pos.le, hu.factor]
    rcases power_cases h with ⟨htwo | hunity', -⟩ | ⟨_, _, _, _, _, hc, ha, hd, -, rfl⟩
    · cases htwo
    · exact absurd hunity' hunity
    · obtain ⟨name, hroot⟩ := exists_root hplain (Dimension.root_power two_ne_zero hd)
        (Exponents.root_scale two_ne_zero hu.components hc)
        (Exponents.root_scale two_ne_zero hu.adHoc ha) hscale
      exact ⟨_, hroot, rfl, rfl, rfl, rfl⟩

end MeasureUnit

/-! ## Quantities -/

namespace Quantity

variable {q sq t : Quantity} {s : Settings} {x f : Rat}

/-- An exact value that is not negative, in a unit of positive scale. -/
structure IsNonneg (q : Quantity) (x f : Rat) : Prop where
  value : q.value = .exact x
  nonneg : 0 ≤ x
  unit : q.unit.IsPositive f

/-- The quantity has the value, the exponents and the scale of the other one. -/
structure Restores (t q : Quantity) : Prop where
  value : t.value = q.value
  unit : t.unit.Restores q.unit

/-- The square of a quantity, where it is exact, is the square of value and unit. -/
theorem square_cases (hq : q.IsNonneg x f) (h : q.pow (plain (.ofInt 2)) s = .ok sq)
    (hexact : sq.value.isExact) :
    q.unit.power 2 s = .ok sq.unit ∧ sq.value = .exact (x * x) ∧
      (Number.exact x).powInt 2 s = .ok sq.value ∧ sq.value.withinLimits s = .ok sq.value := by
  rw [pow_plain rfl rfl] at h
  obtain ⟨power, hunit, hpower, hlimits⟩ := powInt_cases rfl h
  rw [hq.value] at hpower
  obtain ⟨y, hy⟩ := Number.isExact_iff.1 hexact
  obtain rfl : power = sq.value := by
    rw [hy] at hlimits ⊢
    exact Number.withinLimits_eq_exact hlimits
  exact ⟨hunit, Number.square_eq_exact hexact hpower, hpower, hlimits⟩

theorem exists_sqrt (hq : q.IsNonneg x f) (h : q.pow (plain (.ofInt 2)) s = .ok sq)
    (hvalue : sq.value.isExact) (hfactor : sq.unit.factor.isExact) :
    ∃ t, sq.sqrt s = .ok t ∧ t.Restores q := by
  obtain ⟨hunit, hsquare, -, -⟩ := square_cases hq h hvalue
  obtain ⟨unit, hroot, hrestores⟩ := MeasureUnit.root_square hq.unit hunit hfactor
  refine ⟨⟨q.value, unit⟩, ?_, rfl, hrestores⟩
  rw [sqrt, hroot, hsquare, Number.sqrt_mul_self hq.nonneg, hq.value]
  rfl

/-- A power of a quantity with a dimension to one half is the first power of its root. -/
theorem pow_half (h : sq.isDimensionless = false) :
    sq.pow (plain (.exact (1 / 2))) s = sq.powRatio (.exact (1 / 2)) 1 2 s := by
  have hdimension : sq.unit.isDimensionless = false := h
  have hfold : sq.fold = sq := by
    rw [fold, hdimension]
    rfl
  have hplain : sq.isPlain = false := by
    rw [isPlain, MeasureUnit.isUnity, hdimension]
    rfl
  have hone : (plain (.exact (1 / 2))).isPlain = true := rfl
  have hhalf : (Number.exact (1 / 2)).isInteger = false := by decide +kernel
  have hnum : (1 / 2 : Rat).num = 1 := by decide +kernel
  have hden : (1 / 2 : Rat).den = 2 := by decide +kernel
  have hexponents : IsExponent 1 ∧ IsExponent (2 : Nat) := by decide
  unfold pow
  rw [fold_eq_self hone, hfold]
  simp only [hone, hplain, Bool.not_true, Bool.false_eq_true, if_false]
  simp only [plain, hhalf, Bool.and_false, Bool.false_eq_true, if_false, hnum, hden,
    if_pos hexponents]
  rfl

theorem pow_half_of_square (hq : q.IsNonneg x f) (h : q.pow (plain (.ofInt 2)) s = .ok sq)
    (hvalue : sq.value.isExact) (hfactor : sq.unit.factor.isExact)
    (hdimension : q.isDimensionless = false) :
    ∃ unit, unit.Restores q.unit ∧ sq.pow (plain (.exact (1 / 2))) s =
      if q.value.inRange s then .ok ⟨q.value, unit⟩ else .error (.number .overflow) := by
  obtain ⟨hunit, hsquare, hpower, hlimits⟩ := square_cases hq h hvalue
  obtain ⟨unit, hroot, hrestores⟩ := MeasureUnit.root_square hq.unit hunit hfactor
  have hsq : sq.isDimensionless = false := by
    by_contra hnone
    rw [Bool.not_eq_false] at hnone
    rw [isDimensionless, MeasureUnit.isDimensionless_of_power hq.unit.adHoc two_ne_zero hunit hnone]
      at hdimension
    cases hdimension
  have hself : (unit.power 1 s : Except ConversionError MeasureUnit) = .ok unit := if_pos (.inl rfl)
  have hfirst := Number.powInt_one hvalue hpower
  rw [hsquare] at hlimits
  refine ⟨unit, hrestores, ?_⟩
  rw [pow_half hsq, powRatio, hroot, ok_bind, hself, ok_bind, if_pos rfl, hsquare,
    Number.sqrt_mul_self hq.nonneg, ok_bind, hfirst, liftNumber, ok_bind,
    Number.withinLimits_of_square hlimits, hq.value]
  split <;> rfl

/-- **The square root undoes squaring.** A quantity whose value is exact and not negative, in a unit
of exact and positive scale, is the root of its square, if the square is exact: the root has its
value, its exponents and its scale. If the quantity has a dimension, so does the power of the square
to one half, which fails if the value is out of range. -/
theorem sqrt_of_square (hq : q.IsNonneg x f) (h : q.pow (plain (.ofInt 2)) s = .ok sq)
    (hvalue : sq.value.isExact) (hfactor : sq.unit.factor.isExact) :
    (∃ t, sq.sqrt s = .ok t ∧ t.Restores q) ∧
      (q.isDimensionless = false →
        (∀ t, sq.pow (plain (.exact (1 / 2))) s = .ok t → t.Restores q) ∧
          ((∃ t, sq.pow (plain (.exact (1 / 2))) s = .ok t) ↔ q.value.inRange s)) := by
  refine ⟨exists_sqrt hq h hvalue hfactor, fun hdimension => ?_⟩
  obtain ⟨unit, hrestores, hpow⟩ := pow_half_of_square hq h hvalue hfactor hdimension
  rw [hpow]
  by_cases hrange : q.value.inRange s
  · simp only [if_pos hrange, Except.ok.injEq]
    refine ⟨?_, iff_of_true ⟨_, rfl⟩ hrange⟩
    rintro t rfl
    exact ⟨rfl, hrestores⟩
  · simp [Bool.eq_false_iff.2 hrange]

/-- A length of 3/2 km, squared and taken back in both ways. -/
theorem sqrt_of_square_kilometres :
    let q := kilometres (3 / 2)
    ∃ sq, q.pow (plain (.ofInt 2)) default = .ok sq ∧
      (∃ t, sq.sqrt default = .ok t ∧ t.Restores q) ∧
      ∃ t, sq.pow (plain (.exact (1 / 2))) default = .ok t ∧ t.Restores q := by
  intro q
  have hq : q.IsNonneg (3 / 2) 1000 :=
    ⟨rfl, by decide +kernel, rfl, by decide +kernel, by decide +kernel,
      Exponents.reduced_single _, Exponents.reduced_empty⟩
  obtain ⟨sq, h, hexact⟩ : ∃ sq, q.pow (plain (.ofInt 2)) default = .ok sq ∧
      sq.value.isExact && sq.unit.factor.isExact := exists_eq_ok (by decide +kernel)
  rw [Bool.and_eq_true] at hexact
  obtain ⟨hsqrt, hpow⟩ := sqrt_of_square hq h hexact.1 hexact.2
  obtain ⟨hrestores, hsucceeds⟩ := hpow (by decide +kernel)
  obtain ⟨t, ht⟩ := hsucceeds.2 (by decide +kernel)
  exact ⟨sq, h, hsqrt, t, ht, hrestores t ht⟩

end Quantity

end Reckoner
