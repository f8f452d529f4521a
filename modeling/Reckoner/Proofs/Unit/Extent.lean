import Reckoner.Proofs.Unit.Catalogue
import Mathlib.Data.DFinsupp.BigOperators

/-!
# The extent of a unit

The extent of a unit is its exponents over the base dimensions and the names of things counted, in
one vector of integers of any size. Products, quotients and powers of units add, subtract and
multiply extents:

    u.multiply v = .ok w   →   w.extent = u.extent + v.extent

Two facts about a unit are kept beside its extent (`MeasureUnit.Regular`). Things that cancel leave
no entry behind, so that compatible units have equal extents and the other way round. And the only
units with an offset are temperatures, which is why sums of them may be given in kelvin. Both hold
of everything reachable from a registry of such units (`Registry.IsRegular.regular_of_reachable`),
and of the catalogued units in particular.
-/

namespace Reckoner

/-- Exponents over the base dimensions and the names of things counted, of any size. -/
abbrev Extent := Π₀ _ : Fin 9 ⊕ String, Int

/-- The extent of things of one name. -/
def Extent.thing (name : String) : Extent := DFinsupp.single (.inr name) 1

namespace MeasureUnit

variable {u v w : MeasureUnit} {s : Settings} {n : Int}

/-- The exponents of a unit. -/
def extent (u : MeasureUnit) : Extent :=
  ∑ i, DFinsupp.single (.inl i) (u.dimension.exponent i) +
    (u.adHoc.entries.map fun e => DFinsupp.single (.inr e.1) e.2).sum

theorem things_inl (entries : List (String × Int)) (i : Fin 9) :
    (entries.map fun e => (DFinsupp.single (.inr e.1) e.2 : Extent)).sum (.inl i) = 0 := by
  induction entries with
  | nil => rfl
  | cons e rest ih =>
    rw [List.map_cons, List.sum_cons, DFinsupp.add_apply, ih, add_zero]
    exact DFinsupp.single_eq_of_ne (by simp)

theorem things_inr (m : Exponents) (name : String) :
    (m.entries.map fun e => (DFinsupp.single (.inr e.1) e.2 : Extent)).sum (.inr name) =
      m.get name := by
  apply Multiplicative.ofAdd.injective
  rw [Exponents.get_eq_monomial]
  generalize m.entries = entries
  induction entries with
  | nil => rfl
  | cons e rest ih =>
    obtain ⟨other, n⟩ := e
    rw [List.map_cons, List.sum_cons, DFinsupp.add_apply, ofAdd_add, ih, monomial_cons]
    congr 1
    by_cases hname : other = name
    · subst hname
      simp [Exponents.indicator, ← ofAdd_zsmul]
    · rw [Exponents.indicator, if_neg hname, ofAdd_zero, one_zpow]
      have hne : (Sum.inr name : Fin 9 ⊕ String) ≠ .inr other := by
        simpa using Ne.symm hname
      rw [DFinsupp.single_eq_of_ne hne]
      rfl

@[simp]
theorem extent_apply (u : MeasureUnit) (base : Fin 9 ⊕ String) :
    u.extent base = u.exponent base := by
  unfold extent
  rw [DFinsupp.add_apply, DFinsupp.finsetSum_apply]
  cases base with
  | inl i =>
    rw [things_inl, add_zero]
    simp [DFinsupp.single_apply, exponent]
  | inr name =>
    rw [things_inr]
    simp [DFinsupp.single_apply, exponent]

theorem extent_eq_iff : u.extent = v.extent ↔ u.exponent = v.exponent := by
  constructor
  · intro h
    funext base
    rw [← extent_apply, h, extent_apply]
  · intro h
    ext base
    rw [extent_apply, extent_apply, h]

theorem extent_of_isDimensionless (h : u.isDimensionless) : u.extent = 0 := by
  ext base
  rw [extent_apply, exponent_of_isDimensionless h]
  rfl

theorem extent_of_isUnity (h : u.isUnity) : u.extent = 0 :=
  extent_of_isDimensionless (isUnity_iff.1 h).1

theorem extent_multiply (h : u.multiply v = .ok w) : w.extent = u.extent + v.extent := by
  ext base
  rw [DFinsupp.add_apply, extent_apply, extent_apply, extent_apply, exponent_multiply h]
  rfl

theorem extent_divide (h : u.divide v = .ok w) : w.extent = u.extent - v.extent := by
  ext base
  rw [DFinsupp.sub_apply, extent_apply, extent_apply, extent_apply, exponent_divide h]
  rfl

theorem extent_power (h : u.power n s = .ok w) : w.extent = n • u.extent := by
  ext base
  rw [DFinsupp.zsmul_apply, extent_apply, extent_apply, exponent_power h]
  rfl

/-- Compatible units have one extent. -/
theorem extent_of_isCompatible (h : u.isCompatible v) : u.extent = v.extent :=
  extent_eq_iff.2 (exponent_of_isCompatible h)

theorem extent_counting (name : String) : (counting name).extent = Extent.thing name := by
  have hdimension : ∀ i : Fin 9, Dimension.dimensionless.exponent i = 0 := by decide
  ext base
  rw [extent_apply, Extent.thing]
  cases base with
  | inl i =>
    rw [DFinsupp.single_eq_of_ne (by simp)]
    exact hdimension i
  | inr other =>
    show (Exponents.single name).get other = _
    by_cases hname : other = name
    · subst hname
      simp [Exponents.get, Exponents.single]
    · have hkey : (other == name) = false := beq_false_of_ne hname
      rw [DFinsupp.single_eq_of_ne (by simpa using hname), Exponents.get, Exponents.single,
        List.lookup_cons, hkey]
      rfl

/-! ## Regular units -/

/-- Things counted have an exponent other than 0, and only temperatures have an offset. -/
structure Regular (u : MeasureUnit) : Prop where
  reduced : u.adHoc.Reduced
  offset : u.hasOffset → u.extent = kelvin.extent

/-- A scale that starts at zero has no offset. -/
theorem regular_of_offset (hadHoc : u.adHoc.Reduced) (h : u.offset = Number.ofInt 0) :
    u.Regular where
  reduced := hadHoc
  offset hoffset := by
    rw [hasOffset, h] at hoffset
    cases hoffset

theorem regular_new (symbol name : String) (d : Dimension) (factor : Number) (category : String) :
    (new symbol name d factor category).Regular :=
  regular_of_offset Exponents.reduced_empty rfl

theorem regular_counting (name : String) : (counting name).Regular :=
  regular_of_offset (Exponents.reduced_single name) rfl

namespace Regular

theorem multiply (hu : u.Regular) (hv : v.Regular) (h : u.multiply v = .ok w) : w.Regular := by
  rcases multiply_cases h with ⟨-, rfl⟩ | ⟨-, rfl⟩ | ⟨_, _, _, _, -, ha, -, rfl⟩
  · exact hu
  · exact hv
  · exact regular_of_offset (Exponents.reduced_combine ha) rfl

theorem divide (hu : u.Regular) (h : u.divide v = .ok w) : w.Regular := by
  rcases divide_cases h with ⟨-, rfl⟩ | ⟨_, _, _, _, _, -, ha, -, -, rfl⟩
  · exact hu
  · exact regular_of_offset (Exponents.reduced_combine ha) rfl

theorem power (hu : u.Regular) (h : u.power n s = .ok w) : w.Regular := by
  rcases power_cases h with ⟨-, rfl⟩ | ⟨_, _, _, _, _, -, ha, -, -, rfl⟩
  · exact hu
  · exact regular_of_offset (Exponents.reduced_scale ha) rfl

end Regular

theorem isStable_regular : IsStable Regular where
  new := regular_new
  rename _ hu := ⟨hu.reduced, hu.offset⟩
  multiply hu hv h := hu.multiply hv h
  divide hu _ h := hu.divide h
  power hu h := hu.power h

end MeasureUnit

/-! ## Regular registries -/

namespace Registry

variable {r : Registry} {u : MeasureUnit}

/-- All registered units are regular. -/
def IsRegular (r : Registry) : Prop := ∀ p ∈ r.units, p.2.Regular

/-- Everything reachable from a regular registry is regular; multiples have no offset. -/
theorem IsRegular.regular_of_reachable (hr : r.IsRegular) (h : r.Reachable u) : u.Regular :=
  MeasureUnit.isStable_regular.of_reachable hr h

/-- A registry is regular if the catalogued units are. -/
theorem isRegular_ofCatalogue {entries : List CatalogueEntry}
    (h : ∀ p ∈ Catalogue.units entries, p.1.Regular) : (ofCatalogue entries).IsRegular :=
  MeasureUnit.isStable_regular.ofCatalogue fun u scaling hentry =>
    h (u, scaling) (List.mem_filterMap.2 ⟨_, hentry, rfl⟩)

end Registry

theorem regular_of_catalogue : ∀ p ∈ Catalogue.units Catalogue.entries, p.1.Regular := by
  intro p hp
  obtain ⟨-, hadHoc, -, hstart⟩ := Catalogue.lines_checked.2 p hp
  constructor
  · rw [hadHoc]
    exact Exponents.reduced_empty
  · intro hoffset
    have hdimension : p.1.dimension = .temperature := by
      rcases hstart with hzero | hshifted
      · rw [MeasureUnit.hasOffset, hzero] at hoffset
        cases hoffset
      · exact hshifted.2
    apply MeasureUnit.extent_of_isCompatible
    rw [MeasureUnit.isCompatible, hdimension, hadHoc]
    rfl

/-- What is found by name in the standard registry is regular. -/
theorem regular_of_lookup? {name : String} {u : MeasureUnit}
    (h : standardUnits.lookup? name = some u) : u.Regular :=
  (Registry.isRegular_ofCatalogue regular_of_catalogue).regular_of_reachable (.lookup h)

end Reckoner
