import Reckoner.Proofs.Number.Nonzero
import Reckoner.Proofs.Unit.Algebra
import Reckoner.Proofs.Unit.Symbol
import Reckoner.Unit.Registry
import Mathlib.Algebra.BigOperators.Group.Finset.Defs

/-!
# Units over a table of base units

A unit keeps its symbol, dimension, factor and components side by side. Over a table of base units
the components alone determine the other three (`Represented`): the symbol is composed from them, the
dimension is the sum of the dimensions of the base units, and the factor, as long as it is exact, is
the product of their factors.

The unit of plain numbers and the base units are represented, and products, quotients and powers of
represented units are represented again.
-/

namespace Reckoner

/-- The dimension and the factor of every base unit, by its symbol. -/
abbrev UnitTable := String → Option (Dimension × Number)

namespace UnitTable

variable (t : UnitTable)

/-- An exponent of the dimension of a base unit. -/
def exponent (i : Fin 9) (symbol : String) : Int :=
  ((t symbol).map fun base => base.1.exponent i).getD 0

/-- The factor of a base unit. -/
def factor (symbol : String) : Number := ((t symbol).map Prod.snd).getD (Number.ofInt 1)

/-- No factor of the table is 0. -/
def Nonzero : Prop := ∀ symbol d f, t symbol = some (d, f) → f.isZero = false

/-- The sum of the dimensions of components, at one base dimension. -/
def totalExponent (i : Fin 9) (components : Exponents) : Int :=
  (components.entries.map fun c => c.2 * t.exponent i c.1).sum

/-- The product of the factors of components. -/
def totalFactor (components : Exponents) : Rat :=
  (components.entries.map fun c => (t.factor c.1).value ^ c.2).prod

end UnitTable

/-- The components determine the unit, over a table of base units. -/
structure MeasureUnit.Represented (t : UnitTable) (u : MeasureUnit) : Prop where
  reduced : u.components.Reduced
  known : ∀ symbol ∈ u.components.names, (t symbol).isSome
  symbol : u.symbol = composeSymbol u.components
  dimension : ∀ i : Fin 9, u.dimension.exponent i = t.totalExponent i u.components
  adHoc : u.adHoc = .empty
  factor : ∀ r, u.factor = .exact r →
    (∀ symbol ∈ u.components.names, (t.factor symbol).isExact) ∧ r = t.totalFactor u.components
  factor_ne_zero : u.factor.isZero = false

namespace UnitTable

variable {t : UnitTable} {a b c : Exponents} {i : Fin 9}

/-! ## Totals of sums and multiples -/

/-- The table read as integers under addition. -/
theorem ofAdd_totalExponent (c : Exponents) :
    Multiplicative.ofAdd (t.totalExponent i c) =
      monomial (fun symbol => Multiplicative.ofAdd (t.exponent i symbol)) c.entries := by
  unfold totalExponent monomial
  rw [ofAdd_list_prod, List.map_map]
  rfl

theorem totalExponent_add (h : a.add b = some c) :
    t.totalExponent i c = t.totalExponent i a + t.totalExponent i b := by
  apply Multiplicative.ofAdd.injective
  rw [ofAdd_add, ofAdd_totalExponent, ofAdd_totalExponent, ofAdd_totalExponent,
    Exponents.monomial_add (Exponents.addsUp_of_group _) h]

theorem totalExponent_sub (h : a.sub b = some c) :
    t.totalExponent i c = t.totalExponent i a - t.totalExponent i b := by
  apply Multiplicative.ofAdd.injective
  rw [ofAdd_sub, ofAdd_totalExponent, ofAdd_totalExponent, ofAdd_totalExponent,
    Exponents.monomial_sub (Exponents.addsUp_of_group _) h]

theorem totalExponent_scale {n : Int} (h : a.scale n = some c) :
    t.totalExponent i c = n * t.totalExponent i a := by
  apply Multiplicative.ofAdd.injective
  rw [← Int.zsmul_eq_mul, ofAdd_zsmul, ofAdd_totalExponent, ofAdd_totalExponent,
    Exponents.monomial_scale h]

theorem totalExponent_root {n : Int} (h : a.root n = some b) :
    t.totalExponent i a = n * t.totalExponent i b := by
  apply Multiplicative.ofAdd.injective
  rw [← Int.zsmul_eq_mul, ofAdd_zsmul, ofAdd_totalExponent, ofAdd_totalExponent,
    Exponents.monomial_root h]

theorem value_ne_zero {x : Number} (h : x.isZero = false) : x.value ≠ 0 := by
  cases x with
  | exact r => exact Number.isZero_exact_eq_false.1 h
  | approx d =>
    have hd : d.significand ≠ 0 := Decimal.isZero_eq_false_iff.1 h
    show (d.significand : Rat) * (10 : Rat) ^ d.exponent ≠ 0
    exact mul_ne_zero (fun h0 => hd (Rat.intCast_eq_zero_iff.1 h0)) (zpow_ne_zero _ (by decide))

theorem addsUp_factor (ht : t.Nonzero) : AddsUp fun symbol => (t.factor symbol).value := by
  intro symbol m n
  apply zpow_add₀
  apply value_ne_zero
  unfold factor
  cases h : t symbol with
  | none => rfl
  | some base => exact ht symbol _ _ h

theorem totalFactor_add (ht : t.Nonzero) (h : a.add b = some c) :
    t.totalFactor c = t.totalFactor a * t.totalFactor b :=
  Exponents.monomial_add (addsUp_factor ht) h

theorem totalFactor_sub (ht : t.Nonzero) (h : a.sub b = some c) :
    t.totalFactor c = t.totalFactor a / t.totalFactor b :=
  Exponents.monomial_sub (addsUp_factor ht) h

theorem totalFactor_scale {n : Int} (h : a.scale n = some c) :
    t.totalFactor c = t.totalFactor a ^ n := by
  unfold totalFactor
  exact Exponents.monomial_scale (f := fun symbol => (t.factor symbol).value) h

theorem totalExponent_single (symbol : String) :
    t.totalExponent i (.single symbol) = t.exponent i symbol := by
  simp [totalExponent, Exponents.single]

theorem totalFactor_single (symbol : String) :
    t.totalFactor (.single symbol) = (t.factor symbol).value := by
  simp [totalFactor, Exponents.single]

end UnitTable

namespace MeasureUnit

variable {t : UnitTable} {u v w : MeasureUnit} {s : Settings} {n : Int}

/-- A unit whose own symbol is in the table with its dimension and its factor, as far as that is
exact, is represented. -/
theorem represented_of_table {f : Number} (hcomponents : u.components = .single u.symbol)
    (hadHoc : u.adHoc = .empty) (htable : t u.symbol = some (u.dimension, f))
    (hexact : ∀ r, u.factor = .exact r → f = .exact r) (hfactor : u.factor.isZero = false) :
    u.Represented t where
  reduced := by
    rw [hcomponents]
    intro e he
    rw [List.mem_singleton.1 he]
    exact one_ne_zero
  known symbol hsymbol := by
    rw [hcomponents] at hsymbol
    rw [List.mem_singleton.1 hsymbol, htable]
    rfl
  symbol := by rw [hcomponents, composeSymbol_single]
  dimension i := by
    rw [hcomponents, UnitTable.totalExponent_single, UnitTable.exponent, htable]
    rfl
  adHoc := hadHoc
  factor r hr := by
    have hentry : t.factor u.symbol = .exact r := by
      rw [UnitTable.factor, htable, ← hexact r hr]
      rfl
    rw [hcomponents, UnitTable.totalFactor_single, hentry]
    refine ⟨fun symbol hsymbol => ?_, rfl⟩
    rw [List.mem_singleton.1 hsymbol, hentry]
    rfl
  factor_ne_zero := hfactor

theorem represented_dimensionless : dimensionless.Represented t where
  reduced := Exponents.reduced_empty
  known := by simp [dimensionless, new, Exponents.names, Exponents.empty]
  symbol := rfl
  dimension i := by
    show dimensionless.dimension.exponent i = 0
    revert i
    decide
  adHoc := rfl
  factor r hr := by
    refine ⟨by simp [dimensionless, new, Exponents.names, Exponents.empty], ?_⟩
    cases hr
    rfl
  factor_ne_zero := rfl

/-- A unit made by the algebra of units has its symbol from its components by construction. -/
theorem represented_derived {components : Exponents} {name : String} {d : Dimension} {f : Number}
    (hreduced : components.Reduced) (hknown : ∀ symbol ∈ components.names, (t symbol).isSome)
    (hd : ∀ i : Fin 9, d.exponent i = t.totalExponent i components)
    (hf : ∀ r, f = .exact r →
      (∀ symbol ∈ components.names, (t.factor symbol).isExact) ∧ r = t.totalFactor components)
    (hne : f.isZero = false) : (derived components .empty name d f).Represented t :=
  ⟨hreduced, hknown, rfl, hd, rfl, hf, hne⟩

namespace Represented

/-- The name of a unit plays no part. -/
theorem rename (h : u.Represented t) (name : String) :
    { u with name := name }.Represented t :=
  ⟨h.reduced, h.known, h.symbol, h.dimension, h.adHoc, h.factor, h.factor_ne_zero⟩

/-- A represented unit with an atomic symbol is the base unit of that symbol. -/
theorem components_eq_single (hu : u.Represented t) (hatomic : IsAtomic u.symbol) :
    u.components = .single u.symbol := by
  rw [hu.symbol] at hatomic ⊢
  exact eq_single_of_composeSymbol hu.reduced hatomic

theorem dimension_eq_of_table {d : Dimension} {f : Number} (hu : u.Represented t)
    (hatomic : IsAtomic u.symbol) (htable : t u.symbol = some (d, f)) : u.dimension = d := by
  apply Dimension.ext_exponent
  intro i
  rw [hu.dimension i, hu.components_eq_single hatomic, UnitTable.totalExponent_single,
    UnitTable.exponent, htable]
  rfl

theorem factor_eq_of_table {d : Dimension} {f : Number} {r : Rat} (hu : u.Represented t)
    (hatomic : IsAtomic u.symbol) (htable : t u.symbol = some (d, f))
    (hr : u.factor = .exact r) : f = .exact r := by
  obtain ⟨hexact, hvalue⟩ := hu.factor r hr
  have hentry : t.factor u.symbol = f := by
    rw [UnitTable.factor, htable]
    rfl
  rw [hu.components_eq_single hatomic] at hexact hvalue
  obtain ⟨x, hx⟩ := Number.isExact_iff.1 (hexact u.symbol (List.mem_singleton_self _))
  rw [UnitTable.totalFactor_single, hx] at hvalue
  rw [hvalue, ← hentry, hx]
  rfl

/-! ### Units of the same components -/

theorem symbol_eq (hu : u.Represented t) (hv : v.Represented t) (h : v.components = u.components) :
    v.symbol = u.symbol := by
  rw [hv.symbol, h, ← hu.symbol]

theorem dimension_eq (hu : u.Represented t) (hv : v.Represented t)
    (h : v.components = u.components) : v.dimension = u.dimension := by
  apply Dimension.ext_exponent
  intro i
  rw [hv.dimension, h, ← hu.dimension]

theorem factor_eq (hu : u.Represented t) (hv : v.Represented t) (h : v.components = u.components)
    (hexact : u.factor.isExact) (hexact' : v.factor.isExact) : v.factor = u.factor := by
  obtain ⟨x, hx⟩ := Number.isExact_iff.1 hexact
  obtain ⟨y, hy⟩ := Number.isExact_iff.1 hexact'
  have hvalue := (hv.factor y hy).2
  rw [h, ← (hu.factor x hx).2] at hvalue
  rw [hx, hy, hvalue]

/-! ### Operations -/

/-- A multiple of a base unit is represented if the table has it. -/
theorem multiple {m : Multiple} {d : Dimension} {f : Number} (hu : u.Represented t)
    (hatomic : IsAtomic u.symbol) (hbase : t u.symbol = some (d, f))
    (hmultiple : t (m.symbol ++ u.symbol) = some (d, f.mul m.scale))
    (hscale : m.scale.isZero = false) : (u.multiple m).Represented t := by
  refine represented_of_table ?_ rfl ?_ ?_ (Number.isZero_mul hu.factor_ne_zero hscale)
    (f := f.mul m.scale)
  · show (if (m.symbol ++ u.symbol).isEmpty then _ else _) = _
    rw [if_neg ?_]
    rfl
    rw [String.isEmpty_iff, String.append_eq_empty_iff]
    exact fun h => hatomic.1 h.2
  · show t (m.symbol ++ u.symbol) = some (u.dimension, _)
    rw [hmultiple, hu.dimension_eq_of_table hatomic hbase]
  · intro r hr
    obtain ⟨x, y, hx, hy, rfl⟩ := Number.lift₂_eq_exact hr
    rw [hu.factor_eq_of_table hatomic hbase hx, hy, Number.exact_mul]

theorem multiply (ht : t.Nonzero) (hu : u.Represented t) (hv : v.Represented t)
    (h : u.multiply v = .ok w) : w.Represented t := by
  rcases multiply_cases h with ⟨-, rfl⟩ | ⟨-, rfl⟩ | ⟨components, adHoc, _, d, hc, ha, hd, rfl⟩
  · exact hu
  · exact hv
  · rw [hu.adHoc, hv.adHoc] at ha
    cases ha
    refine represented_derived (Exponents.reduced_combine hc) (fun symbol hsymbol => ?_)
      (fun i => ?_) (fun r hr => ?_) (Number.isZero_mul hu.factor_ne_zero hv.factor_ne_zero)
    · exact (Exponents.mem_names_combine hc hsymbol).elim (hu.known _) (hv.known _)
    · rw [UnitTable.totalExponent_add hc, ← hu.dimension, ← hv.dimension]
      exact Dimension.exponent_multiply hd i
    · obtain ⟨x, y, hx, hy, rfl⟩ := Number.lift₂_eq_exact hr
      obtain ⟨hleft, rfl⟩ := hu.factor x hx
      obtain ⟨hright, rfl⟩ := hv.factor y hy
      refine ⟨fun symbol hsymbol => ?_, (UnitTable.totalFactor_add ht hc).symm⟩
      exact (Exponents.mem_names_combine hc hsymbol).elim (hleft _) (hright _)

theorem divide (ht : t.Nonzero) (hu : u.Represented t) (hv : v.Represented t)
    (h : u.divide v = .ok w) : w.Represented t := by
  rcases divide_cases h with ⟨-, rfl⟩ | ⟨components, adHoc, _, d, factor, hc, ha, hd, hf, rfl⟩
  · exact hu
  · rw [hu.adHoc, hv.adHoc] at ha
    cases ha
    refine represented_derived (Exponents.reduced_combine hc) (fun symbol hsymbol => ?_)
      (fun i => ?_) (fun r hr => ?_) (Number.isZero_div hu.factor_ne_zero hf)
    · exact (Exponents.mem_names_combine hc hsymbol).elim (hu.known _) (hv.known _)
    · rw [UnitTable.totalExponent_sub hc, ← hu.dimension, ← hv.dimension]
      exact Dimension.exponent_divide hd i
    · subst hr
      obtain ⟨x, y, hx, hy, rfl⟩ := Number.lift₂_eq_exact (Number.div_eq_ok hf).2.symm
      obtain ⟨hleft, rfl⟩ := hu.factor x hx
      obtain ⟨hright, rfl⟩ := hv.factor y hy
      refine ⟨fun symbol hsymbol => ?_, (UnitTable.totalFactor_sub ht hc).symm⟩
      exact (Exponents.mem_names_combine hc hsymbol).elim (hleft _) (hright _)

theorem power (hu : u.Represented t) (h : u.power n s = .ok w) : w.Represented t := by
  rcases power_cases h with ⟨-, rfl⟩ | ⟨components, adHoc, _, d, factor, hc, ha, hd, hf, rfl⟩
  · exact hu
  · rw [hu.adHoc] at ha
    cases ha
    refine represented_derived (Exponents.reduced_scale hc) (fun symbol hsymbol => ?_)
      (fun i => ?_) (fun r hr => ?_) (Number.isZero_powInt hu.factor_ne_zero hf)
    · exact hu.known _ (Exponents.mem_names_scale hc hsymbol)
    · rw [UnitTable.totalExponent_scale hc, ← hu.dimension]
      exact Dimension.exponent_power hd i
    · subst hr
      -- The zeroth power of an approximate factor is exact, but it has no components left.
      rcases Number.exact_of_powInt hu.factor_ne_zero hf with rfl | ⟨x, hx⟩
      · cases hf
        rw [Exponents.scale_zero hc]
        exact ⟨by simp [Exponents.names, Exponents.empty], rfl⟩
      · obtain ⟨hexact, rfl⟩ := hu.factor x hx
        rw [hx] at hf
        rw [Number.powInt_eq_exact hf]
        refine ⟨fun symbol hsymbol => ?_, (UnitTable.totalFactor_scale hc).symm⟩
        exact hexact _ (Exponents.mem_names_scale hc hsymbol)

end Represented

end MeasureUnit

end Reckoner
