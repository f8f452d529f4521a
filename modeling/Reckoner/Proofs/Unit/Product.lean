import Reckoner.Proofs.Result
import Reckoner.Proofs.Unit.Representation
import Mathlib.Algebra.Order.BigOperators.Group.List

/-!
# Products of base units

A unit that is made of base units one after the other is a product of their powers, in the order in
which they come (`MeasureUnit.IsProduct`). Such a product fails on exponents out of range only,
which `Attains` says of a sequence of steps: it comes to a unit with a property, or else it fails in
this way and some condition on the exponents does not hold.
-/

namespace Reckoner

/-! ## Steps that fail on exponents -/

/-- Values have a property, and failures are due to exponents for which a condition fails. -/
structure Attains (condition : Prop) (p : MeasureUnit → Prop) (x : Except Diagnostic MeasureUnit) :
    Prop where
  value : ∀ u, x = .ok u → p u
  error : ∀ d, x = .error d → d.code = "INVALID_UNIT_EXPONENT" ∧ ¬ condition

namespace Attains

variable {condition condition' : Prop} {p q : MeasureUnit → Prop}
  {x : Except Diagnostic MeasureUnit}

theorem ok {u : MeasureUnit} (h : p u) : Attains condition p (.ok u) where
  value := by
    rintro _ ⟨⟩
    exact h
  error := by
    rintro _ ⟨⟩

theorem invalidUnitExponent {details : String} (h : ¬ condition) :
    Attains condition p (.error (.invalidUnitExponent details)) where
  value := by
    rintro _ ⟨⟩
  error := by
    rintro _ ⟨⟩
    exact ⟨rfl, h⟩

/-- The conditions of two steps add up. -/
theorem bind {f : MeasureUnit → Except Diagnostic MeasureUnit} (hx : Attains condition p x)
    (hf : ∀ u, p u → Attains condition' q (f u)) :
    Attains (condition ∧ condition') q (x >>= f) := by
  cases x with
  | error d =>
    obtain ⟨hcode, hcondition⟩ := hx.error d rfl
    refine ⟨fun u hu => ?_, fun d' hd => ?_⟩
    · cases hu
    · cases hd
      exact ⟨hcode, fun h => hcondition h.1⟩
  | ok u =>
    have hu := hf u (hx.value u rfl)
    refine ⟨hu.value, fun d hd => ?_⟩
    obtain ⟨hcode, hcondition⟩ := hu.error d hd
    exact ⟨hcode, fun h => hcondition h.2⟩

/-- A stronger condition is enough. -/
theorem mono (h : Attains condition p x) (hcondition : condition' → condition) :
    Attains condition' p x where
  value := h.value
  error d hd := (h.error d hd).imp_right fun hnot h => hnot (hcondition h)

theorem imp (h : Attains condition p x) (hp : ∀ u, p u → q u) : Attains condition q x where
  value u hu := hp u (h.value u hu)
  error := h.error

/-- An operation on units whose errors are those of exponents. -/
theorem lift {y : Except ConversionError MeasureUnit} (hvalue : ∀ u, y = .ok u → p u)
    (herror : ∀ e, y = .error e → (∃ details, e = .invalidExponent details) ∧ ¬ condition) :
    Attains condition p (Diagnostic.lift .ofConversion y) := by
  cases y with
  | ok u => exact ok (hvalue u rfl)
  | error e =>
    obtain ⟨⟨details, rfl⟩, hcondition⟩ := herror e rfl
    exact invalidUnitExponent hcondition

end Attains

/-! ## Powers of base units -/

/-- The powers with negated exponents. -/
def inverses (powers : List (String × Int)) : List (String × Int) :=
  powers.map fun p => (p.1, -p.2)

/-- The sum of the exponents, weighted by name. -/
def total (weight : String → Int) (powers : List (String × Int)) : Int :=
  (powers.map fun p => p.2 * weight p.1).sum

section

variable {weight : String → Int} {ps qs : List (String × Int)}

theorem total_append : total weight (ps ++ qs) = total weight ps + total weight qs := by
  rw [total, total, total, List.map_append, List.sum_append]

theorem total_singleton (name : String) (e : Int) : total weight [(name, e)] = e * weight name := by
  simp [total]

/-- Weighted sums are monomials in the integers under addition. -/
theorem ofAdd_total (ps : List (String × Int)) :
    Multiplicative.ofAdd (total weight ps) =
      monomial (fun name => Multiplicative.ofAdd (weight name)) ps := by
  unfold total monomial
  rw [ofAdd_list_prod, List.map_map]
  rfl

theorem total_inverses : total weight (inverses ps) = -total weight ps := by
  apply Multiplicative.ofAdd.injective
  rw [ofAdd_neg, ofAdd_total, ofAdd_total]
  exact monomial_map_neg ps

/-- Only entries with a weight count. -/
theorem total_eq_zero (h : ∀ p ∈ ps, weight p.1 = 0) : total weight ps = 0 := by
  apply List.sum_eq_zero
  intro x hx
  obtain ⟨p, hp, rfl⟩ := List.mem_map.1 hx
  rw [h p hp, mul_zero]

theorem total_nonneg (hps : ∀ p ∈ ps, 0 ≤ p.2) (hweight : ∀ name, 0 ≤ weight name) :
    0 ≤ total weight ps := by
  apply List.sum_nonneg
  intro x hx
  obtain ⟨p, hp, rfl⟩ := List.mem_map.1 hx
  exact Int.mul_nonneg (hps p hp) (hweight p.1)

end

/-- The exponent of a name as a weighted sum. -/
theorem Exponents.get_eq_total (c : Exponents) (name : String) :
    c.get name = total (fun other => if other = name then 1 else 0) c.entries := by
  apply Multiplicative.ofAdd.injective
  rw [get_eq_monomial, ofAdd_total]
  rfl

namespace UnitTable

variable (t : UnitTable)

/-- The dimension of the product is in range. -/
def Fits (powers : List (String × Int)) : Prop := ∀ i, IsExponent (total (t.exponent i) powers)

/-- The power of an exact factor that does not need too many bits. -/
def IsExactPower (p : String × Int) : Prop :=
  ∃ r, t.factor p.1 = .exact r ∧ Number.powerBits r p.2 ≤ (default : Settings).maxExactBits

/-- A base unit as the table has it. -/
structure IsBase (name : String) (u : MeasureUnit) : Prop where
  represented : u.Represented t
  components : u.components = .single name
  entry : t name = some (u.dimension, u.factor)

end UnitTable

namespace MeasureUnit

/-- The unit is the product of powers of base units. -/
structure IsProduct (t : UnitTable) (powers : List (String × Int)) (u : MeasureUnit) : Prop where
  represented : u.Represented t
  components : ∀ weight, total weight u.components.entries = total weight powers
  exact : (∀ p ∈ powers, t.IsExactPower p) → u.factor.isExact

namespace IsProduct

variable {t : UnitTable} {ps qs : List (String × Int)} {u v w : MeasureUnit} {name : String}
  {i : Fin 9}

theorem exponent_eq (h : u.IsProduct t ps) : u.dimension.exponent i = total (t.exponent i) ps := by
  rw [h.represented.dimension, ← h.components]
  rfl

/-- Names that are not in the product have the exponent 0. -/
theorem get_eq_zero (h : u.IsProduct t ps) (hname : name ∉ ps.map Prod.fst) :
    u.components.get name = 0 := by
  rw [Exponents.get_eq_total, h.components]
  apply total_eq_zero
  intro p hp
  exact if_neg fun heq : p.1 = name => hname (heq ▸ List.mem_map_of_mem hp)

theorem get_nonneg (h : u.IsProduct t ps) (hps : ∀ p ∈ ps, 0 ≤ p.2) :
    0 ≤ u.components.get name := by
  rw [Exponents.get_eq_total, h.components]
  refine total_nonneg hps fun other => ?_
  split <;> decide

theorem dimensionless : MeasureUnit.dimensionless.IsProduct t [] where
  represented := represented_dimensionless
  components _ := rfl
  exact _ := rfl

theorem multiply (ht : t.Nonzero) (hu : u.IsProduct t ps) (hv : v.IsProduct t qs)
    (h : u.multiply v = .ok w) : w.IsProduct t (ps ++ qs) where
  represented := hu.represented.multiply ht hv.represented h
  components weight := by
    rw [total_append, ← hu.components, ← hv.components]
    apply Multiplicative.ofAdd.injective
    rw [ofAdd_add, ofAdd_total, ofAdd_total, ofAdd_total]
    exact monomial_multiply (Exponents.addsUp_of_group _) h
  exact hexact := by
    obtain ⟨hps, hqs⟩ := List.forall_mem_append.1 hexact
    exact isExact_multiply (hu.exact hps) (hv.exact hqs) h

theorem divide (ht : t.Nonzero) (hu : u.IsProduct t ps) (hv : v.IsProduct t qs)
    (h : u.divide v = .ok w) : w.IsProduct t (ps ++ inverses qs) where
  represented := hu.represented.divide ht hv.represented h
  components weight := by
    rw [total_append, total_inverses, ← hu.components, ← hv.components, ← sub_eq_add_neg]
    apply Multiplicative.ofAdd.injective
    rw [ofAdd_sub, ofAdd_total, ofAdd_total, ofAdd_total]
    exact monomial_divide (Exponents.addsUp_of_group _) h
  exact hexact := by
    obtain ⟨hps, hqs⟩ := List.forall_mem_append.1 hexact
    refine isExact_divide (hu.exact hps) (hv.exact fun p hp => ?_) h
    -- The number of bits does not depend on the sign of the exponent.
    obtain ⟨r, hr, hbits⟩ := hqs _ (List.mem_map_of_mem hp)
    refine ⟨r, hr, ?_⟩
    rwa [Number.powerBits, Int.natAbs_neg] at hbits

theorem of_isBase (h : t.IsBase name u) : u.IsProduct t [(name, 1)] where
  represented := h.represented
  components weight := by
    rw [h.components]
    rfl
  exact hexact := by
    obtain ⟨r, hr, -⟩ := hexact _ (.head _)
    rw [UnitTable.factor, h.entry] at hr
    exact Number.isExact_iff.2 ⟨r, hr⟩

theorem power {n : Int} (h : t.IsBase name u) (hw : u.power n default = .ok w) :
    w.IsProduct t [(name, n)] where
  represented := h.represented.power hw
  components weight := by
    have hone : total weight u.components.entries = weight name := by
      rw [h.components]
      exact (total_singleton name 1).trans (one_mul _)
    rw [total_singleton, ← hone]
    apply Multiplicative.ofAdd.injective
    rw [← Int.zsmul_eq_mul, ofAdd_zsmul, ofAdd_total, ofAdd_total]
    exact monomial_power hw
  exact hexact := by
    obtain ⟨r, hr, hbits⟩ := hexact _ (.head _)
    rw [UnitTable.factor, h.entry] at hr
    have hfactor : u.factor = .exact r := hr
    refine isExact_power (Number.isExact_iff.2 ⟨r, hfactor⟩) (fun x hx => ?_) hw
    rw [hfactor] at hx
    exact Number.isExact_powInt hbits hx

end IsProduct

/-! ## Operations that fail on exponents only -/

/-- No name occurs in both products. -/
def Disjoint (ps qs : List (String × Int)) : Prop :=
  ∀ name, name ∉ ps.map Prod.fst ∨ name ∉ qs.map Prod.fst

section

variable {t : UnitTable} {ps qs : List (String × Int)} {u v : MeasureUnit} {name : String}

theorem attains_multiply (ht : t.Nonzero) (hu : u.IsProduct t ps) (hv : v.IsProduct t qs)
    (hdisjoint : Disjoint ps qs) :
    Attains (t.Fits (ps ++ qs)) (IsProduct t (ps ++ qs))
      (Diagnostic.lift .ofConversion (u.multiply v)) := by
  refine Attains.lift (fun w hw => hu.multiply ht hv hw) fun e he => ?_
  obtain ⟨hdetails, hnone⟩ := multiply_error he
  refine ⟨⟨_, hdetails⟩, fun hfits => ?_⟩
  rcases hnone with hnone | hnone | hnone
  · refine Option.isSome_iff_ne_none.1 (Exponents.isSome_add fun name => ?_) hnone
    rcases hdisjoint name with hname | hname
    · rw [hu.get_eq_zero hname, zero_add]
      exact Exponents.isExponent_get _ _
    · rw [hv.get_eq_zero hname, add_zero]
      exact Exponents.isExponent_get _ _
  · rw [hu.represented.adHoc, hv.represented.adHoc] at hnone
    cases hnone
  · refine Option.isSome_iff_ne_none.1 (Dimension.isSome_multiply fun i => ?_) hnone
    rw [hu.exponent_eq, hv.exponent_eq, ← total_append]
    exact hfits i

/-- Quotients are of products of positive powers, so that the exponents below can be negated. -/
theorem attains_divide (ht : t.Nonzero) (hu : u.IsProduct t ps) (hv : v.IsProduct t qs)
    (hdisjoint : Disjoint ps qs) (hqs : ∀ q ∈ qs, 0 ≤ q.2) :
    Attains (t.Fits (ps ++ inverses qs)) (IsProduct t (ps ++ inverses qs))
      (Diagnostic.lift .ofConversion (u.divide v)) := by
  refine Attains.lift (fun w hw => hu.divide ht hv hw) fun e he => ?_
  obtain ⟨hdetails, hnone⟩ := divide_error hv.represented.factor_ne_zero he
  refine ⟨⟨_, hdetails⟩, fun hfits => ?_⟩
  rcases hnone with hnone | hnone | hnone
  · refine Option.isSome_iff_ne_none.1 (Exponents.isSome_sub fun name => ?_) hnone
    rcases hdisjoint name with hname | hname
    · have hrange : -2 ^ 31 ≤ v.components.get name ∧ v.components.get name < 2 ^ 31 :=
        Exponents.isExponent_get _ _
      have hnonneg : 0 ≤ v.components.get name := hv.get_nonneg hqs
      rw [hu.get_eq_zero hname]
      show -2 ^ 31 ≤ 0 - v.components.get name ∧ 0 - v.components.get name < 2 ^ 31
      omega
    · rw [hv.get_eq_zero hname, sub_zero]
      exact Exponents.isExponent_get _ _
  · rw [hu.represented.adHoc, hv.represented.adHoc] at hnone
    cases hnone
  · refine Option.isSome_iff_ne_none.1 (Dimension.isSome_divide fun i => ?_) hnone
    rw [hu.exponent_eq, hv.exponent_eq, sub_eq_add_neg, ← total_inverses, ← total_append]
    exact hfits i

theorem attains_power {k : Nat} (h : t.IsBase name u) (hk : k < 2 ^ 31) :
    Attains (t.Fits [(name, (k : Int))]) (IsProduct t [(name, (k : Int))])
      (Diagnostic.lift .ofConversion (u.power k default)) := by
  have hzero : IsExponent 0 := by decide
  refine Attains.lift (fun w hw => IsProduct.power h hw) fun e he => ?_
  obtain ⟨hdetails, hnone⟩ := power_error h.represented.factor_ne_zero (by omega) he
  refine ⟨⟨_, hdetails⟩, fun hfits => ?_⟩
  have hu := IsProduct.of_isBase h
  rcases hnone with hnone | hnone | hnone
  · refine Option.isSome_iff_ne_none.1 (Exponents.isSome_scale fun other => ?_) hnone
    rw [Exponents.get_eq_total, hu.components, total_singleton]
    split
    · show -2 ^ 31 ≤ (k : Int) * (1 * 1) ∧ (k : Int) * (1 * 1) < 2 ^ 31
      omega
    · rwa [mul_zero, mul_zero]
  · refine Option.isSome_iff_ne_none.1 (Exponents.isSome_scale fun other => ?_) hnone
    rwa [h.represented.adHoc, Exponents.get_empty, mul_zero]
  · refine Option.isSome_iff_ne_none.1 (Dimension.isSome_power fun i => ?_) hnone
    have hfit := hfits i
    rw [total_singleton] at hfit
    rwa [hu.exponent_eq, total_singleton, one_mul]

end

end MeasureUnit

end Reckoner
