import Reckoner.Function.Units
import Reckoner.Proofs.Number.One
import Reckoner.Proofs.Quantity
import Reckoner.Proofs.Unit.Conversion

/-!
# Coherent units

The coherent unit of a dimension is multiplied together from powers of nine base units. Every
dimension has one, whatever the settings are (`Dimension.exists_coherentUnit`): each base unit
brings an exponent that no other one touches, so that all of them stay in range, and all factors are
1. A power of 1 with a large exponent may be an approximate number, but no rounding changes its
value (`Number.value_powInt_of_one`).

With things counted there may be none, since their names can be symbols of base units, and then the
exponents of the symbol add up. If there is one it is compatible with the unit it was made for
(`MeasureUnit.isCompatible_coherentUnit`). This is what `to_base` gives the coherent value in
(`coherentUnit_of_dimensions_and_quantities`).
-/

namespace Reckoner

/-! ## Scales of one -/

namespace MeasureUnit

variable {u v w : MeasureUnit} {s : Settings} {n : Int}

/-- Values in the unit are coherent values. -/
structure OnCoherentScale (u : MeasureUnit) : Prop where
  factor : u.factor.value = 1
  offset : u.offset = Number.ofInt 0

namespace OnCoherentScale

theorem isCoherent (h : u.OnCoherentScale) : u.isCoherent := by
  rw [MeasureUnit.isCoherent, Bool.and_eq_true, Number.isOne_iff, h.offset]
  exact ⟨h.factor, rfl⟩

theorem multiply (hu : u.OnCoherentScale) (hv : v.OnCoherentScale) (h : u.multiply v = .ok w) :
    w.OnCoherentScale := by
  rcases multiply_cases h with ⟨-, rfl⟩ | ⟨-, rfl⟩ | ⟨_, _, _, _, -, -, -, rfl⟩
  · exact hu
  · exact hv
  · exact ⟨Number.value_mul_of_one hu.factor hv.factor, rfl⟩

theorem power (hu : u.OnCoherentScale) (h : u.power n s = .ok w) : w.OnCoherentScale := by
  rcases power_cases h with ⟨-, rfl⟩ | ⟨_, _, _, _, _, -, -, -, hfactor, rfl⟩
  · exact hu
  · exact ⟨Number.value_powInt_of_one hu.factor hfactor, rfl⟩

end OnCoherentScale

theorem onCoherentScale_dimensionless : dimensionless.OnCoherentScale := ⟨rfl, rfl⟩

theorem onCoherentScale_counting (name : String) : (counting name).OnCoherentScale := ⟨rfl, rfl⟩

end MeasureUnit

/-! ## Base units -/

/-- The place of a base dimension in the vector. -/
def BaseDimension.index (b : BaseDimension) : Fin 9 :=
  ⟨BaseDimension.all.idxOf b, by cases b <;> decide⟩

namespace Dimension

theorem terms_eq (d : Dimension) :
    d.terms = BaseDimension.all.map fun b => (b, d.exponent b.index) := by
  have hindex : ∀ i : Fin 9, (BaseDimension.all[i]).index = i := by decide
  apply List.ext_getElem
  · simp [terms, BaseDimension.all]
  · intro i hi hi'
    have hlt : i < 9 := by simpa [BaseDimension.all] using hi'
    simp only [terms, List.getElem_zip, List.getElem_map, Vector.getElem_toList, exponent]
    have := hindex ⟨i, hlt⟩
    simp only [Fin.getElem_fin] at this
    rw [this]
    rfl

theorem ext_index {c d : Dimension}
    (h : ∀ b : BaseDimension, c.exponent b.index = d.exponent b.index) : c = d := by
  have hindex : ∀ i : Fin 9, ∃ b ∈ BaseDimension.all, b.index = i := by decide
  apply ext_exponent
  intro i
  obtain ⟨b, -, rfl⟩ := hindex i
  exact h b

end Dimension

theorem Exponents.get_single (name other : String) :
    (single name).get other = if name = other then 1 else 0 := by
  rw [get_eq_total]
  exact (total_singleton name 1).trans (one_mul _)

namespace BaseDimension

variable {b c : BaseDimension} {u v : MeasureUnit} {e : Int} {s : Settings}

/-- A power of the unit of a base dimension, under the symbol of that dimension. -/
structure IsPower (b : BaseDimension) (e : Int) (v : MeasureUnit) : Prop where
  scale : v.OnCoherentScale
  regular : v.Regular
  components : ∀ name, v.components.get name = if b.unitSymbol = name then e else 0
  exponent : ∀ base, v.exponent base = if base = .inl b.index then e else 0

theorem mem_all (b : BaseDimension) : b ∈ all := by
  cases b <;> decide

theorem unitSymbol_inj (h : b.unitSymbol = c.unitSymbol) : b = c := by
  revert h
  cases b <;> cases c <;> decide

theorem index_inj (h : b.index = c.index) : b = c := by
  revert h
  cases b <;> cases c <;> decide

/-- The standard registry has a unit of every base dimension. -/
theorem exists_unit (b : BaseDimension) :
    ∃ v, standardUnits.resolve b.unitSymbol = .ok v ∧ b.IsPower 1 v := by
  have hlines : ∀ b ∈ all, ∃ p ∈ Catalogue.units Catalogue.entries,
      p.1.symbol = b.unitSymbol ∧ p.1.factor = Number.ofInt 1 ∧ p.1.offset = Number.ofInt 0 ∧
        ∀ i, p.1.dimension.exponent i =
          if Sum.inl i = (.inl b.index : Fin 9 ⊕ String) then 1 else 0 := by
    decide +kernel
  obtain ⟨p, hp, hsymbol, hfactor, hoffset, hdimension⟩ := hlines b b.mem_all
  obtain ⟨hcomponents, hthings, -⟩ := Catalogue.lines_checked.2 p hp
  have hlookup := Catalogue.lookup?_of_mem hp
  rw [hsymbol] at hlookup hcomponents
  refine ⟨p.1, Registry.resolve_of_lookup? hlookup, ⟨?_, hoffset⟩, regular_of_catalogue p hp,
    fun name => ?_, fun base => ?_⟩
  · rw [hfactor]
    rfl
  · rw [hcomponents, Exponents.get_single]
  · cases base with
    | inl i => exact hdimension i
    | inr name => rw [if_neg Sum.inr_ne_inl, MeasureUnit.exponent, hthings, Exponents.get_empty]

/-- The unit of a base dimension has all powers that dimensions have. -/
theorem IsPower.exists_power (hv : b.IsPower 1 v) (he : IsExponent e) (s : Settings) :
    ∃ w, v.power e s = .ok w ∧ b.IsPower e w := by
  have hrange : ∀ p [Decidable p], IsExponent (e * if p then 1 else 0) := by
    intro p _
    split
    · rwa [mul_one]
    · rw [mul_zero]
      decide
  have hsmall : e.natAbs < 2 ^ 32 := by
    have hbounds : -2 ^ 31 ≤ e ∧ e < 2 ^ 31 := he
    omega
  obtain ⟨w, hw⟩ := MeasureUnit.exists_power (Number.isZero_of_value_one hv.scale.factor) hsmall
    (fun name => hv.components name ▸ hrange _) (fun base => hv.exponent base ▸ hrange _) s
  refine ⟨w, hw, hv.scale.power hw, hv.regular.power hw, fun name => ?_, fun base => ?_⟩
  · rw [MeasureUnit.get_components_power hw, hv.components, mul_ite, mul_one, mul_zero]
  · rw [MeasureUnit.exponent_power hw, Pi.smul_apply, hv.exponent, Int.zsmul_eq_mul, mul_ite,
      mul_one, mul_zero]

end BaseDimension

/-! ## The coherent unit of a dimension -/

/-- An exponent stays in range if only zeros are added to. -/
theorem isExponent_add {a e : Int} {p : Prop} [Decidable p] (ha : IsExponent a)
    (he : IsExponent e) (hzero : p → a = 0) : IsExponent (a + if p then e else 0) := by
  split
  · next h => rwa [hzero h, zero_add]
  · rwa [add_zero]

namespace Dimension

variable {d : Dimension} {done : List BaseDimension} {b : BaseDimension} {u v w : MeasureUnit}
  {s : Settings}

/-- The coherent unit of a dimension as far as it is made of the base units that are done. -/
structure IsCoherentUpTo (d : Dimension) (done : List BaseDimension) (u : MeasureUnit) : Prop where
  scale : u.OnCoherentScale
  regular : u.Regular
  /-- The symbols of the others do not occur. -/
  components : ∀ b ∉ done, u.components.get b.unitSymbol = 0
  things : ∀ name, u.exponent (.inr name) = 0
  dimension : ∀ b, u.exponent (.inl b.index) = if b ∈ done then d.exponent b.index else 0

theorem isCoherentUpTo_nil (d : Dimension) : d.IsCoherentUpTo [] .dimensionless where
  scale := MeasureUnit.onCoherentScale_dimensionless
  regular := MeasureUnit.regular_new ..
  components _ _ := rfl
  things _ := rfl
  dimension b := congrFun (MeasureUnit.exponent_of_isDimensionless rfl) (.inl b.index)

namespace IsCoherentUpTo

/-- The exponents that the power of one more base unit brings were 0. -/
theorem exists_multiply (hu : d.IsCoherentUpTo done u) (hb : b ∉ done)
    (hv : b.IsPower (d.exponent b.index) v) : ∃ w, u.multiply v = .ok w := by
  have he := d.isExponent_exponent b.index
  apply MeasureUnit.exists_multiply
  · intro name
    rw [hv.components]
    refine isExponent_add (Exponents.isExponent_get _ _) he ?_
    rintro rfl
    exact hu.components b hb
  · intro base
    rw [hv.exponent]
    refine isExponent_add (u.isExponent_exponent base) he ?_
    rintro rfl
    rw [hu.dimension, if_neg hb]

theorem multiply (hu : d.IsCoherentUpTo done u) (hb : b ∉ done)
    (hv : b.IsPower (d.exponent b.index) v) (h : u.multiply v = .ok w) :
    d.IsCoherentUpTo (b :: done) w := by
  have hexponent : ∀ base, w.exponent base =
      u.exponent base + if base = .inl b.index then d.exponent b.index else 0 := by
    intro base
    rw [MeasureUnit.exponent_multiply h, Pi.add_apply, hv.exponent]
  constructor
  case scale => exact hu.scale.multiply hv.scale h
  case regular => exact hu.regular.multiply hv.regular h
  case components =>
    intro c hc
    obtain ⟨hne, hc⟩ := not_or.1 (mt List.mem_cons.2 hc)
    have hsymbol : b.unitSymbol ≠ c.unitSymbol :=
      fun hsame => hne (BaseDimension.unitSymbol_inj hsame).symm
    rw [MeasureUnit.get_components_multiply h, hv.components, hu.components c hc, if_neg hsymbol,
      add_zero]
  case things =>
    intro name
    rw [hexponent, hu.things, if_neg Sum.inr_ne_inl, add_zero]
  case dimension =>
    intro c
    rw [hexponent, hu.dimension]
    by_cases hc : c = b
    · subst hc
      rw [if_neg hb, if_pos rfl, zero_add, if_pos List.mem_cons_self]
    · have hbase : (Sum.inl c.index : Fin 9 ⊕ String) ≠ .inl b.index :=
        fun hsame => hc (BaseDimension.index_inj (Sum.inl.inj hsame))
      rw [if_neg hbase, add_zero]
      simp only [List.mem_cons, hc, false_or]

end IsCoherentUpTo

/-- The base units one after the other. -/
theorem exists_product {bases : List BaseDimension} (hnodup : bases.Nodup)
    (hdone : ∀ b ∈ bases, b ∉ done) (hu : d.IsCoherentUpTo done u) :
    ∃ w, (bases.foldlM (fun u b => do
        let v ← standardUnits.resolve b.unitSymbol
        Diagnostic.lift .ofConversion (do u.multiply (← v.power (d.exponent b.index) s))) u) =
          .ok w ∧
      d.IsCoherentUpTo (bases.reverse ++ done) w := by
  -- What is done grows with every step, and the bases to come have to stay apart from it.
  induction bases generalizing done u with
  | nil => exact ⟨u, rfl, hu⟩
  | cons b bases ih =>
    obtain ⟨hfresh, hnodup⟩ := List.nodup_cons.1 hnodup
    obtain ⟨hb, hdone⟩ := List.forall_mem_cons.1 hdone
    obtain ⟨v, hresolve, hv⟩ := b.exists_unit
    obtain ⟨p, hp, hpower⟩ := hv.exists_power (d.isExponent_exponent b.index) s
    obtain ⟨w, hw⟩ := hu.exists_multiply hb hpower
    have hdone' : ∀ c ∈ bases, c ∉ b :: done := by
      intro c hc hmem
      rcases List.mem_cons.1 hmem with rfl | hmem
      · exact hfresh hc
      · exact hdone c hc hmem
    obtain ⟨w', hrest, hw'⟩ := ih hnodup hdone' (hu.multiply hb hpower hw)
    refine ⟨w', ?_, ?_⟩
    · rw [List.foldlM_cons, hresolve, ok_bind, hp, ok_bind, hw, Diagnostic.lift, ok_bind, hrest]
    · rwa [List.reverse_cons, List.append_assoc]

/-- **Every dimension has a coherent unit**, under any settings. -/
theorem exists_coherentUnit (d : Dimension) (s : Settings) :
    ∃ u, d.coherentUnit s = .ok u ∧ u.OnCoherentScale ∧ u.dimension = d ∧ u.adHoc = .empty := by
  have hnodup : BaseDimension.all.Nodup := by decide
  obtain ⟨u, hu, hcoherent⟩ := exists_product (s := s)
    (hnodup.filter fun b => d.exponent b.index != 0) (fun _ _ => List.not_mem_nil)
    (isCoherentUpTo_nil d)
  refine ⟨u, ?_, hcoherent.scale, ext_index fun b => ?_, ?_⟩
  · rw [coherentUnit, terms_eq, List.filter_map, List.foldlM_map]
    exact hu
  · refine (hcoherent.dimension b).trans ?_
    by_cases hzero : d.exponent b.index = 0
    · rw [hzero, ite_self]
    · apply if_pos
      simp [BaseDimension.mem_all, hzero]
  · exact hcoherent.regular.reduced.ext Exponents.reduced_empty hcoherent.things

end Dimension

/-! ## Things counted -/

namespace MeasureUnit

variable {u v w : MeasureUnit} {s : Settings}

/-- Each thing counted adds its exponent. -/
theorem coherent_things {entries : List (String × Int)} (hv : v.OnCoherentScale)
    (hregular : v.Regular)
    (h : entries.foldlM (fun v (name, e) => do v.multiply (← (counting name).power e s)) v =
      .ok w) :
    w.OnCoherentScale ∧ w.Regular ∧ w.extent =
      v.extent + (entries.map fun e => (DFinsupp.single (.inr e.1) e.2 : Extent)).sum := by
  induction entries generalizing v with
  | nil =>
    obtain rfl := pure_eq_ok_iff.1 h
    exact ⟨hv, hregular, by rw [List.map_nil, List.sum_nil, add_zero]⟩
  | cons entry entries ih =>
    obtain ⟨name, e⟩ := entry
    rw [List.foldlM_cons] at h
    obtain ⟨v', hv', hrest⟩ := bind_eq_ok_iff.1 h
    obtain ⟨power, hpower, hproduct⟩ := bind_eq_ok_iff.1 hv'
    obtain ⟨hscale, hregular, hextent⟩ := ih
      (hv.multiply ((onCoherentScale_counting name).power hpower) hproduct)
      (hregular.multiply ((regular_counting name).power hpower) hproduct) hrest
    have hthing : e • Extent.thing name = DFinsupp.single (.inr name) e := by
      rw [Extent.thing, ← DFinsupp.singleAddHom_apply, ← map_zsmul, DFinsupp.singleAddHom_apply,
        zsmul_one, Int.cast_id]
    refine ⟨hscale, hregular, ?_⟩
    rw [hextent, extent_multiply hproduct, extent_power hpower, extent_counting, hthing,
      List.map_cons, List.sum_cons, add_assoc]

/-- Units without entries that are 0 are compatible if their exponents are the same. -/
theorem isCompatible_of_extent (hu : u.adHoc.Reduced) (hv : v.adHoc.Reduced)
    (h : u.extent = v.extent) : u.isCompatible v := by
  have hexponent := extent_eq_iff.1 h
  exact isCompatible_iff.2 ⟨dimension_eq_of_exponent hexponent,
    hu.ext hv fun name => congrFun hexponent (.inr name)⟩

/-- **The coherent unit of a unit**, if there is one, is compatible with it. -/
theorem isCompatible_coherentUnit (hu : u.adHoc.Reduced) (h : u.coherentUnit s = .ok w) :
    w.OnCoherentScale ∧ w.isCompatible u := by
  obtain ⟨base, hbase, hthings⟩ := bind_eq_ok_iff.1 h
  obtain ⟨base', hbase', hscale, hdimension, hadHoc⟩ := u.dimension.exists_coherentUnit s
  obtain rfl : base = base' := Except.ok.inj (hbase.symm.trans hbase')
  have hregular : base.Regular := regular_of_offset (hadHoc ▸ Exponents.reduced_empty) hscale.offset
  -- A name can be the symbol of a base unit, so that the components add up; the extents do not.
  have hnone : Exponents.empty.entries = [] := rfl
  obtain ⟨hscale, hregular, hextent⟩ := coherent_things hscale hregular (lift_eq_ok_iff.1 hthings)
  refine ⟨hscale, isCompatible_of_extent hregular.reduced hu ?_⟩
  rw [hextent, extent, extent, hdimension, hadHoc, hnone, List.map_nil, List.sum_nil, add_zero]

/-- The coherent unit of a number is that of plain numbers. -/
theorem coherentUnit_of_isDimensionless (h : u.isDimensionless) (s : Settings) :
    u.coherentUnit s = .ok .dimensionless := by
  rw [isDimensionless, Bool.and_eq_true] at h
  obtain ⟨hdimension, hthings⟩ := h
  have hterms : (u.dimension.terms.filter fun t => t.2 != 0) = [] := by
    rw [List.filter_eq_nil_iff]
    rintro ⟨b, e⟩ hmem
    have he : e = 0 :=
      beq_iff_eq.1 (List.all_eq_true.1 hdimension e (List.of_mem_zip hmem).2)
    simp [he]
  have hentries : u.adHoc.entries = [] := List.isEmpty_iff.1 hthings
  rw [coherentUnit, Dimension.coherentUnit, hterms, hentries]
  rfl

theorem isDimensionless_of_isCompatible (h : u.isCompatible v) (hu : u.isDimensionless) :
    v.isDimensionless := by
  obtain ⟨hdimension, hthings⟩ := isCompatible_iff.1 h
  rwa [isDimensionless, ← hdimension, ← hthings]

end MeasureUnit

namespace Function

variable {environment : Environment} {q t : Quantity}

theorem run_toBase (environment : Environment) (q : Quantity) :
    toBase.run environment [.quantity q] = .ofExcept (do
      let u ← q.unit.coherentUnit environment.settings
      return .quantity (Quantity.mk q.coherentValue u).fold) := rfl

/-- The coherent value in the coherent unit. One without a dimension is the unit of plain numbers,
so that nothing is left to be folded into the value. -/
theorem quantity_of_toBase (hq : q.unit.adHoc.Reduced)
    (h : toBase.run environment [.quantity q] = .quantity t) :
    q.unit.coherentUnit environment.settings = .ok t.unit ∧ t.value = q.coherentValue := by
  rw [run_toBase] at h
  cases hu : q.unit.coherentUnit environment.settings with
  | error d =>
    rw [hu] at h
    cases h
  | ok u =>
    rw [hu] at h
    -- Only a unit without a dimension could be folded, and that one is the plain 1.
    have hfold : (Quantity.mk q.coherentValue u).fold = ⟨q.coherentValue, u⟩ := by
      by_cases hdimension : u.isDimensionless
      · have hcompatible := (MeasureUnit.isCompatible_coherentUnit hq hu).2
        have hplain := MeasureUnit.coherentUnit_of_isDimensionless
          (MeasureUnit.isDimensionless_of_isCompatible hcompatible hdimension) environment.settings
        obtain rfl := Except.ok.inj (hu.symm.trans hplain)
        exact Quantity.fold_eq_self rfl
      · rw [Quantity.fold, if_neg]
        rw [Bool.and_eq_true]
        exact fun hfolds => hdimension hfolds.1
    obtain rfl : (Quantity.mk q.coherentValue u).fold = t := Value.quantity.inj h
    rw [hfold]
    exact ⟨rfl, rfl⟩

end Function

/-- **Coherent units are coherent.** Under any settings, every dimension has a coherent unit: of
that dimension, with factor 1 and offset 0, counting nothing. A quantity that keeps no entries of
things that cancel has its coherent value in whatever `to_base` gives, in a unit that is compatible
with its own and has factor 1 and offset 0. -/
theorem coherentUnit_of_dimensions_and_quantities :
    (∀ (d : Dimension) (s : Settings), ∃ u, d.coherentUnit s = .ok u ∧ u.dimension = d ∧
      u.isCoherent ∧ u.factor.value = 1 ∧ u.offset = Number.ofInt 0 ∧ u.adHoc = .empty) ∧
    ∀ (environment : Environment) (q t : Quantity), q.unit.adHoc.Reduced →
      Function.toBase.run environment [.quantity q] = .quantity t →
        t.unit.isCompatible q.unit ∧ t.unit.isCoherent ∧ t.unit.factor.value = 1 ∧
          t.unit.offset = Number.ofInt 0 ∧ t.value = q.coherentValue := by
  refine ⟨fun d s => ?_, fun environment q t hq h => ?_⟩
  · obtain ⟨u, hu, hscale, hdimension, hthings⟩ := d.exists_coherentUnit s
    exact ⟨u, hu, hdimension, hscale.isCoherent, hscale.factor, hscale.offset, hthings⟩
  · obtain ⟨hunit, hvalue⟩ := Function.quantity_of_toBase hq h
    obtain ⟨hscale, hcompatible⟩ := MeasureUnit.isCompatible_coherentUnit hq hunit
    exact ⟨hcompatible, hscale.isCoherent, hscale.factor, hscale.offset, hvalue⟩

/-- Two apples for every kilometre, in apples for every metre. -/
def applesByKilometre : Quantity where
  value := Number.ofInt 2
  unit := MeasureUnit.derived ⟨[("apples", 1), ("km", -1)], by decide, by decide⟩ (.single "apples")
    "apples per kilometer" ⟨#v[-1, 0, 0, 0, 0, 0, 0, 0, 0], by decide⟩ (Number.ofRatio 1 1000)

theorem coherentUnit_of_apples :
    ∃ t, Function.toBase.run ⟨default, default⟩ [.quantity applesByKilometre] = .quantity t ∧
      t.unit.isCompatible applesByKilometre.unit ∧ t.unit.isCoherent ∧ t.unit.factor.value = 1 ∧
      t.unit.offset = Number.ofInt 0 ∧ t.value = applesByKilometre.coherentValue := by
  have hreduced : applesByKilometre.unit.adHoc.Reduced :=
    (MeasureUnit.regular_counting "apples").reduced
  -- With the metre at hand the rest can be computed.
  have hmetre : standardUnits.resolve "m" = .ok (Quantity.metres 1).unit := by
    have hline : ∃ p ∈ Catalogue.units Catalogue.entries, p.1 = (Quantity.metres 1).unit := by
      decide +kernel
    obtain ⟨p, hp, hunit⟩ := hline
    have hlookup := Catalogue.lookup?_of_mem hp
    rw [hunit] at hlookup
    exact Registry.resolve_of_lookup? hlookup
  have hterms : (applesByKilometre.unit.dimension.terms.filter fun t => t.2 != 0) =
      [(.length, -1)] := by decide
  have hunit : (applesByKilometre.unit.coherentUnit default).toOption.any fun _ => true := by
    rw [MeasureUnit.coherentUnit, Dimension.coherentUnit, hterms]
    simp only [List.foldlM_cons, List.foldlM_nil, BaseDimension.unitSymbol, hmetre]
    decide +kernel
  obtain ⟨u, hu, -⟩ := exists_eq_ok hunit
  have hrun : Function.toBase.run ⟨default, default⟩ [.quantity applesByKilometre] =
      .quantity (Quantity.mk applesByKilometre.coherentValue u).fold := by
    rw [Function.run_toBase, hu]
    rfl
  exact ⟨_, hrun, coherentUnit_of_dimensions_and_quantities.2 _ _ _ hreduced hrun⟩

end Reckoner
