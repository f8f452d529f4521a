import Reckoner.Moment.Shift
import Reckoner.Proofs.Unit.Extent
import Reckoner.Unit.Coherent
import Reckoner.Unit.Expression

/-!
# Units that a computation can come by

The unit of a unit expression is made of units found by name (`Registry.reachable_of_parse`).
Expressions come by some more: units of things counted, of elapsed time and of absolute
temperatures, and roots of all of these (`MeasureUnit.Built`). None of them keeps an entry for
things that cancel (`Built.reduced`).
-/

namespace Reckoner

namespace Registry

variable {r : Registry} {u : MeasureUnit}

/-! ## Unit expressions -/

theorem lookup?_of_resolve {name : String} (h : r.resolve name = .ok u) :
    r.lookup? name = some u := by
  unfold resolve at h
  split at h
  · next hu =>
    rw [← Except.ok.inj h]
    exact hu
  · simp only at h
    split at h <;> cases h

theorem reachable_of_readPower {cs : List Char} (h : r.readPower cs = .ok u) : r.Reachable u := by
  have hpower : ∀ (base : List Char) (e : Int), (do
      let v ← r.resolve (String.ofList base)
      Diagnostic.lift .ofConversion (v.power e default)) = .ok u → r.Reachable u := by
    intro base e h
    obtain ⟨v, hv, hpower⟩ := bind_eq_ok_iff.1 h
    exact .power (.lookup (lookup?_of_resolve hv)) (lift_eq_ok_iff.1 hpower)
  unfold readPower at h
  simp only at h
  split at h
  · split at h
    · exact hpower _ _ h
    · cases h
  · split at h
    · exact hpower _ _ h
    · exact .lookup (lookup?_of_resolve h)

theorem reachable_of_readProduct {cs : List Char} (h : r.readProduct cs = .ok u) :
    r.Reachable u := by
  refine of_foldlM_eq_ok (fun v f _ w hv hw => ?_) .dimensionless h
  obtain ⟨factor, hfactor, hproduct⟩ := bind_eq_ok_iff.1 hw
  exact .multiply hv (reachable_of_readPower hfactor) (lift_eq_ok_iff.1 hproduct)

theorem reachable_of_readQuotient {cs : List Char} (h : r.readQuotient cs = .ok u) :
    r.Reachable u := by
  unfold readQuotient at h
  split at h
  · exact reachable_of_readProduct h
  · obtain ⟨v, hv, hquotient⟩ := bind_eq_ok_iff.1 h
    refine of_foldlM_eq_ok (fun v f _ w hv hw => ?_) (reachable_of_readProduct hv) hquotient
    obtain ⟨divisor, hdivisor, hquotient⟩ := bind_eq_ok_iff.1 hw
    exact .divide hv (reachable_of_readProduct hdivisor) (lift_eq_ok_iff.1 hquotient)

/-- **Parsing finds what is reachable.** -/
theorem reachable_of_parse {text : String} (h : r.parse text = .ok u) : r.Reachable u := by
  unfold parse at h
  simp only at h
  split at h
  · obtain rfl := Except.ok.inj h
    exact .dimensionless
  · split at h
    · next hu =>
      rw [← Except.ok.inj h]
      exact .lookup hu
    · exact reachable_of_readQuotient h

end Registry

namespace MeasureUnit

variable {u v : MeasureUnit} {s : Settings}

/-- A root of a unit is unity or derived from it. -/
theorem root_cases {n : Int} (h : u.root n s = .ok v) :
    (u.isUnity ∧ v = u) ∨
      ∃ components adHoc name dimension factor, u.components.root n = some components ∧
        u.adHoc.root n = some adHoc ∧ u.dimension.root n = some dimension ∧
        v = derived components adHoc name dimension factor := by
  unfold root at h
  split at h
  · next hu =>
    cases h
    exact .inl ⟨hu, rfl⟩
  · simp only [bind_eq_ok_iff, pure_eq_ok_iff, exponentsOr_eq_ok_iff] at h
    obtain ⟨dimension, hd, components, hc, adHoc, ha, factor, -, rfl⟩ := h
    exact .inr ⟨components, adHoc, _, dimension, factor, hc, ha, hd, rfl⟩

/-! ## Built units -/

/-- The units reachable from the standard registry are represented over its table. -/
theorem represented_of_reachable (h : standardUnits.Reachable u) :
    u.Represented (Catalogue.table Catalogue.entries) := by
  have hbase := fun p hp => Catalogue.isBase_of_mem (p := p) hp
  exact (Catalogue.isSound_ofCatalogue Catalogue.unambiguous_entries
    hbase).represented_of_reachable (Catalogue.nonzero_table hbase) h

/-- Units that the evaluation of an expression can come by. -/
inductive Built : MeasureUnit → Prop where
  | reachable {u : MeasureUnit} : standardUnits.Reachable u → Built u
  | counting (name : String) : Built (.counting name)
  | second : Built Moment.secondUnit
  | kelvin : Built .kelvin
  | multiply {u v w : MeasureUnit} : Built u → Built v → u.multiply v = .ok w → Built w
  | divide {u v w : MeasureUnit} : Built u → Built v → u.divide v = .ok w → Built w
  | power {u w : MeasureUnit} {n : Int} {s : Settings} : Built u → u.power n s = .ok w → Built w
  | root {u w : MeasureUnit} {n : Int} {s : Settings} : Built u → u.root n s = .ok w → Built w

/-- Things that cancel leave no entry behind. -/
theorem Built.reduced (h : u.Built) : u.adHoc.Reduced := by
  induction h with
  | reachable h =>
    exact ((Registry.isRegular_ofCatalogue regular_of_catalogue).regular_of_reachable h).reduced
  | counting name => exact (regular_counting name).reduced
  | second | kelvin => exact Exponents.reduced_empty
  | multiply _ _ h hu hv =>
    rcases multiply_cases h with ⟨-, rfl⟩ | ⟨-, rfl⟩ | ⟨_, _, _, _, -, ha, -, rfl⟩
    · exact hu
    · exact hv
    · exact Exponents.reduced_combine ha
  | divide _ _ h hu _ =>
    rcases divide_cases h with ⟨-, rfl⟩ | ⟨_, _, _, _, _, -, ha, -, -, rfl⟩
    · exact hu
    · exact Exponents.reduced_combine ha
  | power _ h hu =>
    rcases power_cases h with ⟨-, rfl⟩ | ⟨_, _, _, _, _, -, ha, -, -, rfl⟩
    · exact hu
    · exact Exponents.reduced_scale ha
  | root _ h hu =>
    rcases root_cases h with ⟨-, rfl⟩ | ⟨_, _, _, _, _, -, ha, -, rfl⟩
    · exact hu
    · exact Exponents.reduced_root hu ha

/-! ## Classes of units -/

/-- A class of units that the evaluation of an expression does not lead out of. Things counted have
a name, or are counted by a unit of the class already. -/
structure Closed (P : MeasureUnit → Prop) : Prop where
  reachable {u : MeasureUnit} : standardUnits.Reachable u → P u
  counting {name : String} : name ≠ "" → P (.counting name)
  thing {u : MeasureUnit} {name : String} : P u → name ∈ u.adHoc.names → P (.counting name)
  second : P Moment.secondUnit
  kelvin : P .kelvin
  multiply {u v w : MeasureUnit} : P u → P v → u.multiply v = .ok w → P w
  divide {u v w : MeasureUnit} : P u → P v → u.divide v = .ok w → P w
  power {u w : MeasureUnit} {n : Int} {s : Settings} : P u → u.power n s = .ok w → P w
  root {u w : MeasureUnit} {n : Int} {s : Settings} : P u → u.root n s = .ok w → P w

theorem closed_built : Closed Built where
  reachable := .reachable
  counting _ := .counting _
  thing _ _ := .counting _
  second := .second
  kelvin := .kelvin
  multiply := .multiply
  divide := .divide
  power := .power
  root := .root

namespace Closed

variable {P : MeasureUnit → Prop} (hP : Closed P)

include hP

theorem dimensionless : P .dimensionless := hP.reachable .dimensionless

theorem of_lookup? {name : String} (h : standardUnits.lookup? name = some u) : P u :=
  hP.reachable (.lookup h)

theorem of_resolve {name : String} (h : standardUnits.resolve name = .ok u) : P u :=
  hP.of_lookup? (Registry.lookup?_of_resolve h)

theorem of_parseUnit {text : String} (h : parseUnit text = .ok u) : P u :=
  hP.reachable (Registry.reachable_of_parse h)

/-- The coherent unit of a unit is in its class. -/
theorem coherentUnit (hu : P u) (h : u.coherentUnit s = .ok v) : P v := by
  obtain ⟨base, hbase, hunit⟩ := bind_eq_ok_iff.1 h
  have hbase : P base := by
    refine of_foldlM_eq_ok (fun w term _ w' hw hw' => ?_) hP.dimensionless hbase
    obtain ⟨factor, hfactor, hproduct⟩ := bind_eq_ok_iff.1 hw'
    obtain ⟨power, hpower, hproduct⟩ := bind_eq_ok_iff.1 (lift_eq_ok_iff.1 hproduct)
    exact hP.multiply hw (hP.power (hP.of_resolve hfactor) hpower) hproduct
  refine of_foldlM_eq_ok (fun w entry hentry w' hw hw' => ?_) hbase (lift_eq_ok_iff.1 hunit)
  obtain ⟨power, hpower, hproduct⟩ := bind_eq_ok_iff.1 hw'
  have hthing := hP.thing hu (List.mem_map_of_mem hentry)
  exact hP.multiply hw (hP.power hthing hpower) hproduct

end Closed

end MeasureUnit

end Reckoner
