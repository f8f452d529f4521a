import Reckoner.Proofs.Expr.Units
import Reckoner.Proofs.Unit.Standard

/-!
# Quantities without a symbol

A quantity is shown with the symbol of its unit, which is composed from the components. Catalogued
units and things counted are components alike, under their symbol or their name, and what is named
like a unit shares the component of that unit. So the two can cancel in the symbol although neither
is gone: a metre per thing named `m` has no symbol.

Beyond the things counted, the components still account for the whole dimension
(`MeasureUnit.Accounted`). Hence this is the only way in which a dimension can be missing from a
symbol (`hidden_of_eval`).
-/

namespace Reckoner

/-! ## Maps of names -/

/-- No entry is 0, and none is of the empty name. -/
structure Exponents.Named (c : Exponents) : Prop where
  reduced : c.Reduced
  ne_empty : ∀ name ∈ c.names, name ≠ ""

namespace Exponents

variable {a b c : Exponents} {n : Int}

theorem named_empty : empty.Named := ⟨List.forall_mem_nil _, List.forall_mem_nil _⟩

theorem named_single {name : String} (hname : name ≠ "") : (single name).Named where
  reduced e he := by
    rw [List.mem_singleton.1 he]
    exact one_ne_zero
  ne_empty other hother := by rwa [List.mem_singleton.1 hother]

theorem Named.combine {op : Int → Int → Int} (ha : a.Named) (hb : b.Named)
    (h : combine op a b = some c) : c.Named where
  reduced := reduced_combine h
  ne_empty name hname := (mem_names_combine h hname).elim (ha.ne_empty name) (hb.ne_empty name)

theorem Named.scale (ha : a.Named) (h : a.scale n = some c) : c.Named where
  reduced := reduced_scale h
  ne_empty name hname := ha.ne_empty name (mem_names_scale h hname)

theorem Named.root (ha : a.Named) (h : a.root n = some c) : c.Named where
  reduced := reduced_root ha.reduced h
  ne_empty name hname := ha.ne_empty name (names_root h ▸ hname)

end Exponents

theorem termText_ne_empty {name : String} (hname : name ≠ "") (e : Int) :
    Dimension.termText name e ≠ "" := by
  unfold Dimension.termText
  split
  · exact hname
  · simp [hname]

/-- Whatever has a name shows in the symbol. -/
theorem eq_empty_of_composeSymbol {c : Exponents} (hc : c.Named) (h : composeSymbol c = "") :
    c = .empty := by
  have hpos : ∀ e ∈ c.entries, 0 < e.2 := by
    apply pos_of_composeSymbol hc.reduced
    rw [h]
    simp
  rw [composeSymbol_of_pos hpos] at h
  obtain ⟨entries, ascending, inRange⟩ := c
  cases entries with
  | nil => rfl
  | cons e rest =>
    have hterm := termText_ne_empty (hc.ne_empty e.1 (.head _)) e.2.natAbs
    cases rest with
    | nil => exact absurd (String.intercalate_singleton.symm.trans h) hterm
    | cons e' rest =>
      have hdot := mem_intercalate_cons_cons (Dimension.termText e.1 e.2.natAbs)
        (Dimension.termText e'.1 e'.2.natAbs)
        (rest.map fun e => Dimension.termText e.1 e.2.natAbs)
      simp only [List.map_cons] at h
      rw [h] at hdot
      simp at hdot

namespace MeasureUnit

variable {t : UnitTable} {u v w : MeasureUnit} {s : Settings} {n : Int}

/-! ## What components account for -/

/-- The components of a unit make its symbol and account for its dimension: where they differ from
the things counted they are units of the table, and what the things counted take away from the
dimension of the components is the dimension of the unit. -/
structure Accounted (t : UnitTable) (u : MeasureUnit) : Prop where
  components : u.components.Named
  things : u.adHoc.Named
  symbol : u.symbol = composeSymbol u.components
  known : ∀ name, u.components.get name ≠ u.adHoc.get name → (t name).isSome
  dimension : ∀ i : Fin 9, u.dimension.exponent i =
    t.totalExponent i u.components - t.totalExponent i u.adHoc

theorem Represented.accounted (hu : u.Represented t)
    (ht : ∀ name, (t name).isSome → name ≠ "") : u.Accounted t where
  components := ⟨hu.reduced, fun name hname => ht name (hu.known name hname)⟩
  things := by
    rw [hu.adHoc]
    exact Exponents.named_empty
  symbol := hu.symbol
  known name h := by
    apply hu.known
    by_contra hmem
    apply h
    rw [Exponents.get_eq_zero hmem, hu.adHoc, Exponents.get_empty]
  dimension i := by
    rw [hu.dimension, hu.adHoc]
    exact (Int.sub_zero _).symm

/-- Things counted are their own component. -/
theorem accounted_counting {name : String} (hname : name ≠ "") : (counting name).Accounted t := by
  have hcomponents : (counting name).components = .single name := if_neg (by simpa using hname)
  refine ⟨?_, Exponents.named_single hname, ?_, ?_, ?_⟩
  all_goals rw [hcomponents]
  · exact Exponents.named_single hname
  · exact (composeSymbol_single name).symm
  · exact fun other hother => absurd rfl hother
  · intro i
    have hdimension : ∀ i : Fin 9, Dimension.dimensionless.exponent i = 0 := by decide
    exact (hdimension i).trans (Int.sub_self _).symm

namespace Accounted

theorem multiply (hu : u.Accounted t) (hv : v.Accounted t) (h : u.multiply v = .ok w) :
    w.Accounted t := by
  rcases multiply_cases h with ⟨-, rfl⟩ | ⟨-, rfl⟩ | ⟨components, adHoc, _, d, hc, ha, hd, rfl⟩
  · exact hu
  · exact hv
  · refine ⟨hu.components.combine hv.components hc, hu.things.combine hv.things ha, rfl,
      fun name hname => ?_, fun i => ?_⟩
    · by_contra hunknown
      apply hname
      have hleft := mt (hu.known name) hunknown
      have hright := mt (hv.known name) hunknown
      simp only [derived, Exponents.get_add hc, Exponents.get_add ha]
      omega
    · have hleft := hu.dimension i
      have hright := hv.dimension i
      simp only [derived, Dimension.exponent_multiply hd, UnitTable.totalExponent_add hc,
        UnitTable.totalExponent_add ha]
      omega

theorem divide (hu : u.Accounted t) (hv : v.Accounted t) (h : u.divide v = .ok w) :
    w.Accounted t := by
  rcases divide_cases h with ⟨-, rfl⟩ | ⟨components, adHoc, _, d, _, hc, ha, hd, -, rfl⟩
  · exact hu
  · refine ⟨hu.components.combine hv.components hc, hu.things.combine hv.things ha, rfl,
      fun name hname => ?_, fun i => ?_⟩
    · by_contra hunknown
      apply hname
      have hleft := mt (hu.known name) hunknown
      have hright := mt (hv.known name) hunknown
      simp only [derived, Exponents.get_sub hc, Exponents.get_sub ha]
      omega
    · have hleft := hu.dimension i
      have hright := hv.dimension i
      simp only [derived, Dimension.exponent_divide hd, UnitTable.totalExponent_sub hc,
        UnitTable.totalExponent_sub ha]
      omega

theorem power (hu : u.Accounted t) (h : u.power n s = .ok w) : w.Accounted t := by
  rcases power_cases h with ⟨-, rfl⟩ | ⟨components, adHoc, _, d, _, hc, ha, hd, -, rfl⟩
  · exact hu
  · refine ⟨hu.components.scale hc, hu.things.scale ha, rfl, fun name hname => ?_, fun i => ?_⟩
    · apply hu.known name
      intro heq
      apply hname
      simp only [derived, Exponents.get_scale hc, Exponents.get_scale ha, heq]
    · simp only [derived, Dimension.exponent_power hd, UnitTable.totalExponent_scale hc,
        UnitTable.totalExponent_scale ha, hu.dimension i, Int.mul_sub]

theorem root (hu : u.Accounted t) (h : u.root n s = .ok w) : w.Accounted t := by
  rcases root_cases h with ⟨-, rfl⟩ | ⟨components, adHoc, _, d, _, hc, ha, hd, rfl⟩
  · exact hu
  · obtain ⟨hn, hroot⟩ := Dimension.exponent_root hd
    refine ⟨hu.components.root hc, hu.things.root ha, rfl, fun name hname => ?_, fun i => ?_⟩
    · apply hu.known name
      rw [Exponents.get_root hc, Exponents.get_root ha]
      exact fun heq => hname (Int.eq_of_mul_eq_mul_left hn heq)
    · apply Int.eq_of_mul_eq_mul_left hn
      rw [Int.mul_sub]
      simp only [derived]
      rw [← hroot i, ← UnitTable.totalExponent_root hc, ← UnitTable.totalExponent_root ha,
        hu.dimension i]

end Accounted

/-! ## Units of values -/

/-- Symbols of catalogued units and their multiples are not empty. -/
theorem ne_empty_of_table {name : String}
    (h : (Catalogue.table Catalogue.entries name).isSome) : name ≠ "" := by
  obtain ⟨base, hbase⟩ := Option.isSome_iff_exists.1 h
  obtain ⟨u, hu, rfl, -, -⟩ := Catalogue.exists_of_table hbase
  exact (Catalogue.plain_of_baseUnits hu).1

theorem accounted_catalogued (c : CataloguedUnit) :
    c.unit.Accounted (Catalogue.table Catalogue.entries) := by
  have hsound := Catalogue.isSound_line Catalogue.unambiguous_entries
    (fun _ hp => Catalogue.isBase_of_mem hp) c.listed
  exact hsound.1.accounted fun _ => ne_empty_of_table

/-- **Evaluation accounts for the dimensions of units.** -/
theorem closed_accounted : Closed (Accounted (Catalogue.table Catalogue.entries)) where
  reachable h := (represented_of_reachable h).accounted fun _ => ne_empty_of_table
  counting := accounted_counting
  thing hu hname := accounted_counting (hu.things.ne_empty _ hname)
  second := accounted_catalogued .second
  kelvin := accounted_catalogued .kelvin
  multiply := .multiply
  divide := .divide
  power := .power
  root := .root

/-! ## What an empty symbol hides -/

/-- What a unit without a symbol can be: things counted, all of them named like catalogued units,
and the dimension of these units the other way round. -/
structure HidesNamesakes (u : MeasureUnit) : Prop where
  namesakes : ∀ name ∈ u.adHoc.names, ∃ v ∈ Catalogue.baseUnits Catalogue.entries, v.symbol = name
  dimension : ∀ i : Fin 9, u.dimension.exponent i =
    -(Catalogue.table Catalogue.entries).totalExponent i u.adHoc
  dimensionless : u.adHoc.isEmpty → u.isDimensionless

theorem Accounted.hidesNamesakes (hu : u.Accounted (Catalogue.table Catalogue.entries))
    (hsymbol : u.symbol = "") : u.HidesNamesakes := by
  have hcomponents : u.components = .empty :=
    eq_empty_of_composeSymbol hu.components (hu.symbol ▸ hsymbol)
  have hdimension : ∀ i : Fin 9, u.dimension.exponent i =
      -(Catalogue.table Catalogue.entries).totalExponent i u.adHoc := by
    intro i
    rw [hu.dimension i, hcomponents]
    exact Int.zero_sub _
  refine ⟨fun name hname => ?_, hdimension, fun hempty => ?_⟩
  · obtain ⟨⟨name, e⟩, he, rfl⟩ := List.mem_map.1 hname
    obtain ⟨hget, hne⟩ := hu.things.reduced.mem_iff.1 he
    have hknown : (Catalogue.table Catalogue.entries name).isSome := by
      apply hu.known
      rw [hcomponents, Exponents.get_empty, hget]
      exact hne.symm
    obtain ⟨base, hbase⟩ := Option.isSome_iff_exists.1 hknown
    obtain ⟨v, hv, hsymbol, -⟩ := Catalogue.exists_of_table hbase
    exact ⟨v, hv, hsymbol⟩
  · have hentries : u.adHoc.entries = [] := List.isEmpty_iff.1 hempty
    rw [isDimensionless, hempty, Bool.and_true, Dimension.isDimensionless, List.all_eq_true]
    intro e he
    obtain ⟨i, hi, rfl⟩ := Vector.getElem_of_mem (Vector.mem_toList_iff.1 he)
    have hzero := hdimension ⟨i, hi⟩
    rw [UnitTable.totalExponent, hentries] at hzero
    exact beq_iff_eq.2 hzero

end MeasureUnit

namespace Expr

/-- **A quantity without a symbol hides a dimension behind namesakes only.** Whatever a tree
evaluates to, if its symbol is empty, then the things that it counts are named like catalogued
units, and its dimension is the one that cancels theirs. Without such things it has no
dimension. -/
theorem hidden_of_eval {env : Environment} {e : Expr} {q : Quantity}
    (h : e.eval standardLibrary env = .quantity q) (hsymbol : q.unit.symbol = "") :
    q.unit.HidesNamesakes := by
  have hclosed := MeasureUnit.closed_accounted
  have hunit := hasUnit_evalAt hclosed (keeps_standardLibrary hclosed) e 0 q h
  exact hunit.hidesNamesakes hsymbol

/-- Six things named `s` in a second have no symbol. -/
theorem hidden_of_eval_of_frequency :
    ∃ q, (binary .frac (product [.int 6, .quote "s"]) (.name "s")).eval standardLibrary
        ⟨{}, default⟩ = .quantity q ∧
      q.unit.symbol = "" ∧ q.unit.dimension = .frequency ∧ q.unit.HidesNamesakes := by
  have hs : standardUnits.lookup? "s" = some _ := CataloguedUnit.second.lookup?_symbol
  obtain ⟨q, hq, hsymbol, hdimension⟩ : ∃ q, (binary .frac (product [.int 6, .quote "s"])
      (.name "s")).eval standardLibrary ⟨{}, default⟩ = .quantity q ∧
        q.unit.symbol = "" ∧ q.unit.dimension = .frequency := by
    rw [eval, evalAt_binary (Nat.zero_le _), evalAt_name (by decide) hs]
    exact exists_quantity (by decide +kernel)
  exact ⟨q, hq, hsymbol, hdimension, hidden_of_eval hq hsymbol⟩

/-- A metre per thing named `m` has no symbol and the dimension of a length. -/
theorem length_without_symbol :
    ∃ q, (binary .frac (.name "m") (product [.quote "m"])).eval standardLibrary ⟨{}, default⟩ =
        .quantity q ∧
      q.unit.symbol = "" ∧ q.unit.isDimensionless = false ∧ q.unit.dimension = .length ∧
      q.unit.adHoc.names = ["m"] := by
  have hm : standardUnits.lookup? "m" = some _ := CataloguedUnit.metre.lookup?_symbol
  rw [eval, evalAt_binary (Nat.zero_le _), evalAt_name (by decide) hm]
  exact exists_quantity (by decide +kernel)

end Expr

end Reckoner
