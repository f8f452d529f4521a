import Reckoner.Proofs.Unit.Registry
import Reckoner.Unit.Catalogue
import Mathlib.Data.List.Nodup

/-!
# The table of the catalogued units

The base units of a catalogue are its units other than products, and the multiples that they take.
They make a table if no two of them differ under one symbol. A symbol can be read in more than one
way, as in `kg`, which is a unit of its own and a thousand grams; `Unambiguous` lists what has to be
checked so that all readings agree, symbol by symbol and multiple by multiple.

Over this table every unit that comes from looking up names, by any number of products, quotients
and powers, is represented (`represented_of_reachable`).
-/

namespace Reckoner

namespace Multiple

def all : List Multiple := decimals ++ binaries

end Multiple

namespace Catalogue

/-- The units of a catalogue other than products, with the multiples they take. -/
def units (entries : List CatalogueEntry) : List (MeasureUnit × Scaling) :=
  entries.filterMap fun entry =>
    match entry with
    | .unit u scaling => some (u, scaling)
    | _ => none

/-- The units of a catalogue other than products, and their multiples. -/
def baseUnits (entries : List CatalogueEntry) : List MeasureUnit :=
  (units entries).flatMap fun p => p.1 :: p.2.multiples.map p.1.multiple

/-- The dimension and the factor of the base unit of a symbol. -/
def table (entries : List CatalogueEntry) : UnitTable := fun symbol =>
  ((baseUnits entries).find? fun u => u.symbol == symbol).map fun u => (u.dimension, u.factor)

/-- All readings of a symbol agree. -/
structure Unambiguous (lines : List (MeasureUnit × Scaling)) : Prop where
  symbols : (lines.map fun p => p.1.symbol.toList).Nodup
  multiples : ∀ p ∈ lines, ∀ m ∈ Multiple.all,
    ∀ rest ∈ Text.dropHead? m.symbol p.1.symbol.toList,
      ∀ q ∈ lines, q.2 ≠ .fixed → q.1.symbol.toList = rest →
        p.1.dimension = q.1.dimension ∧ p.1.factor = q.1.factor.mul m.scale
  prefixes : ∀ m ∈ Multiple.all, ∀ m' ∈ Multiple.all,
    ∀ rest ∈ Text.dropHead? m.symbol m'.symbol.toList, rest ≠ [] →
      ∀ p ∈ lines, p.2 ≠ .fixed → ¬ rest <+: p.1.symbol.toList

instance (lines : List (MeasureUnit × Scaling)) : Decidable (Unambiguous lines) :=
  decidable_of_iff (_ ∧ _ ∧ _) ⟨fun ⟨h, h', h''⟩ => ⟨h, h', h''⟩, fun ⟨h, h', h''⟩ => ⟨h, h', h''⟩⟩

/-! ## One reading for every symbol -/

theorem multiples_checked : (Multiple.all.map fun m => m.symbol.toList).Nodup ∧
    ∀ m ∈ Multiple.all, m.scale.isZero = false := by decide +kernel

theorem multiple_inj {m m' : Multiple} (hm : m ∈ Multiple.all) (hm' : m' ∈ Multiple.all)
    (h : m.symbol = m'.symbol) : m = m' :=
  List.inj_on_of_nodup_map multiples_checked.1 hm hm' (congrArg String.toList h)

theorem scale_ne_zero {m : Multiple} (hm : m ∈ Multiple.all) : m.scale.isZero = false :=
  multiples_checked.2 m hm

theorem multiples_subset_all (scaling : Scaling) : scaling.multiples ⊆ Multiple.all := by
  cases scaling with
  | fixed => exact List.nil_subset _
  | decimal => exact List.subset_append_left _ _
  | decimalAndBinary => exact List.Subset.refl _

theorem dropHead?_append (head : String) (rest : List Char) :
    rest ∈ Text.dropHead? head (head.toList ++ rest) :=
  List.isPrefixOf?_eq_some_iff_append_eq.2 rfl

theorem mem_baseUnits {entries : List CatalogueEntry} {w : MeasureUnit} :
    w ∈ baseUnits entries ↔
      ∃ p ∈ units entries, w = p.1 ∨ ∃ m ∈ p.2.multiples, w = p.1.multiple m := by
  simp only [baseUnits, List.mem_flatMap, List.mem_cons, List.mem_map, eq_comm]

theorem unit_mem_baseUnits {entries : List CatalogueEntry} {p : MeasureUnit × Scaling}
    (hp : p ∈ units entries) : p.1 ∈ baseUnits entries := mem_baseUnits.2 ⟨p, hp, .inl rfl⟩

theorem multiple_mem_baseUnits {entries : List CatalogueEntry} {p : MeasureUnit × Scaling}
    {m : Multiple} (hp : p ∈ units entries) (hm : m ∈ p.2.multiples) :
    p.1.multiple m ∈ baseUnits entries := mem_baseUnits.2 ⟨p, hp, .inr ⟨m, hm, rfl⟩⟩

namespace Unambiguous

variable {lines : List (MeasureUnit × Scaling)} {p q : MeasureUnit × Scaling} {m m' : Multiple}

theorem line_inj (h : Unambiguous lines) (hp : p ∈ lines) (hq : q ∈ lines)
    (hsymbol : p.1.symbol = q.1.symbol) : p = q :=
  List.inj_on_of_nodup_map h.symbols hp hq (congrArg String.toList hsymbol)

theorem ne_fixed_of_mem {scaling : Scaling} (hm : m ∈ scaling.multiples) : scaling ≠ .fixed := by
  rintro rfl
  cases hm

/-- A unit with the symbol of a multiple is that multiple. -/
theorem line_eq_multiple (h : Unambiguous lines) (hp : p ∈ lines) (hq : q ∈ lines)
    (hm : m ∈ q.2.multiples) (hsymbol : p.1.symbol = m.symbol ++ q.1.symbol) :
    p.1.dimension = q.1.dimension ∧ p.1.factor = q.1.factor.mul m.scale := by
  refine h.multiples p hp m (multiples_subset_all _ hm) q.1.symbol.toList ?_ q hq
    (ne_fixed_of_mem hm) rfl
  rw [hsymbol, String.toList_append]
  exact dropHead?_append _ _

/-- Two multiples with one symbol, the first of which has the shorter prefix. -/
theorem multiple_eq_of_append (h : Unambiguous lines) (hp : p ∈ lines) (hq : q ∈ lines)
    (hm : m ∈ p.2.multiples) (hm' : m' ∈ q.2.multiples) {rest : List Char}
    (hextends : m'.symbol.toList = m.symbol.toList ++ rest)
    (hsymbol : p.1.symbol.toList = rest ++ q.1.symbol.toList) : m = m' ∧ p = q := by
  have hall := multiples_subset_all _ hm
  have hall' := multiples_subset_all _ hm'
  -- A prefix that goes on as the symbol of a unit does would be ambiguous.
  have hrest : rest = [] := by
    by_contra hne
    refine h.prefixes m hall m' hall' rest ?_ hne p hp (ne_fixed_of_mem hm) ?_
    · rw [hextends]
      exact dropHead?_append _ _
    · rw [hsymbol]
      exact List.prefix_append _ _
  subst hrest
  rw [List.append_nil] at hextends
  exact ⟨multiple_inj hall hall' (String.toList_inj.1 hextends.symm),
    h.line_inj hp hq (String.toList_inj.1 hsymbol)⟩

/-- Two multiples with one symbol are the same multiple of the same unit. -/
theorem multiple_eq_multiple (h : Unambiguous lines) (hp : p ∈ lines) (hq : q ∈ lines)
    (hm : m ∈ p.2.multiples) (hm' : m' ∈ q.2.multiples)
    (hsymbol : m.symbol ++ p.1.symbol = m'.symbol ++ q.1.symbol) : m = m' ∧ p = q := by
  have hlists := congrArg String.toList hsymbol
  rw [String.toList_append, String.toList_append] at hlists
  rcases List.append_eq_append_iff.1 hlists with ⟨rest, hm'', hp'⟩ | ⟨rest, hm'', hq'⟩
  · exact h.multiple_eq_of_append hp hq hm hm' hm'' hp'
  · obtain ⟨rfl, rfl⟩ := h.multiple_eq_of_append hq hp hm' hm hm'' hq'
    exact ⟨rfl, rfl⟩

end Unambiguous

variable {entries : List CatalogueEntry} {u v : MeasureUnit}

/-- Base units with one symbol have one dimension and one factor. -/
theorem baseUnits_agree (h : Unambiguous (units entries)) (hu : u ∈ baseUnits entries)
    (hv : v ∈ baseUnits entries) (hsymbol : u.symbol = v.symbol) :
    u.dimension = v.dimension ∧ u.factor = v.factor := by
  obtain ⟨p, hp, rfl | ⟨m, hm, rfl⟩⟩ := mem_baseUnits.1 hu
  · obtain ⟨q, hq, rfl | ⟨m', hm', rfl⟩⟩ := mem_baseUnits.1 hv
    · rw [h.line_inj hp hq hsymbol]
      exact ⟨rfl, rfl⟩
    · exact h.line_eq_multiple hp hq hm' hsymbol
  · obtain ⟨q, hq, rfl | ⟨m', hm', rfl⟩⟩ := mem_baseUnits.1 hv
    · obtain ⟨hdimension, hfactor⟩ := h.line_eq_multiple hq hp hm hsymbol.symm
      exact ⟨hdimension.symm, hfactor.symm⟩
    · obtain ⟨rfl, rfl⟩ := h.multiple_eq_multiple hp hq hm hm' hsymbol
      exact ⟨rfl, rfl⟩

theorem exists_of_table {symbol : String} {d : Dimension} {f : Number}
    (h : table entries symbol = some (d, f)) :
    ∃ u ∈ baseUnits entries, u.symbol = symbol ∧ u.dimension = d ∧ u.factor = f := by
  obtain ⟨u, hu, hentry⟩ := Option.map_eq_some_iff.1 h
  cases hentry
  exact ⟨u, List.mem_of_find?_eq_some hu, by simpa using List.find?_some hu, rfl, rfl⟩

/-- The table has every base unit. -/
theorem table_of_mem (h : Unambiguous (units entries)) (hu : u ∈ baseUnits entries) :
    table entries u.symbol = some (u.dimension, u.factor) := by
  cases htable : table entries u.symbol with
  | none =>
    have hnone := List.find?_eq_none.1 (Option.map_eq_none_iff.1 htable) u hu
    simp at hnone
  | some base =>
    obtain ⟨d, f⟩ := base
    obtain ⟨v, hv, hsymbol, rfl, rfl⟩ := exists_of_table htable
    obtain ⟨hdimension, hfactor⟩ := baseUnits_agree h hv hu hsymbol
    rw [hdimension, hfactor]

theorem table_eq_some_iff (h : Unambiguous (units entries)) {symbol : String} {d : Dimension}
    {f : Number} : table entries symbol = some (d, f) ↔
      ∃ u ∈ baseUnits entries, u.symbol = symbol ∧ u.dimension = d ∧ u.factor = f := by
  constructor
  · exact exists_of_table
  · rintro ⟨u, hu, rfl, rfl, rfl⟩
    exact table_of_mem h hu

/-! ## The registry over its table -/

/-- A unit of its own: its symbol is its only component, and its factor is not 0. Multiples are
attached to atomic symbols only. -/
structure IsBase (p : MeasureUnit × Scaling) : Prop where
  components : p.1.components = .single p.1.symbol
  adHoc : p.1.adHoc = .empty
  atomic : p.2 ≠ .fixed → IsAtomic p.1.symbol
  factor_ne_zero : p.1.factor.isZero = false

theorem nonzero_table (hbase : ∀ p ∈ units entries, IsBase p) : (table entries).Nonzero := by
  intro symbol d f htable
  obtain ⟨u, hu, -, -, rfl⟩ := exists_of_table htable
  obtain ⟨p, hp, rfl | ⟨m, hm, rfl⟩⟩ := mem_baseUnits.1 hu
  · exact (hbase p hp).factor_ne_zero
  · exact Number.isZero_mul (hbase p hp).factor_ne_zero
      (scale_ne_zero (multiples_subset_all _ hm))

theorem isSound_line (h : Unambiguous (units entries)) (hbase : ∀ p ∈ units entries, IsBase p)
    {scaling : Scaling} (hline : (u, scaling) ∈ units entries) :
    (CatalogueEntry.unit u scaling).IsSound (table entries) := by
  have hu := hbase _ hline
  have htable := table_of_mem h (unit_mem_baseUnits hline)
  refine ⟨MeasureUnit.represented_of_table hu.components hu.adHoc htable (fun _ hr => hr)
    hu.factor_ne_zero, fun hscaling => ?_⟩
  refine ⟨hu.atomic hscaling, u.dimension, u.factor, htable, fun m hm => ?_⟩
  refine ⟨scale_ne_zero (multiples_subset_all _ hm), ?_⟩
  exact table_of_mem h (multiple_mem_baseUnits hline hm)

theorem isSound_entry (h : Unambiguous (units entries)) (hbase : ∀ p ∈ units entries, IsBase p)
    {entry : CatalogueEntry} (hentry : entry ∈ entries) : entry.IsSound (table entries) := by
  cases entry with
  | unit u scaling =>
    exact isSound_line h hbase (List.mem_filterMap.2 ⟨_, hentry, rfl⟩)
  | product name parts aliases => trivial
  | aliases symbol names => trivial

theorem isSound_ofCatalogue (h : Unambiguous (units entries))
    (hbase : ∀ p ∈ units entries, IsBase p) :
    (Registry.ofCatalogue entries).IsSound (table entries) :=
  Registry.IsSound.ofCatalogue (nonzero_table hbase) fun _ hentry => isSound_entry h hbase hentry

end Catalogue

/-! ## The standard catalogue -/

namespace Catalogue

/-- All that the symbols, the components and the offsets of the lines are looked at for. Two scales
do not start at zero. -/
theorem lines_checked : Unambiguous (units entries) ∧
    ∀ p ∈ units entries, p.1.components = .single p.1.symbol ∧ p.1.adHoc = .empty ∧
      (p.2 ≠ .fixed → IsAtomic p.1.symbol) ∧
      (p.1.offset = Number.ofInt 0 ∨
        p.1.symbol ∈ ["°C", "°F"] ∧ p.1.dimension = .temperature) := by decide +kernel

theorem unambiguous_entries : Unambiguous (units entries) := lines_checked.1

theorem isZero_ofRatio {n d : Int} (hn : n ≠ 0) (hd : d ≠ 0) :
    (Number.ofRatio n d).isZero = false :=
  beq_eq_false_iff_ne.2 (mt (Rat.divInt_eq_zero hd).1 hn)

theorem isZero_timesPi {x : Number} (hx : x.isZero = false) : (timesPi x).isZero = false := by
  refine Number.isZero_mul ?_ hx
  unfold Number.pi
  apply Number.isZero_toApprox
  decide +kernel

theorem isZero_angle {p : MeasureUnit × Scaling} (hp : p ∈ units angleUnits) :
    p.1.factor.isZero = false := by
  simp only [units, angleUnits, scaled, fixed, List.filterMap_cons, List.filterMap_nil,
    List.mem_cons, List.not_mem_nil, or_false] at hp
  rcases hp with rfl | rfl | rfl | rfl | rfl | rfl
  · rfl
  · exact isZero_timesPi (isZero_ofRatio (by decide) (by decide))
  · exact isZero_timesPi (isZero_ofRatio (by decide) (by decide))
  · exact isZero_timesPi (isZero_ofRatio (by decide) (by decide))
  · exact isZero_timesPi (isZero_ofRatio (by decide) (by decide))
  · exact isZero_timesPi rfl

/-- Only the factors of the angles are approximate; the others are looked at as they are. -/
theorem isZero_factor : ∀ p ∈ units entries, p.1.factor.isZero = false := by
  unfold entries units
  rw [List.filterMap_append, List.filterMap_append, List.filterMap_append,
    List.forall_mem_append, List.forall_mem_append, List.forall_mem_append]
  refine ⟨⟨⟨?_, fun p => isZero_angle⟩, ?_⟩, ?_⟩ <;> decide +kernel

theorem isBase_of_mem {p : MeasureUnit × Scaling} (hp : p ∈ units entries) : IsBase p := by
  obtain ⟨hcomponents, hadHoc, hatomic, -⟩ := lines_checked.2 p hp
  exact ⟨hcomponents, hadHoc, hatomic, isZero_factor p hp⟩

end Catalogue

/-- **The standard units stand over one table.** There is one table of the catalogued units and their
multiples, and every unit reachable from the names of the standard registry is represented over
it: its components determine its symbol, its dimension and, where it is exact, its factor. -/
theorem standardUnits_over_table :
    ∃ t : UnitTable,
      (∀ symbol d f, t symbol = some (d, f) ↔
        ∃ u ∈ Catalogue.baseUnits Catalogue.entries,
          u.symbol = symbol ∧ u.dimension = d ∧ u.factor = f) ∧
      ∀ u, standardUnits.Reachable u → u.Represented t := by
  refine ⟨Catalogue.table Catalogue.entries, fun symbol d f => ?_, fun u hu => ?_⟩
  · exact Catalogue.table_eq_some_iff Catalogue.unambiguous_entries
  · have hbase := fun p hp => Catalogue.isBase_of_mem (p := p) hp
    exact (Catalogue.isSound_ofCatalogue Catalogue.unambiguous_entries
      hbase).represented_of_reachable (Catalogue.nonzero_table hbase) hu

/-- Square metres are reachable, and the metre they are made of has its place in the table. -/
theorem square_metre_over_table :
    ∃ t m u, standardUnits.lookup? "m" = some m ∧ m.power 2 default = .ok u ∧ u.symbol = "m^2" ∧
      t "m" = some (m.dimension, m.factor) ∧ u.Represented t := by
  have hfound : (standardUnits.lookup? "m").any fun m =>
      (m ∈ Catalogue.baseUnits Catalogue.entries ∧ m.symbol = "m") ∧
        (m.power 2 default).toOption.any fun u => u.symbol = "m^2" := by decide +kernel
  obtain ⟨m, hm, hfound⟩ := (Option.any_eq_true _ _).1 hfound
  obtain ⟨⟨hbase, hsymbol⟩, hpower⟩ := of_decide_eq_true hfound
  obtain ⟨u, hu, hsquare⟩ := exists_eq_ok hpower
  obtain ⟨t, htable, hrepresented⟩ := standardUnits_over_table
  refine ⟨t, m, u, hm, hu, of_decide_eq_true hsquare, ?_, ?_⟩
  · exact (htable "m" m.dimension m.factor).2 ⟨m, hbase, hsymbol, rfl, rfl⟩
  · exact hrepresented u (.power (.lookup hm) hu)

end Reckoner
