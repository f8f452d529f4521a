import Reckoner.Proofs.Unit.Built
import Reckoner.Proofs.Unit.Reading
import Reckoner.Proofs.Unit.Standard

/-!
# Symbols that are read back

The symbol of a unit is a unit expression again. Where it is read, a registered name is tried first,
and then the product of its terms. Both lead to a unit of the same components
(`components_eq_of_lookup?`, `Registry.attains_readQuotient`), and the components determine the
dimension and, as long as nothing is rounded, the scale.

`symbol_read_back` puts this together: the symbol of a unit that was read is read as that unit
again, if it is clear.
-/

namespace Reckoner

/-! ## Components as terms -/

section

variable {c : Exponents} {weight : String → Int}

theorem total_entries (c : Exponents) :
    total weight (powers c.above ++ inverses (powers c.below)) = total weight c.entries := by
  rw [total_append, total_inverses]
  unfold total powers Exponents.above Exponents.below Exponents.terms
  generalize c.entries = entries
  induction entries with
  | nil => rfl
  | cons e rest ih =>
    obtain ⟨name, e⟩ := e
    simp only [List.map_map] at ih ⊢
    rw [List.map_cons, List.sum_cons, ← ih]
    rcases Int.lt_trichotomy e 0 with hneg | rfl | hpos
    · have habs : ((e.natAbs : Nat) : Int) = -e := by omega
      rw [List.filter_cons_of_neg (by simpa using hneg.le),
        List.filter_cons_of_pos (by simpa using hneg), List.map_cons, List.sum_cons]
      simp only [Function.comp_apply, habs]
      ring
    · rw [List.filter_cons_of_neg (by simp), List.filter_cons_of_neg (by simp), zero_mul, zero_add]
    · have habs : ((e.natAbs : Nat) : Int) = e := by omega
      rw [List.filter_cons_of_pos (by simpa using hpos),
        List.filter_cons_of_neg (by simpa using hpos.le), List.map_cons, List.sum_cons]
      simp only [Function.comp_apply, habs]
      ring

theorem mem_entries_of_mem {p : String × Int}
    (hp : p ∈ powers c.above ++ inverses (powers c.below)) : p ∈ c.entries := by
  rcases List.mem_append.1 hp with hp | hp
  · obtain ⟨a, ha, rfl⟩ := List.mem_map.1 hp
    exact (Exponents.mem_above.1 ha).2
  · obtain ⟨q, hq, rfl⟩ := List.mem_map.1 hp
    obtain ⟨b, hb, rfl⟩ := List.mem_map.1 hq
    exact (Exponents.mem_below.1 hb).2

theorem Exponents.nodup_terms (c : Exponents) (keep : Int → Bool) :
    ((c.terms keep).map Prod.fst).Nodup := by
  have hnames :
      (c.terms keep).map Prod.fst = (c.entries.filter fun e => keep e.2).map Prod.fst := by
    rw [Exponents.terms, List.map_map]
    rfl
  rw [hnames]
  exact c.nodup_names.sublist (List.filter_sublist.map _)

/-- No name stands above and below the slash. -/
theorem Exponents.disjoint_terms (c : Exponents) (name : String) :
    name ∉ c.above.map Prod.fst ∨ name ∉ c.below.map Prod.fst := by
  by_contra h
  push Not at h
  obtain ⟨⟨name', k⟩, ha, rfl⟩ := List.mem_map.1 h.1
  obtain ⟨⟨name', k'⟩, hb, rfl⟩ := List.mem_map.1 h.2
  obtain ⟨hk, ha⟩ := Exponents.mem_above.1 ha
  obtain ⟨hk', hb⟩ := Exponents.mem_below.1 hb
  have heq := (Exponents.lookup_of_mem c.ascending ha).symm.trans
    (Exponents.lookup_of_mem c.ascending hb)
  simp only [Option.some.injEq] at heq
  omega

end

open Catalogue (entries table units Known IsClearSymbol)

/-! ## Offsets -/

namespace MeasureUnit

/-- The unit starts at zero, or where the catalogued unit of its symbol does. -/
def HasOwnOffset (u : MeasureUnit) : Prop :=
  u.offset = Number.ofInt 0 ∨ ∃ p ∈ units entries, p.1.symbol = u.symbol ∧ p.1.offset = u.offset

theorem isStable_hasOwnOffset : IsStable HasOwnOffset where
  new _ _ _ _ _ := .inl rfl
  rename _ hu := hu
  multiply hu hv h := by
    rcases multiply_cases h with ⟨-, rfl⟩ | ⟨-, rfl⟩ | ⟨_, _, _, _, -, -, -, rfl⟩
    · exact hu
    · exact hv
    · exact .inl rfl
  divide hu _ h := by
    rcases divide_cases h with ⟨-, rfl⟩ | ⟨_, _, _, _, _, -, -, -, -, rfl⟩
    · exact hu
    · exact .inl rfl
  power hu h := by
    rcases power_cases h with ⟨-, rfl⟩ | ⟨_, _, _, _, _, -, -, -, -, rfl⟩
    · exact hu
    · exact .inl rfl

variable {u v : MeasureUnit}

theorem hasOwnOffset_of_reachable (h : standardUnits.Reachable u) : u.HasOwnOffset := by
  refine isStable_hasOwnOffset.of_reachable (isStable_hasOwnOffset.ofCatalogue ?_) h
  intro u scaling hentry
  exact .inr ⟨(u, scaling), List.mem_filterMap.2 ⟨_, hentry, rfl⟩, rfl, rfl⟩

/-- Only two scales do not start at zero. -/
theorem offset_of_reachable (h : standardUnits.Reachable u) (hsymbol : u.symbol ∉ ["°C", "°F"]) :
    u.offset = Number.ofInt 0 := by
  rcases hasOwnOffset_of_reachable h with hzero | ⟨p, hp, hp', hoffset⟩
  · exact hzero
  · obtain ⟨-, -, -, hstart⟩ := Catalogue.lines_checked.2 p hp
    rw [← hoffset]
    exact hstart.resolve_right fun hshifted => hsymbol (hp' ▸ hshifted.1)

end MeasureUnit

/-! ## Reading -/

section

variable {c : Exponents} {u v w : MeasureUnit} {text : String}

theorem knows_terms (hc : Known c) (hclear : IsClearSymbol c) {ts : List (String × Nat)}
    (hts : ∀ p ∈ ts, p.1 ∈ c.names) : standardUnits.Knows (table entries) ts := by
  intro p hp
  have hname := hts p hp
  obtain ⟨w, hbase, hw, hsymbol⟩ :=
    Catalogue.exists_of_known (hc _ hname) (hclear.not_mem_clashes hname)
  have hrepresented := Catalogue.represented_of_lookup? hw
  refine ⟨w, hw, hrepresented, ?_, ?_⟩
  · rw [hrepresented.components_eq_single (Catalogue.plain_of_baseUnits hbase).isAtomic, hsymbol]
  · rw [← hsymbol]
    exact Catalogue.table_of_mem Catalogue.unambiguous_entries hbase

theorem composeSymbol_ne_one (hc : Known c) : (composeSymbol c).toList ≠ ['1'] := by
  intro hone
  have hterms := readSymbol_composeSymbol hc.plainNames.unmistakableNames
  rw [hone] at hterms
  have habove : [("1", 1)] = c.above := congrArg Prod.fst hterms
  have hplain := (hc.plainNames.above ("1", 1) (by simp [← habove])).name
  exact absurd hplain (by decide)

/-- A text without blanks is looked up as a whole before it is taken apart. -/
theorem Registry.parse_of_not_blank (r : Registry)
    (hblank : ∀ x ∈ text.toList, Text.isBlank x = false) (hne : text ≠ "")
    (hone : text.toList ≠ ['1']) :
    r.parse text =
      match r.lookup? text with
      | some w => .ok w
      | none => r.readQuotient text.toList := by
  have hper : ' ' ∉ text.toList := fun h => absurd (hblank _ h) (by decide)
  have hreplace : Text.replaceAll " per " "/" text.toList = text.toList :=
    Text.replaceAll_eq_self rfl hper
  have hspecial : (text.toList.isEmpty || text.toList == ['1']) = false := by
    rw [Bool.or_eq_false_iff, List.isEmpty_eq_false_iff]
    exact ⟨fun h => hne (String.toList_eq_nil_iff.1 h), beq_false_of_ne hone⟩
  simp only [parse, Text.trim_eq_self hblank, hspecial, String.ofList_toList, hreplace]
  rfl

theorem parseUnit_composeSymbol (hc : Known c) (hne : composeSymbol c ≠ "") :
    parseUnit (composeSymbol c) =
      match standardUnits.lookup? (composeSymbol c) with
      | some w => .ok w
      | none => standardUnits.readQuotient (symbolChars c.above c.below) := by
  have hblank : ∀ x ∈ (composeSymbol c).toList, Text.isBlank x = false := by
    rw [toList_composeSymbol]
    exact forall_mem_symbolChars isSeparator_isBlank rfl rfl hc.plainNames.above
      hc.plainNames.below
  rw [parseUnit, Registry.parse_of_not_blank _ hblank hne (composeSymbol_ne_one hc),
    toList_composeSymbol]

theorem parseUnit_of_lookup? (hu : u.Represented (table entries))
    (h : standardUnits.lookup? u.symbol = some w) : parseUnit u.symbol = .ok w := by
  have hne : composeSymbol u.components ≠ "" := by
    rw [← hu.symbol]
    intro hempty
    rw [hempty, Registry.lookup?_empty] at h
    cases h
  rw [hu.symbol] at h ⊢
  rw [parseUnit_composeSymbol hu.known hne, h]

/-- The exponents of a symbol are not too large for the reader. -/
def MeasureUnit.IsLegible (u : MeasureUnit) : Prop :=
  (table entries).IsLegible u.components.above ∧ (table entries).IsLegible u.components.below

/-- The quotient of the terms of a unit has the dimension of that unit. -/
theorem fits_terms (hu : u.Represented (table entries)) :
    (table entries).Fits (powers u.components.above ++ inverses (powers u.components.below)) := by
  intro i
  rw [total_entries]
  show IsExponent ((table entries).totalExponent i u.components)
  rw [← hu.dimension]
  exact u.dimension.inRange _ (Vector.mem_toList_iff.2 (Vector.getElem_mem _))

/-- What the symbol of a unit is read as has its components. -/
structure IsMadeLike (u v : MeasureUnit) : Prop where
  represented : v.Represented (table entries)
  components : v.components = u.components
  exact : (∀ e ∈ u.components.entries, (table entries).IsExactPower e) → v.factor.isExact

theorem isMadeLike_of_lookup? (hu : u.Represented (table entries))
    (hclear : IsClearSymbol u.components) (h : standardUnits.lookup? u.symbol = some w) :
    IsMadeLike u w where
  represented := Catalogue.represented_of_lookup? h
  components := by
    rw [hu.symbol] at h
    exact Catalogue.components_eq_of_lookup? hu.known hu.reduced hclear h
  exact hexact := by
    refine Catalogue.isExact_of_lookup? h fun n hn => ?_
    rw [hu.symbol] at h
    rw [Catalogue.components_eq_of_lookup? hu.known hu.reduced hclear h] at hn
    obtain ⟨e, he, rfl⟩ := List.mem_map.1 hn
    obtain ⟨r, hr, -⟩ := hexact e he
    exact Number.isExact_iff.2 ⟨r, hr⟩

theorem isMadeLike_of_isProduct (hu : u.Represented (table entries))
    (hv : v.IsProduct (table entries)
      (powers u.components.above ++ inverses (powers u.components.below))) : IsMadeLike u v where
  represented := hv.represented
  components := by
    apply hv.represented.reduced.ext hu.reduced
    intro name
    rw [Exponents.get_eq_total, Exponents.get_eq_total, hv.components, total_entries]
  exact hexact := hv.exact fun p hp => hexact p (mem_entries_of_mem hp)

theorem Registry.parse_empty (r : Registry) : r.parse "" = .ok .dimensionless := rfl

/-- **The symbol of a unit is read as a unit of the same components.** -/
theorem attains_parseUnit (hu : u.Represented (table entries))
    (hclear : IsClearSymbol u.components) :
    Attains u.IsLegible (IsMadeLike u) (parseUnit u.symbol) := by
  -- A registered name comes first; what is none is read term by term.
  cases hlookup : standardUnits.lookup? u.symbol with
  | some w =>
    rw [parseUnit_of_lookup? hu hlookup]
    exact Attains.ok (isMadeLike_of_lookup? hu hclear hlookup)
  | none =>
    have hc : Known u.components := hu.known
    by_cases hempty : composeSymbol u.components = ""
    · have hcomponents : Exponents.empty = u.components :=
        composeSymbol_inj Exponents.reduced_empty hu.reduced
          (by simp [Exponents.PlainNames, Exponents.names, Exponents.empty]) hc.plainNames
          hempty.symm
      have hparse : parseUnit u.symbol = .ok .dimensionless := by
        rw [hu.symbol, hempty]
        exact Registry.parse_empty _
      rw [hparse]
      exact Attains.ok ⟨MeasureUnit.represented_dimensionless, hcomponents, fun _ => rfl⟩
    · rw [hu.symbol] at hlookup ⊢
      rw [parseUnit_composeSymbol hc hempty, hlookup]
      have habove : standardUnits.Knows (table entries) u.components.above :=
        knows_terms hc hclear fun p hp => List.mem_map_of_mem (Exponents.mem_above.1 hp).2
      have hbelow : standardUnits.Knows (table entries) u.components.below :=
        knows_terms hc hclear fun p hp => List.mem_map_of_mem (Exponents.mem_below.1 hp).2
      refine ((Registry.attains_readQuotient Catalogue.nonzero_entries hc.plainNames.above
        hc.plainNames.below habove hbelow (u.components.nodup_terms _) (u.components.nodup_terms _)
        u.components.disjoint_terms).mono fun h => ?_).imp fun v hv => ?_
      · exact ⟨h.1, h.2, fits_terms hu⟩
      · exact isMadeLike_of_isProduct hu hv

end

/-! ## Reading back -/

/-- The symbol is that of no other unit, and on its scale: of the scales that do not start at zero
there is a variant that does, with the same symbol. -/
structure MeasureUnit.HasClearSymbol (u : MeasureUnit) : Prop where
  components : IsClearSymbol u.components
  offset : u.symbol ∈ ["°C", "°F"] → u.hasOffset

/-- The unit `v` measures what `u` does. Rounded factors may differ, but not those of units with a
name. -/
structure MeasureUnit.ReadsBackAs (u v : MeasureUnit) : Prop where
  symbol : v.symbol = u.symbol
  components : v.components = u.components
  dimension : v.dimension = u.dimension
  adHoc : v.adHoc = u.adHoc
  offset : v.offset = u.offset
  factor : u.factor.isExact → v.factor.isExact → v.factor = u.factor
  exact : (∀ e ∈ u.components.entries, (table entries).IsExactPower e) → v.factor.isExact
  named : ∀ name, standardUnits.lookup? name = some u → v.factor = u.factor

section

variable {u v : MeasureUnit} {text : String}

/-- What the symbol is read as starts where the unit does. -/
theorem offset_eq_of_parseUnit (hu : standardUnits.Reachable u)
    (hrepresented : u.Represented (table entries)) (hclear : u.HasClearSymbol)
    (hsymbol : v.symbol = u.symbol) (hv : parseUnit u.symbol = .ok v) : v.offset = u.offset := by
  by_cases hshifted : u.symbol ∈ ["°C", "°F"]
  · -- A shifted unit is one of the catalogue, which its symbol leads to.
    have hoffset := hclear.offset hshifted
    rcases MeasureUnit.hasOwnOffset_of_reachable hu with hzero | ⟨p, hp, hp', hoffset⟩
    · rw [MeasureUnit.hasOffset, hzero] at hoffset
      cases hoffset
    · have hlookup := Catalogue.lookup?_of_mem hp
      rw [hp'] at hlookup
      rw [parseUnit_of_lookup? hrepresented hlookup] at hv
      rw [← Except.ok.inj hv, hoffset]
  · rw [MeasureUnit.offset_of_reachable hu hshifted]
    exact MeasureUnit.offset_of_reachable (Registry.reachable_of_parse hv) (hsymbol ▸ hshifted)

/-- **A symbol reads back as its unit.** Where the symbol of a unit that was read from a text is
clear, it is read as that unit again, unless its exponents are too large for the reader. -/
theorem symbol_read_back (h : parseUnit text = .ok u) (hclear : u.HasClearSymbol) :
    (∃ v, parseUnit u.symbol = .ok v ∧ u.ReadsBackAs v) ∨
      ∃ d, parseUnit u.symbol = .error d ∧ d.code = "INVALID_UNIT_EXPONENT" ∧ ¬ u.IsLegible := by
  have hreachable : standardUnits.Reachable u := Registry.reachable_of_parse h
  have hu : u.Represented (table entries) :=
    Catalogue.describes_standardUnits.sound.represented_of_reachable Catalogue.nonzero_entries
      hreachable
  have hattains := attains_parseUnit hu hclear.components
  cases hv : parseUnit u.symbol with
  | error d => exact .inr ⟨d, rfl, hattains.error d hv⟩
  | ok v =>
    have hlike := hattains.value v hv
    have hsymbol := hu.symbol_eq hlike.represented hlike.components
    refine .inl ⟨v, rfl, ?_⟩
    exact
      { symbol := hsymbol
        components := hlike.components
        dimension := hu.dimension_eq hlike.represented hlike.components
        adHoc := hlike.represented.adHoc.trans hu.adHoc.symm
        offset := offset_eq_of_parseUnit hreachable hu hclear hsymbol hv
        factor := hu.factor_eq hlike.represented hlike.components
        exact := hlike.exact
        named := fun name hname => by
          obtain ⟨w, hw, hfactor⟩ := Catalogue.exists_lookup?_symbol hname hclear.components
          rw [parseUnit_of_lookup? hu hw] at hv
          rw [← Except.ok.inj hv, hfactor] }

end

theorem parseUnit_of_mem {p : MeasureUnit × Scaling} (hp : p ∈ units entries) :
    parseUnit p.1.symbol = .ok p.1 := by
  have hlookup := Catalogue.lookup?_of_mem hp
  exact parseUnit_of_lookup? (Catalogue.represented_of_lookup? hlookup) hlookup

/-- The degree Celsius is read back with its offset. -/
theorem symbol_read_back_celsius :
    ∃ u, parseUnit "°C" = .ok u ∧ u.HasClearSymbol ∧
      ((∃ v, parseUnit u.symbol = .ok v ∧ u.ReadsBackAs v) ∨
        ∃ d, parseUnit u.symbol = .error d ∧ d.code = "INVALID_UNIT_EXPONENT" ∧
          ¬ u.IsLegible) := by
  have hline : ∃ p ∈ units entries, p.1.symbol = "°C" ∧ p.1.components = .single "°C" ∧
      p.1.hasOffset := by decide +kernel
  obtain ⟨p, hp, hsymbol, hcomponents, hoffset⟩ := hline
  have hparse : parseUnit "°C" = .ok p.1 := by
    rw [← hsymbol]
    exact parseUnit_of_mem hp
  have hclear : p.1.HasClearSymbol := by
    refine ⟨?_, fun _ => hoffset⟩
    rw [hcomponents]
    exact ⟨by decide, by decide⟩
  exact ⟨p.1, hparse, hclear, symbol_read_back hparse hclear⟩

/-- Symbols that are read as something else: a plural or an alias of another unit, a scale with its
offset, an exponent that is too large below the slash, a power that is rounded as a whole. -/
theorem symbol_not_read_back :
    (∃ u v, parseUnit "yottasecond" = .ok u ∧ parseUnit u.symbol = .ok v ∧ v.factor ≠ u.factor) ∧
    (∃ u v, parseUnit "centicoulomb" = .ok u ∧ parseUnit u.symbol = .ok v ∧
      v.dimension ≠ u.dimension) ∧
    (∃ u v, parseUnit "km / hs" = .ok u ∧ parseUnit u.symbol = .ok v ∧ v.factor ≠ u.factor) ∧
    (∃ u v, parseUnit "°C*m/m" = .ok u ∧ parseUnit u.symbol = .ok v ∧ v.offset ≠ u.offset) ∧
    (∃ u, parseUnit "m^-2147483648" = .ok u ∧ ∀ v, parseUnit u.symbol ≠ .ok v) ∧
    (∃ u v, parseUnit "ft^300*ft^300" = .ok u ∧ parseUnit u.symbol = .ok v ∧
      v.factor ≠ u.factor) := by
  have hread (text : String) (differ : MeasureUnit → MeasureUnit → Prop)
      [∀ u v, Decidable (differ u v)]
      (h : (parseUnit text).toOption.any fun u =>
        (parseUnit u.symbol).toOption.any fun v => differ u v) :
      ∃ u v, parseUnit text = .ok u ∧ parseUnit u.symbol = .ok v ∧ differ u v := by
    obtain ⟨u, hu, h⟩ := exists_eq_ok h
    obtain ⟨v, hv, h⟩ := exists_eq_ok h
    exact ⟨u, v, hu, hv, of_decide_eq_true h⟩
  have hfail (text : String)
      (h : (parseUnit text).toOption.any fun u => (parseUnit u.symbol).toOption.isNone) :
      ∃ u, parseUnit text = .ok u ∧ ∀ v, parseUnit u.symbol ≠ .ok v := by
    obtain ⟨u, hu, h⟩ := exists_eq_ok h
    refine ⟨u, hu, fun v hv => ?_⟩
    rw [hv] at h
    cases h
  -- One evaluation for all texts, since each would build the registry again.
  have hall :
      ((parseUnit "yottasecond").toOption.any fun u =>
        (parseUnit u.symbol).toOption.any fun v => v.factor ≠ u.factor) ∧
      ((parseUnit "centicoulomb").toOption.any fun u =>
        (parseUnit u.symbol).toOption.any fun v => v.dimension ≠ u.dimension) ∧
      ((parseUnit "km / hs").toOption.any fun u =>
        (parseUnit u.symbol).toOption.any fun v => v.factor ≠ u.factor) ∧
      ((parseUnit "°C*m/m").toOption.any fun u =>
        (parseUnit u.symbol).toOption.any fun v => v.offset ≠ u.offset) ∧
      ((parseUnit "m^-2147483648").toOption.any fun u => (parseUnit u.symbol).toOption.isNone) ∧
      ((parseUnit "ft^300*ft^300").toOption.any fun u =>
        (parseUnit u.symbol).toOption.any fun v => v.factor ≠ u.factor) := by decide +kernel
  obtain ⟨hyear, hcubic, hspeed, hcelsius, hexponent, hrounded⟩ := hall
  exact ⟨hread _ _ hyear, hread _ _ hcubic, hread _ _ hspeed, hread _ _ hcelsius, hfail _ hexponent,
    hread _ _ hrounded⟩

end Reckoner
