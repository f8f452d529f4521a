import Reckoner.Proofs.Unit.Registered

/-!
# The registry of the catalogue

No line of the catalogue removes anything from the registry, which in the end has all lines (`Has`).
So the symbol of each base unit leads to that unit, but for two that clash with an alias
(`exists_of_known`), and a composed symbol leads to what it is the symbol of, if it leads to anything
(`components_eq_of_lookup?`).
-/

namespace Reckoner

theorem lookup_cons_eq {α : Type} (key other : String) (value : α) (entries : List (String × α)) :
    ((key, value) :: entries).lookup other =
      if other = key then some value else entries.lookup other := by
  rw [List.lookup_cons]
  by_cases hkey : other = key
  · rw [beq_iff_eq.2 hkey, if_pos hkey]
  · rw [beq_false_of_ne hkey, if_neg hkey]

theorem lookup_setKey {α : Type} (key other : String) (value : α) (entries : List (String × α)) :
    (setKey key value entries).lookup other =
      if other = key then some value else entries.lookup other := by
  induction entries with
  | nil => exact lookup_cons_eq ..
  | cons entry rest ih =>
    obtain ⟨k, v⟩ := entry
    rw [setKey]
    split
    · next hk =>
      subst hk
      rw [lookup_cons_eq, lookup_cons_eq]
      split <;> rfl
    · next hk =>
      rw [lookup_cons_eq, lookup_cons_eq, ih]
      by_cases hkey : other = k
      · rw [if_pos hkey, if_neg (fun heq => hk (hkey.symm.trans heq)), if_pos hkey]
      · rw [if_neg hkey, if_neg hkey]

theorem Registry.lookup?_empty (r : Registry) : r.lookup? "" = none := by
  simp [Registry.lookup?, Text.trimmed]

namespace Catalogue

/-! ## All lines -/

theorem mem_multiples {scaling : Scaling} {m : Multiple} (hm : m ∈ scaling.multiples) :
    m ∈ Multiple.decimals ∧ scaling ≠ .fixed ∨
      m ∈ Multiple.binaries ∧ scaling = .decimalAndBinary := by
  cases scaling with
  | fixed => cases hm
  | decimal => exact .inl ⟨hm, by decide⟩
  | decimalAndBinary => exact (List.mem_append.1 hm).imp (⟨·, by decide⟩) (⟨·, rfl⟩)

/-- The registry has the unit of a line, with its multiples. -/
structure Has (r : Registry) (p : MeasureUnit × Scaling) : Prop where
  key : (r.units.lookup p.1.symbol).isSome
  decimal : p.2 ≠ .fixed → p.1.symbol ∈ r.decimalScaled
  binary : p.2 = .decimalAndBinary → p.1.symbol ∈ r.binaryScaled

namespace Has

variable {r : Registry} {p : MeasureUnit × Scaling}

theorem of_register (r : Registry) (p : MeasureUnit × Scaling) : Has (r.register p.1 p.2) p where
  key := by
    simp only [Registry.register, lookup_setKey, if_true, Option.isSome_some]
  decimal h := by
    simp only [Registry.register, if_neg h]
    exact .head _
  binary h := by
    simp only [Registry.register, if_pos h]
    exact .head _

/-- Registration removes nothing. -/
theorem register (h : Has r p) (u : MeasureUnit) (scaling : Scaling) :
    Has (r.register u scaling) p where
  key := by
    simp only [Registry.register, lookup_setKey]
    split
    · rfl
    · exact h.key
  decimal hp := by
    simp only [Registry.register]
    split
    · exact h.decimal hp
    · exact .tail _ (h.decimal hp)
  binary hp := by
    simp only [Registry.register]
    split
    · exact .tail _ (h.binary hp)
    · exact h.binary hp

theorem addAliases (h : Has r p) (symbol : String) (ns : List String) :
    Has (r.addAliases symbol ns) p := ⟨h.key, h.decimal, h.binary⟩

theorem addEntry (h : Has r p) (entry : CatalogueEntry) : Has (r.addEntry entry) p := by
  cases entry with
  | unit u scaling => exact h.register u scaling
  | aliases symbol ns => exact h.addAliases symbol ns
  | product name parts ns =>
    simp only [Registry.addEntry, Registry.registerProduct]
    split
    · exact h
    · exact (h.register _ _).addAliases _ _

end Has

/-- The registry has every line of the catalogue. -/
theorem has_of_mem {p : MeasureUnit × Scaling} (hp : p ∈ units entries) : Has standardUnits p := by
  obtain ⟨entry, hentry, hline⟩ := List.mem_filterMap.1 hp
  obtain rfl : entry = .unit p.1 p.2 := by
    cases entry <;> cases hline
    rfl
  obtain ⟨before, after, hentries⟩ := List.append_of_mem hentry
  rw [standardUnits, Registry.ofCatalogue, hentries, List.foldl_append, List.foldl_cons]
  exact List.foldlRecOn (motive := fun r => Has r p) after _ (Has.of_register _ p)
    fun r hr entry _ => hr.addEntry entry

/-! ## Base units -/

theorem get?_of_mem {p : MeasureUnit × Scaling} (hp : p ∈ units entries) :
    standardUnits.get? p.1.symbol = some p.1 := by
  obtain ⟨u, hu⟩ := Option.isSome_iff_exists.1 (has_of_mem hp).key
  have hmem := mem_of_lookup hu
  have hsymbol : u.symbol = p.1.symbol := describes_standardUnits.symbol _ hmem
  have hsign := not_hasSign_of_baseUnits (unit_mem_baseUnits hp)
  obtain ⟨scaling, hline⟩ := describes_standardUnits.line_of_not_hasSign hmem hsign
  have hu' : u = p.1 := congrArg Prod.fst (unambiguous_entries.line_inj hline hp hsymbol)
  rw [Registry.get?, hu, hu']
  rfl

/-- The symbol of a line leads to its unit, before anything else is tried. -/
theorem lookup?_of_mem {p : MeasureUnit × Scaling} (hp : p ∈ units entries) :
    standardUnits.lookup? p.1.symbol = some p.1 := by
  have hplain := plain_of_baseUnits (unit_mem_baseUnits hp)
  have hne : p.1.symbol.isEmpty = false :=
    Bool.eq_false_iff.2 fun h => hplain.1 (String.isEmpty_iff.1 h)
  simp only [Registry.lookup?, hplain.trimmed, hne, get?_of_mem hp]
  rfl

theorem isSome_orElse {α : Type} {x y : Option α} (h : x.isSome ∨ y.isSome) :
    (x <|> y).isSome := by
  cases x with
  | none => exact h.resolve_left Bool.false_ne_true
  | some a => rfl

theorem isSome_withMultiple? {spelling : Multiple → String} {scaled : List String}
    {base? : String → Option MeasureUnit} {multiples : List Multiple} {m : Multiple}
    {u : MeasureUnit} (hm : m ∈ multiples) (hu : base? u.symbol = some u)
    (hscaled : u.symbol ∈ scaled) :
    (Registry.withMultiple? (spelling m ++ u.symbol).toList spelling scaled base?
      multiples).isSome := by
  rw [Registry.withMultiple?, List.findSome?_isSome_iff]
  refine ⟨m, hm, ?_⟩
  have hrest : Text.dropHead? (spelling m) (spelling m ++ u.symbol).toList =
      some u.symbol.toList := by
    rw [String.toList_append]
    exact dropHead?_append _ _
  simp only [hrest, Option.bind_some, String.ofList_toList, hu, List.contains_iff_mem.2 hscaled]
  rfl

/-- The symbol of a multiple leads to some unit. -/
theorem isSome_lookup?_multiple {p : MeasureUnit × Scaling} {m : Multiple}
    (hp : p ∈ units entries) (hm : m ∈ p.2.multiples) :
    (standardUnits.lookup? (p.1.multiple m).symbol).isSome := by
  have hplain := plain_of_baseUnits (multiple_mem_baseUnits hp hm)
  have hne : (p.1.multiple m).symbol.isEmpty = false :=
    Bool.eq_false_iff.2 fun h => hplain.1 (String.isEmpty_iff.1 h)
  have hshort : (standardUnits.byShortMultiple? (p.1.multiple m).symbol).isSome := by
    apply isSome_orElse
    rcases mem_multiples hm with ⟨hm, hscaling⟩ | ⟨hm, hscaling⟩
    · exact .inr (isSome_withMultiple? hm (get?_of_mem hp) ((has_of_mem hp).decimal hscaling))
    · exact .inl (isSome_withMultiple? hm (get?_of_mem hp) ((has_of_mem hp).binary hscaling))
  simp only [Registry.lookup?, hplain.trimmed, hne]
  exact isSome_orElse (.inr (isSome_orElse (.inr (isSome_orElse (.inr hshort)))))

theorem isClear_multiple {p : MeasureUnit × Scaling} {m : Multiple} (hp : p ∈ units entries)
    (hm : m ∈ p.2.multiples) (hclash : (p.1.multiple m).symbol.toList ∉ clashes) :
    IsClear (p.1.multiple m).symbol.toList := by
  have hsymbol : (p.1.multiple m).symbol.toList = m.symbol.toList ++ p.1.symbol.toList :=
    String.toList_append
  have hgroup : (m.symbol.toList, scaledSymbols) ∈ groups :=
    mem_groups.2 (.inr ⟨m, multiples_subset_all _ hm, rfl⟩)
  have hscaled : p.1.symbol.toList ∈ scaledSymbols := by
    refine List.mem_map.2 ⟨p, List.mem_filter.2 ⟨hp, ?_⟩, rfl⟩
    exact decide_eq_true (Unambiguous.ne_fixed_of_mem hm)
  rw [hsymbol] at hclash ⊢
  exact isClear_of_mem hgroup hscaled hclash

/-- **The symbol of a base unit leads to that unit**, except for the symbols that clash. -/
theorem exists_of_known {name : String} (hname : (table entries name).isSome)
    (hclash : name.toList ∉ clashes) :
    ∃ w ∈ baseUnits entries, standardUnits.lookup? name = some w ∧ w.symbol = name := by
  obtain ⟨⟨d, f⟩, htable⟩ := Option.isSome_iff_exists.1 hname
  obtain ⟨u, hu, rfl, -, -⟩ := exists_of_table htable
  obtain ⟨p, hp, rfl | ⟨m, hm, rfl⟩⟩ := mem_baseUnits.1 hu
  · exact ⟨p.1, hu, lookup?_of_mem hp, rfl⟩
  · obtain ⟨w, hw⟩ := Option.isSome_iff_exists.1 (isSome_lookup?_multiple hp hm)
    have hspelled := Registry.spelled_of_lookup? hw
    rw [(plain_of_baseUnits hu).trimmed] at hspelled
    have hsymbol := describes_standardUnits.symbol_eq (isClear_multiple hp hm hclash) hspelled
    refine ⟨w, ?_, hw, hsymbol⟩
    apply describes_standardUnits.mem_baseUnits_of_spelled hspelled
    rw [hsymbol]
    exact not_hasSign_of_baseUnits hu

/-! ## Composed symbols -/

section

variable {c : Exponents} {w : MeasureUnit}

theorem Known.trimmed (hc : Known c) : Text.trimmed (composeSymbol c) = composeSymbol c := by
  apply trimmed_eq_self
  rw [toList_composeSymbol]
  exact forall_mem_symbolChars isSeparator_isBlank rfl rfl hc.plainNames.above hc.plainNames.below

/-- The symbol leads to no other unit: none of its names clashes, and it is not a plural. -/
structure IsClearSymbol (c : Exponents) : Prop where
  names : ∀ n ∈ c.names, n ∉ ["Ys", "cC"]
  plural : composeSymbol c ≠ "km/hs"

theorem IsClearSymbol.not_mem_clashes (h : IsClearSymbol c) {n : String} (hn : n ∈ c.names) :
    n.toList ∉ clashes := by
  have hclashes : clashes = ["Ys", "cC"].map String.toList := by decide
  rw [hclashes, List.mem_map]
  rintro ⟨n', hn', heq⟩
  rw [String.toList_inj.1 heq] at hn'
  exact h.names n hn hn'

/-- **What a composed symbol leads to has that symbol.** -/
theorem symbol_eq_of_lookup? (hc : Known c) (hreduced : c.Reduced) (hclear : IsClearSymbol c)
    (h : standardUnits.lookup? (composeSymbol c) = some w) : w.symbol = composeSymbol c := by
  have hspelled := Registry.spelled_of_lookup? h
  rw [hc.trimmed] at hspelled
  by_cases hsign : HasSign (composeSymbol c).toList
  · exact describes_standardUnits.symbol_eq_of_composed hc hsign hclear.plural hspelled
  · by_cases hempty : composeSymbol c = ""
    · rw [hempty, Registry.lookup?_empty] at h
      cases h
    · have hatomic := isAtomic_of_not_hasSign hempty hsign
      have hname : composeSymbol c ∈ c.names := by
        rw [Exponents.names, eq_single_of_composeSymbol hreduced hatomic, composeSymbol_single]
        exact .head _
      obtain ⟨v, -, hv, hsymbol⟩ := exists_of_known (hc _ hname) (hclear.not_mem_clashes hname)
      rw [h] at hv
      rw [Option.some.inj hv, hsymbol]

/-- What a composed symbol leads to is made of the same components. -/
theorem components_eq_of_lookup? (hc : Known c) (hreduced : c.Reduced) (hclear : IsClearSymbol c)
    (h : standardUnits.lookup? (composeSymbol c) = some w) : w.components = c := by
  have hw := describes_standardUnits.sound.represented_of_offers (Registry.offers_of_lookup? h)
  apply composeSymbol_inj hw.reduced hreduced (Known.plainNames hw.known) hc.plainNames
  rw [← hw.symbol]
  exact symbol_eq_of_lookup? hc hreduced hclear h

end

/-! ## Scales -/

section

variable {u w : MeasureUnit} {name : String}

theorem represented_of_lookup? (h : standardUnits.lookup? name = some u) :
    u.Represented (table entries) :=
  describes_standardUnits.sound.represented_of_offers (Registry.offers_of_lookup? h)

/-- The scale of what is found is exact if that of its base unit is. -/
theorem isExact_of_lookup? (h : standardUnits.lookup? name = some u)
    (hexact : ∀ n ∈ u.components.names, ((table entries).factor n).isExact) :
    u.factor.isExact := by
  have hspelled := Registry.spelled_of_lookup? h
  by_cases hsign : HasSign u.symbol.toList
  · exact (describes_standardUnits.composed_of_spelled hspelled hsign).2
  · have hbase := describes_standardUnits.mem_baseUnits_of_spelled hspelled hsign
    have hatomic := (plain_of_baseUnits hbase).isAtomic
    have hname : u.symbol ∈ u.components.names := by
      rw [Exponents.names, (represented_of_lookup? h).components_eq_single hatomic]
      exact .head _
    have hfactor := hexact _ hname
    rw [UnitTable.factor, table_of_mem unambiguous_entries hbase] at hfactor
    exact hfactor

/-- The symbol of a registered product leads to some unit. -/
theorem isSome_lookup?_composed (hu : u.Represented (table entries))
    (hmem : (u.symbol, u) ∈ standardUnits.units) (hsign : HasSign u.symbol.toList) :
    (standardUnits.lookup? u.symbol).isSome := by
  have htrimmed : Text.trimmed u.symbol = u.symbol := by
    rw [hu.symbol]
    exact Known.trimmed hu.known
  have hne : u.symbol.isEmpty = false := by
    rw [Bool.eq_false_iff]
    intro h
    rw [String.isEmpty_iff.1 h] at hsign
    exact absurd hsign (by decide)
  have hget : (standardUnits.get? u.symbol).isSome := by
    apply isSome_orElse
    left
    cases hlookup : standardUnits.units.lookup u.symbol with
    | some w => rfl
    | none => simpa using List.lookup_eq_none_iff.1 hlookup _ hmem
  simp only [Registry.lookup?, htrimmed, hne]
  exact isSome_orElse (.inl hget)

/-- **What has a name has its symbol as a name**, with the same scale. -/
theorem exists_lookup?_symbol (h : standardUnits.lookup? name = some u)
    (hclear : IsClearSymbol u.components) :
    ∃ w, standardUnits.lookup? u.symbol = some w ∧ w.factor = u.factor := by
  have hu := represented_of_lookup? h
  have hspelled := Registry.spelled_of_lookup? h
  by_cases hsign : HasSign u.symbol.toList
  · obtain ⟨hmem, hexact⟩ := describes_standardUnits.composed_of_spelled hspelled hsign
    obtain ⟨w, hw⟩ := Option.isSome_iff_exists.1 (isSome_lookup?_composed hu hmem hsign)
    refine ⟨w, hw, ?_⟩
    have hcomponents : w.components = u.components := by
      apply components_eq_of_lookup? hu.known hu.reduced hclear
      rwa [← hu.symbol]
    have hexact' : w.factor.isExact := by
      obtain ⟨r, hr⟩ := Number.isExact_iff.1 hexact
      refine isExact_of_lookup? hw fun n hn => ?_
      rw [hcomponents] at hn
      exact (hu.factor r hr).1 n hn
    exact hu.factor_eq (represented_of_lookup? hw) hcomponents hexact hexact'
  · have hbase := describes_standardUnits.mem_baseUnits_of_spelled hspelled hsign
    have hname : u.symbol ∈ u.components.names := by
      rw [Exponents.names, hu.components_eq_single (plain_of_baseUnits hbase).isAtomic]
      exact .head _
    obtain ⟨w, hwbase, hw, hsymbol⟩ :=
      exists_of_known (hu.known _ hname) (hclear.not_mem_clashes hname)
    exact ⟨w, hw, (baseUnits_agree unambiguous_entries hwbase hbase hsymbol).2⟩

end

end Catalogue

/-! ## Units of the catalogue -/

/-- A unit with a line of its own in the catalogue. -/
structure CataloguedUnit where
  unit : MeasureUnit
  scaling : Scaling
  listed : (unit, scaling) ∈ Catalogue.units Catalogue.entries

namespace CataloguedUnit

/-- The symbol of such a unit names it. -/
theorem lookup?_symbol (c : CataloguedUnit) :
    standardUnits.lookup? c.unit.symbol = some c.unit :=
  Catalogue.lookup?_of_mem (p := (c.unit, c.scaling)) c.listed

def metre : CataloguedUnit where
  unit := .new "m" "meter" .length (.ofInt 1) "length"
  scaling := .decimal
  listed := by decide +kernel

def second : CataloguedUnit where
  unit := .new "s" "second" .time (.ofInt 1) "time"
  scaling := .decimal
  listed := by decide +kernel

def hour : CataloguedUnit where
  unit := .new "h" "hour" .time (.ofInt 3600) "time"
  scaling := .fixed
  listed := by decide +kernel

def kelvin : CataloguedUnit where
  unit := .new "K" "kelvin" .temperature (.ofInt 1) "temperature"
  scaling := .decimal
  listed := by decide +kernel

end CataloguedUnit

end Reckoner
