import Reckoner.Proofs.Unit.Lookup

/-!
# Registering the catalogue

Every line of the catalogue leaves the registry one that knows nothing but the catalogue
(`Describes.addEntry`). For a line with a product this rests on the symbols of its factors, which are
clear: the product that the line registers is the one it is written as (`Describes.product_of_mem`).
-/

namespace Reckoner

theorem trimmed_eq_self {name : String} (h : ∀ c ∈ name.toList, Text.isBlank c = false) :
    Text.trimmed name = name := by
  rw [Text.trimmed, Text.trim_eq_self h, String.ofList_toList]

theorem IsPlain.trimmed {name : String} (h : IsPlain name) : Text.trimmed name = name :=
  trimmed_eq_self fun c hc => isSeparator_isBlank.plain c (h.2 c hc)

namespace Registry

variable {r : Registry} {u : MeasureUnit}

/-! ## Products of what is found -/

/-- The components of a product are its factors, if each factor is found as a unit of its own. -/
theorem monomial_product? {M : Type} [DivisionCommMonoid M] {f : String → M} (hf : AddsUp f)
    {parts : List (String × Int)}
    (hbase : ∀ p ∈ parts, ∀ b, r.lookup? p.1 = some b → b.components = .single p.1)
    (h : r.product? parts = some u) : monomial f u.components.entries = monomial f parts := by
  -- The loop multiplies the unit that it starts from by the factors.
  suffices hrun : monomial f u.components.entries =
      monomial f MeasureUnit.dimensionless.components.entries * monomial f parts by
    have hstart : monomial f MeasureUnit.dimensionless.components.entries = 1 := monomial_nil
    rw [hrun, hstart, one_mul]
  unfold product? at h
  generalize MeasureUnit.dimensionless = start at h ⊢
  induction parts generalizing start with
  | nil =>
    cases h
    rw [monomial_nil, mul_one]
  | cons part rest ih =>
    obtain ⟨hpart, hrest⟩ := List.forall_mem_cons.1 hbase
    rw [List.foldlM_cons] at h
    obtain ⟨v, hv, h⟩ := Option.bind_eq_some_iff.1 h
    obtain ⟨b, hb, hv⟩ := Option.bind_eq_some_iff.1 hv
    split at hv
    · cases hv
    · next factor hfactor =>
      have hsingle : monomial f b.components.entries = f part.1 := by
        rw [hpart b hb, Exponents.single, monomial_cons, monomial_nil, zpow_one, mul_one]
      rw [ih hrest v h, MeasureUnit.monomial_multiply hf (toOption_eq_some_iff.1 hv),
        MeasureUnit.monomial_power hfactor, hsingle, monomial_cons, mul_assoc]

/-- The scale of a product is exact if those of its factors and their powers are. -/
theorem isExact_product? {parts : List (String × Int)}
    (hbase : ∀ p ∈ parts, ∀ b, r.lookup? p.1 = some b →
      b.factor.isExact ∧ ∀ x, b.factor.powInt p.2 default = .ok x → x.isExact)
    (h : r.product? parts = some u) : u.factor.isExact := by
  unfold product? at h
  have hstart : MeasureUnit.dimensionless.factor.isExact := rfl
  generalize MeasureUnit.dimensionless = start at h hstart
  induction parts generalizing start with
  | nil =>
    cases h
    exact hstart
  | cons part rest ih =>
    obtain ⟨hpart, hrest⟩ := List.forall_mem_cons.1 hbase
    rw [List.foldlM_cons] at h
    obtain ⟨v, hv, h⟩ := Option.bind_eq_some_iff.1 h
    refine ih hrest v h ?_
    obtain ⟨b, hb, hv⟩ := Option.bind_eq_some_iff.1 hv
    split at hv
    · cases hv
    · next factor hfactor =>
      obtain ⟨hexact, hpower⟩ := hpart b hb
      exact MeasureUnit.isExact_multiply hstart
        (MeasureUnit.isExact_power hexact hpower hfactor) (toOption_eq_some_iff.1 hv)

end Registry

namespace Catalogue

theorem mem_names {entry : CatalogueEntry} {a : List Char} (hentry : entry ∈ entries)
    (ha : a ∈ entry.names) : a ∈ names := List.mem_flatMap.2 ⟨entry, hentry, ha⟩

/-- Only products have aliases with a sign. -/
theorem factors_of_hasSign {entry : CatalogueEntry} {a : List Char} (hentry : entry ∈ entries)
    (ha : a ∈ entry.names) (hsign : HasSign a) : entry.factors?.isSome :=
  ((names_apart entry hentry a ha).2 hsign).1

theorem nonzero_entries : (table entries).Nonzero := nonzero_table fun _ hp => isBase_of_mem hp

namespace Describes

variable {r : Registry} {u v : MeasureUnit} {name symbol : String}

/-- A unit with a plain symbol is a base unit. -/
theorem mem_baseUnits_of_spelled (hr : Describes r) (h : r.Spelled name u)
    (hsign : ¬ HasSign u.symbol.toList) : u ∈ baseUnits entries := by
  have hline : ∀ {key v}, (key, v) ∈ r.units → ¬ HasSign v.symbol.toList →
      ∃ scaling, (v, scaling) ∈ units entries := by
    intro key v hv hsign
    rw [hr.symbol _ hv] at hsign
    exact hr.line_of_not_hasSign hv hsign
  have hmultiple : ∀ {key v m}, (key, v) ∈ r.units → r.Takes v m →
      v.multiple m ∈ baseUnits entries := by
    intro key v m hv hm
    obtain ⟨scaling, hv⟩ := hline hv (hr.not_hasSign_of_takes hm)
    obtain ⟨p, hp, hsymbol, hm⟩ := hr.line_of_takes hm
    obtain rfl := unambiguous_entries.line_inj hp hv hsymbol
    exact multiple_mem_baseUnits hv hm
  cases h with
  | called h =>
    obtain ⟨key, hu⟩ := h.mem
    obtain ⟨scaling, hu⟩ := hline hu hsign
    exact unit_mem_baseUnits hu
  | long hm _ h =>
    obtain ⟨key, hv⟩ := h.mem
    exact hmultiple hv hm
  | short hm _ h =>
    obtain ⟨key, hv⟩ := h.mem
    exact hmultiple hv hm

/-- A unit whose symbol has a sign is registered under that symbol, as a product with an exact
scale. -/
theorem composed_of_spelled (hr : Describes r) (h : r.Spelled name u)
    (hsign : HasSign u.symbol.toList) : (u.symbol, u) ∈ r.units ∧ u.factor.isExact := by
  have hmultiple : ∀ {v m}, r.Takes v m → ¬ HasSign (v.multiple m).symbol.toList := by
    intro v m hm hsign
    have hsymbol : (v.multiple m).symbol.toList = m.symbol.toList ++ v.symbol.toList :=
      String.toList_append
    rw [hsymbol, hasSign_append] at hsign
    exact hsign.elim (not_hasSign_multiple (hr.mem_all_of_takes hm)).2 (hr.not_hasSign_of_takes hm)
  cases h with
  | called h =>
    obtain ⟨key, hu⟩ := h.mem
    obtain rfl : u.symbol = key := hr.symbol _ hu
    refine ⟨hu, ?_⟩
    rcases hr.unit _ hu with ⟨scaling, hline⟩ | ⟨-, hexact⟩
    · exact absurd hsign (not_hasSign_of_baseUnits (unit_mem_baseUnits hline))
    · exact hexact
  | long hm _ _ => exact absurd hsign (hmultiple hm)
  | short hm _ _ => exact absurd hsign (hmultiple hm)

/-! ## Registration -/

theorem empty : Describes {} where
  symbol := by simp
  unit := by simp
  known := by simp
  signed := by simp
  decimal := by simp
  binary := by simp
  sound := .empty _

/-- A unit is registered with its name in lower case. -/
theorem register (hr : Describes r) {scaling : Scaling}
    (hunit : (∃ scaling, (u, scaling) ∈ units entries) ∨ u.symbol ∈ composed ∧ u.factor.isExact)
    (hscaling : scaling ≠ .fixed → (u, scaling) ∈ units entries)
    (hname : Text.lower u.name.toList ≠ u.symbol.toList → Text.lower u.name.toList ∈ names ∧
      (HasSign (Text.lower u.name.toList) → u.symbol ∈ composed))
    (hsound : (r.register u scaling).IsSound (table entries)) :
    Describes (r.register u scaling) := by
  have halias : ∀ p ∈ (r.register u scaling).aliases, p ∈ r.aliases ∨
      p.2 = u.symbol ∧ p.1.toList = Text.lower u.name.toList ∧
        Text.lower u.name.toList ≠ u.symbol.toList := by
    intro p hp
    simp only [Registry.register] at hp
    split at hp
    · next hnamed =>
      simp only [Bool.and_eq_true, bne_iff_ne] at hnamed
      rcases mem_setKey hp with rfl | hp
      · refine .inr ⟨rfl, String.toList_ofList, fun heq => hnamed.1.2 ?_⟩
        rw [Text.lowercase, heq, String.ofList_toList]
      · exact .inl hp
    · exact .inl hp
  constructor
  case symbol =>
    intro p hp
    rcases mem_setKey hp with rfl | hp
    · rfl
    · exact hr.symbol p hp
  case unit =>
    intro p hp
    rcases mem_setKey hp with rfl | hp
    · exact hunit
    · exact hr.unit p hp
  case known =>
    intro p hp
    rcases halias p hp with hp | ⟨-, hform, hne⟩
    · exact hr.known p hp
    · rw [hform]
      exact (hname hne).1
  case signed =>
    intro p hp hsign
    rcases halias p hp with hp | ⟨hsymbol, hform, hne⟩
    · exact hr.signed p hp hsign
    · rw [hsymbol]
      rw [hform] at hsign
      exact (hname hne).2 hsign
  case decimal =>
    intro s hs
    simp only [Registry.register] at hs
    split at hs
    · exact hr.decimal s hs
    · next hne =>
      rcases List.mem_cons.1 hs with rfl | hs
      · refine ⟨_, hscaling hne, rfl, ?_⟩
        cases scaling with
        | fixed => exact absurd rfl hne
        | decimal => exact List.Subset.refl _
        | decimalAndBinary => exact List.subset_append_left _ _
      · exact hr.decimal s hs
  case binary =>
    intro s hs
    simp only [Registry.register] at hs
    split at hs
    · next hboth =>
      subst hboth
      rcases List.mem_cons.1 hs with rfl | hs
      · exact ⟨_, hscaling (by decide), rfl, List.subset_append_right _ _⟩
      · exact hr.binary s hs
    · exact hr.binary s hs
  case sound => exact hsound

theorem mem_addAliases {ns : List String} {p : String × String}
    (hp : p ∈ (r.addAliases symbol ns).aliases) : p ∈ r.aliases ∨ p.1 ∈ ns ∧ p.2 = symbol := by
  simp only [Registry.addAliases] at hp
  generalize r.aliases = aliases at hp ⊢
  induction ns generalizing aliases with
  | nil => exact .inl hp
  | cons n ns ih =>
    rcases ih _ hp with hp | ⟨hp, hsymbol⟩
    · rcases mem_setKey hp with rfl | hp
      · exact .inr ⟨.head _, rfl⟩
      · exact .inl hp
    · exact .inr ⟨.tail _ hp, hsymbol⟩

theorem addAliases (hr : Describes r) {ns : List String} (hnames : ∀ n ∈ ns, n.toList ∈ names)
    (hcomposed : ∀ n ∈ ns, HasSign n.toList → symbol ∈ composed) :
    Describes (r.addAliases symbol ns) where
  symbol := hr.symbol
  unit := hr.unit
  known p hp := by
    rcases mem_addAliases hp with hp | ⟨hp, -⟩
    · exact hr.known p hp
    · exact hnames _ hp
  signed p hp hsign := by
    rcases mem_addAliases hp with hp | ⟨hn, hsymbol⟩
    · exact hr.signed p hp hsign
    · rw [hsymbol]
      exact hcomposed _ hn hsign
  decimal := hr.decimal
  binary := hr.binary
  sound := hr.sound.addAliases symbol ns

/-! ## Products -/

/-- What is found under the symbol of a factor is that base unit. -/
theorem factor_of_lookup? (hr : Describes r) {parts : List (String × Int)}
    (hparts : parts ∈ products) {p : String × Int} (hp : p ∈ parts)
    (h : r.lookup? p.1 = some u) :
    u.symbol = p.1 ∧ u.components = .single p.1 ∧ u ∈ baseUnits entries := by
  obtain ⟨g, hg, stem, hstem, hname, hclash⟩ := (isFactored_of_mem parts hparts).clear p hp
  have hclear : IsClear p.1.toList := by
    rw [hname]
    exact isClear_of_mem hg hstem hclash
  have hplain : IsPlain p.1 := ⟨fun h => hclear.ne_nil (by rw [h]; rfl), hclear.plain⟩
  have hspelled := Registry.spelled_of_lookup? h
  rw [hplain.trimmed] at hspelled
  have hsymbol := hr.symbol_eq hclear hspelled
  have hatomic : IsAtomic u.symbol := hsymbol ▸ hplain.isAtomic
  have hu := hr.sound.represented_of_offers (Registry.offers_of_lookup? h)
  refine ⟨hsymbol, ?_, ?_⟩
  · rw [hu.components_eq_single hatomic, hsymbol]
  · apply hr.mem_baseUnits_of_spelled hspelled
    rw [hsymbol]
    exact not_hasSign_of_plain hplain.2

/-- A catalogued product is the one it is written as, with an exact scale. -/
theorem product_of_mem (hr : Describes r) {parts : List (String × Int)} (hparts : parts ∈ products)
    (h : r.product? parts = some u) :
    u.Represented (table entries) ∧ u.symbol ∈ composed ∧ u.factor.isExact := by
  have hfactored := isFactored_of_mem parts hparts
  have hu := hr.sound.represented_of_reachable nonzero_entries (Registry.reachable_of_product? h)
  refine ⟨hu, ?_, ?_⟩
  · obtain ⟨c, hc, hperm, hreduced⟩ := hfactored.components
    have hcomponents : u.components = c := by
      apply hu.reduced.ext hreduced
      intro n
      apply Multiplicative.ofAdd.injective
      rw [Exponents.get_eq_monomial, Exponents.get_eq_monomial,
        Registry.monomial_product? (Exponents.addsUp_of_group _)
          (fun p hp b hb => (hr.factor_of_lookup? hparts hp hb).2.1) h]
      exact ((hperm.map _).prod_eq).symm
    rw [hu.symbol, hcomponents]
    exact List.mem_filterMap.2 ⟨parts, hparts, Option.map_eq_some_iff.2 ⟨c, hc, rfl⟩⟩
  · refine Registry.isExact_product? (fun p hp b hb => ?_) h
    obtain ⟨hsymbol, -, hbase⟩ := hr.factor_of_lookup? hparts hp hb
    obtain ⟨base, htable, hexact, hpower⟩ := hfactored.exact p hp
    rw [← hsymbol, table_of_mem unambiguous_entries hbase] at htable
    obtain rfl := Option.some.inj htable
    refine ⟨hexact, fun x hx => ?_⟩
    rw [hx] at hpower
    exact hpower

/-- A product is registered under its symbol, with its name in lower case and its aliases. -/
theorem registerProduct (hr : Describes r) {parts : List (String × Int)} {ns : List String}
    (hentry : .product name parts ns ∈ entries) : Describes (r.registerProduct name parts ns) := by
  have hparts : parts ∈ products := List.mem_filterMap.2 ⟨_, hentry, rfl⟩
  have hnames : ∀ a ∈ (CatalogueEntry.product name parts ns).names, a ∈ names :=
    fun a ha => mem_names hentry ha
  obtain ⟨hname, hothers⟩ := List.forall_mem_cons.1 hnames
  unfold Registry.registerProduct
  split
  · exact hr
  · next u hu =>
    obtain ⟨hrepresented, hsymbol, hexact⟩ := hr.product_of_mem hparts hu
    have hregistered : Describes (r.register { u with name := name }) :=
      hr.register (.inr ⟨hsymbol, hexact⟩) (absurd rfl) (fun _ => ⟨hname, fun _ => hsymbol⟩)
        (hr.sound.register (hrepresented.rename name) (absurd rfl))
    refine hregistered.addAliases (fun n hn => ?_) fun _ _ _ => hsymbol
    exact hothers _ (List.mem_map_of_mem hn)

/-- **Every line of the catalogue leaves a registry of the catalogue.** -/
theorem addEntry (hr : Describes r) {entry : CatalogueEntry} (hentry : entry ∈ entries) :
    Describes (r.addEntry entry) := by
  cases entry with
  | unit u scaling =>
    have hline : (u, scaling) ∈ units entries := List.mem_filterMap.2 ⟨_, hentry, rfl⟩
    have hsound := hr.sound.addEntry nonzero_entries
      (isSound_line unambiguous_entries (fun _ hp => isBase_of_mem hp) hline)
    refine hr.register (.inl ⟨_, hline⟩) (fun _ => hline) (fun hne => ?_) hsound
    have hname : Text.lower u.name.toList ∈ (CatalogueEntry.unit u scaling).names := by
      simp [CatalogueEntry.names, hne]
    refine ⟨mem_names hentry hname, fun hsign => ?_⟩
    have hfactors := factors_of_hasSign hentry hname hsign
    cases hfactors
  | aliases symbol ns =>
    refine hr.addAliases (fun n hn => ?_) (fun n hn hsign => ?_)
    · exact mem_names hentry (List.mem_map_of_mem hn)
    · have hfactors := factors_of_hasSign hentry (List.mem_map_of_mem hn) hsign
      cases hfactors
  | product name parts ns => exact hr.registerProduct hentry

end Describes

theorem describes_standardUnits : Describes standardUnits := by
  rw [standardUnits, Registry.ofCatalogue]
  exact List.foldlRecOn entries _ .empty fun r hr entry hentry => hr.addEntry hentry

end Catalogue

end Reckoner
