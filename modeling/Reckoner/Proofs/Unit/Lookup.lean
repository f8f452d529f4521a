import Reckoner.Proofs.Unit.Composed
import Reckoner.Proofs.Unit.Spelling

/-!
# What symbols lead to

While the registry of the catalogue is built, it knows the units of catalogue lines and some
products (`Catalogue.Describes`). In such a registry a clear symbol leads to the unit of that symbol
or to none (`Describes.symbol_eq`), and so does the symbol of a product, a quotient or a power,
except that `km/hs` is a plural (`Describes.symbol_eq_of_composed`).
-/

namespace Reckoner

namespace Catalogue

/-- All that a registry knows is from the catalogue. -/
structure Describes (r : Registry) : Prop where
  symbol : ∀ p ∈ r.units, p.2.symbol = p.1
  unit : ∀ p ∈ r.units, (∃ scaling, (p.2, scaling) ∈ units entries) ∨
    p.1 ∈ composed ∧ p.2.factor.isExact
  known : ∀ p ∈ r.aliases, p.1.toList ∈ names
  signed : ∀ p ∈ r.aliases, HasSign p.1.toList → p.2 ∈ composed
  decimal : ∀ s ∈ r.decimalScaled, ∃ p ∈ units entries, p.1.symbol = s ∧
    Multiple.decimals ⊆ p.2.multiples
  binary : ∀ s ∈ r.binaryScaled, ∃ p ∈ units entries, p.1.symbol = s ∧
    Multiple.binaries ⊆ p.2.multiples
  sound : r.IsSound (table entries)

namespace Describes

variable {r : Registry} {u v : MeasureUnit} {name : String} {m : Multiple}

/-- What takes multiples is a unit of a line that takes them. -/
theorem line_of_takes (hr : Describes r) (h : r.Takes u m) :
    ∃ p ∈ units entries, p.1.symbol = u.symbol ∧ m ∈ p.2.multiples := by
  rcases h with ⟨hm, hscaled⟩ | ⟨hm, hscaled⟩
  · obtain ⟨p, hp, hsymbol, hmultiples⟩ := hr.decimal _ hscaled
    exact ⟨p, hp, hsymbol, hmultiples hm⟩
  · obtain ⟨p, hp, hsymbol, hmultiples⟩ := hr.binary _ hscaled
    exact ⟨p, hp, hsymbol, hmultiples hm⟩

theorem mem_all_of_takes (hr : Describes r) (h : r.Takes u m) : m ∈ Multiple.all := by
  obtain ⟨p, -, -, hm⟩ := hr.line_of_takes h
  exact multiples_subset_all _ hm

/-- A unit is from a line of the catalogue unless its symbol is that of a product. -/
theorem line_of_not_hasSign (hr : Describes r) (hu : (name, u) ∈ r.units)
    (hname : ¬ HasSign name.toList) : ∃ scaling, (u, scaling) ∈ units entries := by
  rcases hr.unit _ hu with h | ⟨h, -⟩
  · exact h
  · exact absurd (hasSign_composed h) hname

/-! ## Clear symbols -/

theorem symbol_eq_of_called (hr : Describes r) (hx : IsClear name.toList) (h : r.Called name u) :
    u.symbol = name := by
  cases h with
  | named h =>
    cases h with
    | symbol hu => exact hr.symbol _ hu
    | byAlias halias hu => exact absurd (hr.known _ halias) hx.unaliased
  | lower hending hname halias hu =>
    have hform := hr.known _ halias
    rw [String.toList_ofList] at hform
    exact absurd hform (hx.lower _ hending _ hname)
  | @plural front hname hlength hu =>
    have hplain := hx.plain
    rw [hname, List.forall_mem_append] at hplain
    have hsign : ¬ HasSign (String.ofList front).toList := by
      rw [String.toList_ofList]
      exact not_hasSign_of_plain hplain.1
    obtain ⟨scaling, hline⟩ := hr.line_of_not_hasSign hu hsign
    refine absurd ?_ (hx.plural _ hname hlength _ hline)
    rw [hr.symbol _ hu, String.toList_ofList]

theorem multiples_tonne : ∀ p ∈ units entries, p.1.symbol = "t" → p.2.multiples.isEmpty := by
  decide +kernel

theorem isClear_tonne : IsClear ("t" : String).toList := by
  have hstem : ['t'] ∈ factorSymbols := by decide
  exact isClear_of_mem (g := ([], factorSymbols)) (.head _) hstem (by decide)

/-- **A clear symbol leads to no other unit.** -/
theorem symbol_eq (hr : Describes r) (hx : IsClear name.toList) (h : r.Spelled name u) :
    u.symbol = name := by
  cases h with
  | called h => exact hr.symbol_eq_of_called hx h
  | long hm hname h =>
    -- Only the tonne could be behind the long name of a multiple, but it takes none.
    obtain rfl := hx.long _ (hr.mem_all_of_takes hm) _ hname
    obtain ⟨p, hp, hsymbol, hmultiple⟩ := hr.line_of_takes hm
    have hnone := multiples_tonne p hp (hsymbol.trans (hr.symbol_eq_of_called isClear_tonne h))
    rw [List.isEmpty_iff] at hnone
    rw [hnone] at hmultiple
    cases hmultiple
  | @short m rest u hm hname h =>
    cases h with
    | symbol hu =>
      have hsymbol : u.symbol = String.ofList rest := hr.symbol _ hu
      show m.symbol ++ u.symbol = name
      apply String.toList_inj.1
      rw [hsymbol, String.toList_append, String.toList_ofList, hname]
    | byAlias halias hu =>
      have hrest := hr.known _ halias
      rw [String.toList_ofList] at hrest
      exact absurd hrest (hx.short _ (hr.mem_all_of_takes hm) rest hname)

/-! ## Symbols of products, quotients and powers -/

theorem hasSign_of_named (hr : Describes r) (hname : HasSign name.toList) (h : r.Named name u) :
    HasSign u.symbol.toList := by
  cases h with
  | symbol hu =>
    have hsymbol : u.symbol = name := hr.symbol _ hu
    rwa [hsymbol]
  | byAlias halias hu =>
    rw [hr.symbol _ hu]
    exact hasSign_composed (hr.signed _ halias hname)

/-- A name with a sign leads to a product, and so it does in the plural and in other letters. -/
theorem hasSign_of_called (hr : Describes r) (hname : HasSign name.toList) (h : r.Called name u) :
    HasSign u.symbol.toList := by
  cases h with
  | named h => exact hr.hasSign_of_named hname h
  | lower hending hlower halias hu =>
    have hform := hasSign_lower hname
    rw [hlower] at hform
    rw [hr.symbol _ hu]
    refine hasSign_composed (hr.signed _ halias ?_)
    rw [String.toList_ofList]
    exact hasSign_front hending hform
  | plural hfront _ hu =>
    have hending : "s" ∈ endings := by decide
    rw [hfront] at hname
    rw [hr.symbol _ hu, String.toList_ofList]
    exact hasSign_front hending hname

/-- What takes multiples has no sign. -/
theorem not_hasSign_of_takes (hr : Describes r) (h : r.Takes u m) : ¬ HasSign u.symbol.toList := by
  obtain ⟨p, hp, hsymbol, -⟩ := hr.line_of_takes h
  rw [← hsymbol]
  exact not_hasSign_of_baseUnits (unit_mem_baseUnits hp)

section

variable {c : Exponents}

theorem symbol_eq_of_called_composed (hr : Describes r) (hc : Known c)
    (hsign : HasSign (composeSymbol c).toList) (hplural : composeSymbol c ≠ "km/hs")
    (h : r.Called (composeSymbol c) u) : u.symbol = composeSymbol c := by
  cases h with
  | named h =>
    cases h with
    | symbol hu => exact hr.symbol _ hu
    | byAlias halias hu => exact absurd (hr.known _ halias) (hc.not_mem_names_of_eq hsign)
  | lower hending hname halias hu =>
    have hform := hr.known _ halias
    rw [String.toList_ofList] at hform
    exact absurd hform (hc.not_mem_names_of_lower hsign hending hname)
  | @plural front hname _ hu =>
    have hending : "s" ∈ endings := by decide
    have hfront : HasSign (String.ofList front).toList := by
      rw [String.toList_ofList]
      rw [hname] at hsign
      exact hasSign_front hending hsign
    rcases hr.unit _ hu with ⟨scaling, hline⟩ | ⟨hcomposed, -⟩
    · have hbase := not_hasSign_of_baseUnits (unit_mem_baseUnits hline)
      rw [hr.symbol _ hu] at hbase
      exact absurd hfront hbase
    · refine absurd ?_ (hc.ne_plural hplural hcomposed)
      apply String.toList_inj.1
      rw [hname, String.toList_append, String.toList_ofList]
      rfl

/-- **A composed symbol leads to no other unit**, except that `km/hs` is a plural. -/
theorem symbol_eq_of_composed (hr : Describes r) (hc : Known c)
    (hsign : HasSign (composeSymbol c).toList) (hplural : composeSymbol c ≠ "km/hs")
    (h : r.Spelled (composeSymbol c) u) : u.symbol = composeSymbol c := by
  -- Behind a multiple the sign is left, but what takes multiples has none.
  cases h with
  | called h => exact hr.symbol_eq_of_called_composed hc hsign hplural h
  | @long m rest u hm hname h =>
    have hrest : HasSign (String.ofList rest).toList := by
      have hlower := hasSign_lower hsign
      rw [hname] at hlower
      rw [String.toList_ofList]
      exact (hasSign_append.1 hlower).resolve_left
        (not_hasSign_multiple (hr.mem_all_of_takes hm)).1
    exact absurd (hr.hasSign_of_called hrest h) (hr.not_hasSign_of_takes hm)
  | @short m rest u hm hname h =>
    have hrest : HasSign (String.ofList rest).toList := by
      rw [hname] at hsign
      rw [String.toList_ofList]
      exact (hasSign_append.1 hsign).resolve_left
        (not_hasSign_multiple (hr.mem_all_of_takes hm)).2
    exact absurd (hr.hasSign_of_named hrest h) (hr.not_hasSign_of_takes hm)

end

end Describes

end Catalogue

end Reckoner
