import Reckoner.Proofs.Text.Split
import Reckoner.Unit.Registry

/-!
# The spellings of a unit

The ways in which a name can lead to a unit, one constructor for each: it is the symbol of the unit
or an alias of it (`Registry.Named`), or one of these in other letters or in the plural
(`Registry.Called`), or it has a multiple in front (`Registry.Spelled`). Whatever a lookup finds is
found in one of these ways (`Registry.spelled_of_lookup?`).
-/

namespace Reckoner

theorem orElse_eq_some {α : Type} {x y : Option α} {a : α} (h : (x <|> y) = some a) :
    x = some a ∨ y = some a := by
  cases x with
  | none => exact .inr h
  | some b => exact .inl h

theorem mem_of_lookup {α : Type} {key : String} {value : α} {entries : List (String × α)}
    (h : entries.lookup key = some value) : (key, value) ∈ entries := by
  obtain ⟨before, after, rfl, -⟩ := List.lookup_eq_some_iff.1 h
  exact List.mem_append_right _ (.head _)

namespace Registry

variable {r : Registry} {u : MeasureUnit} {name : String}

/-- The name is a symbol or an alias. -/
inductive Named (r : Registry) (name : String) (u : MeasureUnit) : Prop where
  | symbol (hu : (name, u) ∈ r.units)
  | byAlias {symbol : String} (halias : (name, symbol) ∈ r.aliases) (hu : (symbol, u) ∈ r.units)

/-- The name is a symbol or an alias, in the plural and, if it is an alias, in any case. -/
inductive Called (r : Registry) (name : String) (u : MeasureUnit) : Prop where
  | named (h : r.Named name u)
  | lower {form : List Char} {ending symbol : String} (hending : ending ∈ ["", "s", "es"])
    (hname : Text.lower name.toList = form ++ ending.toList)
    (halias : (String.ofList form, symbol) ∈ r.aliases) (hu : (symbol, u) ∈ r.units)
  | plural {front : List Char} (hname : name.toList = front ++ ['s']) (hlength : 2 ≤ front.length)
    (hu : (String.ofList front, u) ∈ r.units)

/-- The unit takes the multiple. -/
def Takes (r : Registry) (u : MeasureUnit) (m : Multiple) : Prop :=
  m ∈ Multiple.decimals ∧ u.symbol ∈ r.decimalScaled ∨
    m ∈ Multiple.binaries ∧ u.symbol ∈ r.binaryScaled

/-- The name leads to the unit, or to one of which the unit is a multiple. -/
inductive Spelled (r : Registry) (name : String) : MeasureUnit → Prop where
  | called {u : MeasureUnit} (h : r.Called name u) : r.Spelled name u
  | long {m : Multiple} {rest : List Char} {u : MeasureUnit} (hm : r.Takes u m)
    (hname : Text.lower name.toList = m.name.toList ++ rest) (h : r.Called (String.ofList rest) u) :
    r.Spelled name (u.multiple m)
  | short {m : Multiple} {rest : List Char} {u : MeasureUnit} (hm : r.Takes u m)
    (hname : name.toList = m.symbol.toList ++ rest) (h : r.Named (String.ofList rest) u) :
    r.Spelled name (u.multiple m)

theorem exists_of_alias (h : ((r.aliases.lookup name).bind fun s => r.units.lookup s) = some u) :
    ∃ symbol, (name, symbol) ∈ r.aliases ∧ (symbol, u) ∈ r.units := by
  obtain ⟨symbol, halias, hu⟩ := Option.bind_eq_some_iff.1 h
  exact ⟨symbol, mem_of_lookup halias, mem_of_lookup hu⟩

theorem named_of_get? (h : r.get? name = some u) : r.Named name u := by
  rcases orElse_eq_some h with h | h
  · exact .symbol (mem_of_lookup h)
  · obtain ⟨symbol, halias, hu⟩ := exists_of_alias h
    exact .byAlias halias hu

/-- A singular is what stands in front of an ending. -/
theorem exists_of_mem_singulars {cs : List Char} {form : String} (h : form ∈ singulars cs) :
    ∃ ending ∈ ["", "s", "es"], cs = form.toList ++ ending.toList := by
  obtain ⟨form?, hform?, hform⟩ := List.mem_filterMap.1 h
  obtain ⟨front, rfl, rfl⟩ := Option.map_eq_some_iff.1 hform
  rw [String.toList_ofList]
  simp only [List.mem_cons, List.not_mem_nil, or_false, Option.some.injEq] at hform?
  rcases hform? with rfl | h | h
  · exact ⟨"", by decide, by simp⟩
  · exact ⟨"s", by decide, Text.dropLast?_eq_some_iff.1 h.symm⟩
  · exact ⟨"es", by decide, Text.dropLast?_eq_some_iff.1 h.symm⟩

theorem called_of_byName? (h : r.byName? name = some u) : r.Called name u := by
  rcases orElse_eq_some h with h | h
  · obtain ⟨form, hform, hu⟩ := List.exists_of_findSome?_eq_some h
    obtain ⟨ending, hending, hname⟩ := exists_of_mem_singulars hform
    obtain ⟨symbol, halias, hu⟩ := exists_of_alias hu
    exact .lower hending hname (by rwa [String.ofList_toList]) hu
  · obtain ⟨front, hfront, hu⟩ := Option.bind_eq_some_iff.1 h
    obtain ⟨hfront, hlength⟩ := Option.filter_eq_some_iff.1 hfront
    exact .plural (Text.dropLast?_eq_some_iff.1 hfront) (by simpa using hlength) (mem_of_lookup hu)

/-- A unit found behind a multiple is that multiple of a unit that takes it. -/
theorem exists_of_withMultiple? {cs : List Char} {spelling : Multiple → String}
    {symbols : List String} {base? : String → Option MeasureUnit} {multiples : List Multiple}
    (h : withMultiple? cs spelling symbols base? multiples = some u) :
    ∃ m ∈ multiples, ∃ rest v, cs = (spelling m).toList ++ rest ∧
      base? (String.ofList rest) = some v ∧ v.symbol ∈ symbols ∧ v.multiple m = u := by
  obtain ⟨m, hm, hu⟩ := List.exists_of_findSome?_eq_some h
  obtain ⟨v, hv, hu⟩ := Option.bind_eq_some_iff.1 hu
  obtain ⟨rest, hrest, hv⟩ := Option.bind_eq_some_iff.1 hv
  split at hu
  · next hscaled =>
    exact ⟨m, hm, rest, v, (List.isPrefixOf?_eq_some_iff_append_eq.1 hrest).symm, hv,
      List.contains_iff_mem.1 hscaled, Option.some.inj hu⟩
  · cases hu

/-- **Lookup finds what the name spells.** -/
theorem spelled_of_lookup? (h : r.lookup? name = some u) : r.Spelled (Text.trimmed name) u := by
  -- Long multiples stand before any name of a unit, short ones before symbols and aliases only.
  have hcalled : ∀ s v, (r.get? s <|> r.byName? s) = some v → r.Called s v := fun s v hv =>
    (orElse_eq_some hv).elim (fun h => .named (named_of_get? h)) called_of_byName?
  unfold Registry.lookup? at h
  simp only at h
  split at h
  · cases h
  · rcases orElse_eq_some h with h | h
    · exact .called (.named (named_of_get? h))
    rcases orElse_eq_some h with h | h
    · exact .called (called_of_byName? h)
    rcases orElse_eq_some h with h | h
    · rcases orElse_eq_some h with h | h
      · obtain ⟨m, hm, rest, v, hname, hv, hscaled, rfl⟩ := exists_of_withMultiple? h
        exact .long (.inl ⟨hm, hscaled⟩) hname (hcalled _ _ hv)
      · obtain ⟨m, hm, rest, v, hname, hv, hscaled, rfl⟩ := exists_of_withMultiple? h
        exact .long (.inr ⟨hm, hscaled⟩) hname (hcalled _ _ hv)
    · rcases orElse_eq_some h with h | h
      · obtain ⟨m, hm, rest, v, hname, hv, hscaled, rfl⟩ := exists_of_withMultiple? h
        exact .short (.inr ⟨hm, hscaled⟩) hname (named_of_get? hv)
      · obtain ⟨m, hm, rest, v, hname, hv, hscaled, rfl⟩ := exists_of_withMultiple? h
        exact .short (.inl ⟨hm, hscaled⟩) hname (named_of_get? hv)

theorem Named.mem (h : r.Named name u) : ∃ key, (key, u) ∈ r.units := by
  cases h with
  | symbol hu => exact ⟨_, hu⟩
  | byAlias _ hu => exact ⟨_, hu⟩

theorem Called.mem (h : r.Called name u) : ∃ key, (key, u) ∈ r.units := by
  cases h with
  | named h => exact h.mem
  | lower _ _ _ hu => exact ⟨_, hu⟩
  | plural _ _ hu => exact ⟨_, hu⟩

end Registry

end Reckoner
