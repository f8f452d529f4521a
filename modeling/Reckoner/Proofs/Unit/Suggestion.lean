import Reckoner.Proofs.Text.EditDistance
import Reckoner.Proofs.Unit.Standard
import Mathlib.Data.List.MinMax
import Mathlib.Data.Prod.Lex
import Mathlib.Data.String.Basic

/-!
# Suggestions are the closest names

For a name that leads to no unit a registry suggests the one of its symbols and aliases that is
closest in lower case, and of those that are equally close the first one in order
(`Registry.IsClosest`). It suggests none if all are too far away. How far away a name may be depends
on the length of the query in lower case (`Registry.reach`), which is longer than the query where
that has an `İ`.

The suggestion is kept while the names are gone through, but it is a minimum of the whole list
(`Registry.foldl_better`) and so the same in any order. So are lookups, since no symbol and no alias
stands for two things (`Registry.IsKeyed`).
-/

namespace Reckoner

/-! ## Lists of pairs -/

theorem lookup_eq_some_iff_mem {α : Type} {entries : List (String × α)} {key : String} {value : α}
    (h : (entries.map Prod.fst).Nodup) :
    entries.lookup key = some value ↔ (key, value) ∈ entries := by
  refine ⟨mem_of_lookup, fun hmem => ?_⟩
  induction entries with
  | nil => cases hmem
  | cons entry rest ih =>
    obtain ⟨other, v⟩ := entry
    obtain ⟨hnew, hrest⟩ := List.nodup_cons.1 h
    rw [lookup_cons_eq]
    rcases List.mem_cons.1 hmem with heq | hlater
    · cases heq
      rw [if_pos rfl]
    · have hkey : key ∈ rest.map Prod.fst := List.mem_map_of_mem hlater
      have hne : key ≠ other := fun heq => hnew (heq ▸ hkey)
      rw [if_neg hne]
      exact ih hrest hlater

theorem lookup_eq_of_perm {α : Type} {entries entries' : List (String × α)}
    (h : (entries.map Prod.fst).Nodup) (hperm : entries.Perm entries') (key : String) :
    entries'.lookup key = entries.lookup key := by
  have h' : (entries'.map Prod.fst).Nodup := (hperm.map Prod.fst).nodup_iff.1 h
  ext value
  rw [lookup_eq_some_iff_mem h', lookup_eq_some_iff_mem h, hperm.mem_iff]

theorem nodup_setKey {α : Type} {entries : List (String × α)} (key : String) (value : α)
    (h : (entries.map Prod.fst).Nodup) : ((setKey key value entries).map Prod.fst).Nodup := by
  induction entries with
  | nil => simp [setKey]
  | cons entry rest ih =>
    obtain ⟨other, v⟩ := entry
    obtain ⟨hnew, hrest⟩ := List.nodup_cons.1 h
    rw [setKey]
    split
    · next hkey =>
      subst hkey
      exact List.nodup_cons.2 ⟨hnew, hrest⟩
    · next hkey =>
      refine List.nodup_cons.2 ⟨fun hmem => ?_, ih hrest⟩
      obtain ⟨p, hp, hother⟩ := List.mem_map.1 hmem
      rcases mem_setKey hp with rfl | hp
      · exact hkey hother.symm
      · exact hnew (hother ▸ List.mem_map_of_mem hp)

namespace Registry

variable {r r' : Registry} {query name : String} {limit : Nat}

/-! ## The closest name -/

theorem mem_names_of_unit {u : MeasureUnit} (h : (name, u) ∈ r.units) : name ∈ r.names :=
  List.mem_append_left _ (List.mem_map_of_mem h)

theorem mem_names_of_alias {symbol : String} (h : (name, symbol) ∈ r.aliases) : name ∈ r.names :=
  List.mem_append_right _ (List.mem_map_of_mem h)

theorem mem_names_of_named {u : MeasureUnit} (h : r.Named name u) : name ∈ r.names := by
  cases h with
  | symbol hu => exact mem_names_of_unit hu
  | byAlias halias _ => exact mem_names_of_alias halias

/-- The edits between two names in lower case. -/
def distance (query name : String) : Nat :=
  Text.editDistance (Text.lower query.toList) (Text.lower name.toList)

/-- How many edits a suggestion may be away from a query. -/
def reach (query : String) : Nat := if (Text.lower query.toList).length ≤ 3 then 1 else 2

/-- Of the symbols and aliases within a limit, the one with the least pair of its distance and the
name itself. -/
structure IsClosest (r : Registry) (query : String) (limit : Nat) (name : String) : Prop where
  mem : name ∈ r.names
  near : distance query name ≤ limit
  least : ∀ other ∈ r.names, distance query other ≤ limit →
    toLex (distance query name, name) ≤ toLex (distance query other, other)

/-- What is kept is the least of the rated names. -/
theorem foldl_better (rated : List (Nat × String)) :
    rated.foldl better none = rated.argmin toLex := by
  have hbetter : better = List.argAux fun p q => toLex p < toLex q := by
    funext best candidate
    cases best with
    | none => rfl
    | some b => simp only [better, List.argAux, Prod.Lex.lt_iff, ofLex_toLex]
  rw [hbetter]
  rfl

theorem foldl_better_eq_some_iff {rated : List (Nat × String)} {p : Nat × String} :
    rated.foldl better none = some p ↔ p ∈ rated ∧ ∀ q ∈ rated, toLex p ≤ toLex q := by
  rw [foldl_better, List.argmin_eq_some_iff]
  refine ⟨fun h => ⟨h.1, h.2.1⟩, fun h => ⟨h.1, h.2, fun q hq hle => ?_⟩⟩
  -- A pair that is not greater than the least one is that one.
  rw [toLex_inj.1 (le_antisymm hle (h.2 q hq))]

/-- The names within reach, with their distances. -/
theorem mem_rated {p : Nat × String} :
    p ∈ (r.names.map fun n => (distance query n, n)).filter (·.1 ≤ limit) ↔
      p.2 ∈ r.names ∧ p.1 = distance query p.2 ∧ p.1 ≤ limit := by
  obtain ⟨d, n⟩ := p
  simp only [List.mem_filter, List.mem_map, Prod.mk.injEq, decide_eq_true_eq]
  constructor
  · rintro ⟨⟨n, hn, rfl, rfl⟩, hnear⟩
    exact ⟨hn, rfl, hnear⟩
  · rintro ⟨hn, rfl, hnear⟩
    exact ⟨⟨n, hn, rfl, rfl⟩, hnear⟩

theorem suggest?_eq_some_iff :
    r.suggest? query = some name ↔ r.IsClosest query (reach query) name := by
  show (((r.names.map fun n => (distance query n, n)).filter (·.1 ≤ reach query)).foldl better
    none).map (·.2) = some name ↔ _
  simp only [Option.map_eq_some_iff, foldl_better_eq_some_iff, mem_rated]
  constructor
  · rintro ⟨⟨d, n⟩, ⟨⟨hn, hd, hnear⟩, hleast⟩, rfl⟩
    obtain rfl : d = distance query n := hd
    exact ⟨hn, hnear, fun other hother hlimit => hleast (_, other) ⟨hother, rfl, hlimit⟩⟩
  · intro h
    refine ⟨(distance query name, name), ⟨⟨h.mem, rfl, h.near⟩, ?_⟩, rfl⟩
    rintro ⟨d, other⟩ ⟨hother, hd, hlimit⟩
    obtain rfl : d = distance query other := hd
    exact h.least other hother hlimit

/-- There is a suggestion unless all names are out of reach. -/
theorem suggest?_eq_none_iff :
    r.suggest? query = none ↔ ∀ n ∈ r.names, reach query < distance query n := by
  show (((r.names.map fun n => (distance query n, n)).filter (·.1 ≤ reach query)).foldl better
    none).map (·.2) = none ↔ _
  rw [Option.map_eq_none_iff, foldl_better, List.argmin_eq_none, List.filter_eq_nil_iff]
  simp

/-! ## Other orders -/

/-- No symbol and no alias stands for two things. -/
structure IsKeyed (r : Registry) : Prop where
  units : (r.units.map Prod.fst).Nodup
  aliases : (r.aliases.map Prod.fst).Nodup

/-- The same registry in another order. -/
structure Reordered (r r' : Registry) : Prop where
  units : r.units.Perm r'.units
  aliases : r.aliases.Perm r'.aliases
  decimalScaled : r.decimalScaled.Perm r'.decimalScaled
  binaryScaled : r.binaryScaled.Perm r'.binaryScaled

namespace IsKeyed

theorem register (hr : r.IsKeyed) (u : MeasureUnit) (scaling : Scaling) :
    (r.register u scaling).IsKeyed where
  units := nodup_setKey _ _ hr.units
  aliases := by
    simp only [Registry.register]
    split
    · exact nodup_setKey _ _ hr.aliases
    · exact hr.aliases

theorem addAliases (hr : r.IsKeyed) (symbol : String) (ns : List String) :
    (r.addAliases symbol ns).IsKeyed where
  units := hr.units
  aliases := List.foldlRecOn
    (motive := fun aliases : List (String × String) => (aliases.map Prod.fst).Nodup) ns _ hr.aliases
    fun _ h n _ => nodup_setKey n symbol h

theorem addEntry (hr : r.IsKeyed) (entry : CatalogueEntry) : (r.addEntry entry).IsKeyed := by
  cases entry with
  | unit u scaling => exact hr.register u scaling
  | aliases symbol ns => exact hr.addAliases symbol ns
  | product name parts ns =>
    simp only [Registry.addEntry, Registry.registerProduct]
    split
    · exact hr
    · exact (hr.register _ _).addAliases _ _

/-- A registry is keyed line by line. -/
theorem ofCatalogue (entries : List CatalogueEntry) : (Registry.ofCatalogue entries).IsKeyed :=
  List.foldlRecOn entries _ ⟨List.nodup_nil, List.nodup_nil⟩ fun _ hr entry _ => hr.addEntry entry

end IsKeyed

namespace Reordered

theorem reverse (r : Registry) :
    Reordered r { r with units := r.units.reverse, aliases := r.aliases.reverse } :=
  ⟨(List.reverse_perm _).symm, (List.reverse_perm _).symm, .refl _, .refl _⟩

/-- A lookup does not depend on the order. -/
theorem lookup? (hr : Reordered r r') (hkeys : r.IsKeyed) (name : String) :
    r'.lookup? name = r.lookup? name := by
  have hunits := lookup_eq_of_perm hkeys.units hr.units
  have haliases := lookup_eq_of_perm hkeys.aliases hr.aliases
  have hdecimal : ∀ s, r'.decimalScaled.contains s = r.decimalScaled.contains s :=
    fun s => hr.decimalScaled.symm.contains_eq
  have hbinary : ∀ s, r'.binaryScaled.contains s = r.binaryScaled.contains s :=
    fun s => hr.binaryScaled.symm.contains_eq
  simp only [Registry.lookup?, get?, byName?, byLongMultiple?, byShortMultiple?, withMultiple?,
    hunits, haliases, hdecimal, hbinary]

theorem mem_names_iff (hr : Reordered r r') : name ∈ r'.names ↔ name ∈ r.names := by
  simp only [names, List.mem_append, List.mem_map, hr.units.mem_iff, hr.aliases.mem_iff]

/-- A suggestion does not depend on the order. -/
theorem suggest? (hr : Reordered r r') (query : String) : r'.suggest? query = r.suggest? query := by
  ext name
  rw [suggest?_eq_some_iff, suggest?_eq_some_iff]
  constructor
  · rintro ⟨hmem, hnear, hleast⟩
    exact ⟨hr.mem_names_iff.1 hmem, hnear, fun other h => hleast other (hr.mem_names_iff.2 h)⟩
  · rintro ⟨hmem, hnear, hleast⟩
    exact ⟨hr.mem_names_iff.2 hmem, hnear, fun other h => hleast other (hr.mem_names_iff.1 h)⟩

end Reordered

/-! ## Unknown names -/

/-- The diagnostic of an unknown name, with a suggestion or without. -/
def unknown (name : String) : Option String → Diagnostic
  | some n => (Diagnostic.unknownUnit name).withSuggestion ("Did you mean '" ++ n ++ "'?")
  | none => Diagnostic.unknownUnit name

theorem resolve_of_unknown (h : r.lookup? name = none) :
    r.resolve name = .error (unknown name (r.suggest? name)) := by
  unfold resolve
  rw [h]
  cases r.suggest? name <;> rfl

/-- **The suggestion is the closest name**, in whatever order the names are gone through. A name that
leads to no unit is unknown, and what is suggested for it is the closest one of all symbols and
aliases within reach, or nothing if there is none. The distances are the least numbers of
single-character edits. -/
theorem resolve_suggests_closest (hkeys : r.IsKeyed) (hr : Reordered r r')
    (h : r.lookup? name = none) :
    (∃ suggestion : Option String,
      (∀ n, suggestion = some n ↔ r.IsClosest name (reach name) n) ∧
      (suggestion = none ↔ ∀ n ∈ r.names, reach name < distance name n) ∧
      r'.resolve name = .error (unknown name suggestion)) ∧
    ∀ a b : List Char, IsLeast {k | Text.Edits k a b} (Text.editDistance a b) := by
  have hresolve := resolve_of_unknown ((hr.lookup? hkeys name).trans h)
  rw [hr.suggest?] at hresolve
  exact ⟨⟨r.suggest? name, fun n => suggest?_eq_some_iff, suggest?_eq_none_iff, hresolve⟩,
    Text.isLeast_editDistance⟩

end Registry

namespace Catalogue

/-- All symbols and aliases that the catalogue can register. -/
def allNames : List (List Char) :=
  names ++ (units entries).map (·.1.symbol.toList) ++ composed.map String.toList

theorem mem_allNames {r : Registry} (hr : Describes r) {n : String} (hn : n ∈ r.names) :
    n.toList ∈ allNames := by
  rw [allNames, List.mem_append, List.mem_append]
  rcases List.mem_append.1 hn with hn | hn
  · obtain ⟨p, hp, rfl⟩ := List.mem_map.1 hn
    rcases hr.unit p hp with ⟨scaling, hline⟩ | ⟨hcomposed, -⟩
    · refine .inl (.inr (List.mem_map.2 ⟨_, hline, ?_⟩))
      rw [hr.symbol p hp]
    · exact .inr (List.mem_map_of_mem hcomposed)
  · obtain ⟨p, hp, rfl⟩ := List.mem_map.1 hn
    exact .inl (.inl (hr.known p hp))

end Catalogue

namespace Registry

open Catalogue (describes_standardUnits has_of_mem mem_allNames)

/-! ## A name that is longer in lower case -/

theorem toList_dotted : "İnx".toList = ['İ', 'n', 'x'] := String.toList_ofList

theorem lower_dotted : Text.lower "İnx".toList = ['i', '\u0307', 'n', 'x'] := by
  rw [toList_dotted]
  decide +kernel

theorem lower_lower_dotted :
    Text.lower ['i', '\u0307', 'n', 'x'] = ['i', '\u0307', 'n', 'x'] := by decide +kernel

theorem no_multiple : ∀ m ∈ Multiple.all,
    ¬ m.name.toList <+: ['i', '\u0307', 'n', 'x'] ∧ ¬ m.symbol.toList <+: ['İ', 'n', 'x'] := by
  decide +kernel

theorem trimmed_dotted : Text.trimmed "İnx" = "İnx" := by
  have hblank : ['İ', 'n', 'x'].any Text.isBlank = false := by decide
  apply trimmed_eq_self
  rw [toList_dotted]
  simpa using hblank

theorem reach_dotted : reach "İnx" = 2 := by
  rw [reach, lower_dotted]
  rfl

theorem distance_dotted (n : String) :
    distance "İnx" n = Text.editDistance ['i', '\u0307', 'n', 'x'] (Text.lower n.toList) := by
  rw [distance, lower_dotted]

theorem distance_in : distance "İnx" "in" = 2 := by
  rw [distance_dotted]
  decide +kernel

theorem mem_names_in : "in" ∈ standardUnits.names := by
  have hline : ∃ p ∈ Catalogue.units Catalogue.entries, p.1.symbol = "in" := by decide +kernel
  obtain ⟨p, hp, hsymbol⟩ := hline
  rw [← hsymbol]
  obtain ⟨u, hu⟩ := Option.isSome_iff_exists.1 (has_of_mem hp).key
  exact mem_names_of_unit (mem_of_lookup hu)

/-- In lower case `İnx` has four characters. No name is one edit away, and of those that are two edits
away `in` is the first. -/
theorem names_far : ∀ cs ∈ Catalogue.allNames,
    1 < Text.editDistance ['i', '\u0307', 'n', 'x'] (Text.lower cs) ∧
      (Text.editDistance ['i', '\u0307', 'n', 'x'] (Text.lower cs) = 2 →
        "in" ≤ String.ofList cs) := by
  decide +kernel

theorem one_lt_distance {n : String} (hn : n ∈ standardUnits.names) : 1 < distance "İnx" n := by
  rw [distance_dotted]
  exact (names_far _ (mem_allNames describes_standardUnits hn)).1

theorem lookup?_dotted : standardUnits.lookup? "İnx" = none := by
  rw [Option.eq_none_iff_forall_ne_some]
  intro u h
  have hspelled := spelled_of_lookup? h
  rw [trimmed_dotted] at hspelled
  cases hspelled with
  | called hcalled =>
    cases hcalled with
    | named hnamed =>
      have hfar := one_lt_distance (mem_names_of_named hnamed)
      rw [distance, Text.editDistance_eq, Text.distance_self] at hfar
      cases hfar
    | @lower form ending symbol hending hname halias _ =>
      rw [lower_dotted] at hname
      have hform : 1 < distance "İnx" (String.ofList form) :=
        one_lt_distance (mem_names_of_alias halias)
      simp only [List.mem_cons, List.not_mem_nil, or_false] at hending
      rcases hending with rfl | rfl | rfl
      · obtain rfl : ['i', '\u0307', 'n', 'x'] = form := by simpa using hname
        rw [distance_dotted, String.toList_ofList, lower_lower_dotted, Text.editDistance_eq,
          Text.distance_self] at hform
        cases hform
      · have hlast := congrArg List.getLast? hname
        simp at hlast
      · have hlast := congrArg List.getLast? hname
        simp at hlast
    | plural hname _ _ =>
      have hlast := congrArg List.getLast? hname
      simp at hlast
  | long hm hname _ =>
    refine (no_multiple _ (describes_standardUnits.mem_all_of_takes hm)).1 ?_
    rw [← lower_dotted, hname]
    exact List.prefix_append _ _
  | short hm hname _ =>
    refine (no_multiple _ (describes_standardUnits.mem_all_of_takes hm)).2 ?_
    rw [← toList_dotted, hname]
    exact List.prefix_append _ _

theorem isClosest_in : standardUnits.IsClosest "İnx" (reach "İnx") "in" where
  mem := mem_names_in
  near := by rw [distance_in, reach_dotted]
  least other hother hnear := by
    rw [reach_dotted] at hnear
    have hfar := names_far _ (mem_allNames describes_standardUnits hother)
    rw [← distance_dotted, String.ofList_toList] at hfar
    have htwo : distance "İnx" other = 2 := le_antisymm hnear hfar.1
    rw [distance_in, htwo, Prod.Lex.le_iff]
    exact .inr ⟨rfl, hfar.2 htwo⟩

/-- The limit counts the letters in lower case: `İnx` has three, and one more in lower case, so that a
name two edits away is suggested. -/
theorem suggestion_two_edits_away :
    standardUnits.lookup? "İnx" = none ∧ "İnx".length = 3 ∧
      (∀ n ∈ standardUnits.names, 1 < distance "İnx" n) ∧
      standardUnits.resolve "İnx" = .error (unknown "İnx" (some "in")) := by
  have hlength : "İnx".length = 3 := by
    rw [← String.length_toList, toList_dotted]
    rfl
  refine ⟨lookup?_dotted, hlength, fun n => one_lt_distance, ?_⟩
  rw [resolve_of_unknown lookup?_dotted, suggest?_eq_some_iff.2 isClosest_in]

/-- The standard units with symbols and aliases in reverse. -/
theorem resolve_reversed :
    let r := { standardUnits with
      units := standardUnits.units.reverse, aliases := standardUnits.aliases.reverse }
    standardUnits.IsKeyed ∧ Reordered standardUnits r ∧ standardUnits.lookup? "İnx" = none ∧
      r.resolve "İnx" = .error (unknown "İnx" (some "in")) := by
  intro r
  have hkeys : standardUnits.IsKeyed := .ofCatalogue Catalogue.entries
  have hr : Reordered standardUnits r := .reverse standardUnits
  obtain ⟨⟨suggestion, hclosest, -, hresolve⟩, -⟩ := resolve_suggests_closest hkeys hr lookup?_dotted
  rw [(hclosest "in").2 isClosest_in] at hresolve
  exact ⟨hkeys, hr, lookup?_dotted, hresolve⟩

end Registry

end Reckoner
