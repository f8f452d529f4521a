import Reckoner.Proofs.Unit.Catalogue
import Reckoner.Proofs.Unit.Terms

/-!
# Symbols that stand for themselves

A symbol such as `Ys` is also the plural of an alias in other letters, `y` for the year. Which of the
symbols of multiples are free of such clashes is a matter of the catalogue. The symbols are grouped
by the multiple in front of them (`groups`), and the aliases are compared with one group after the
other (`IsApart`). All symbols of the groups are clear, except two (`isClear_of_mem`).
-/

namespace Reckoner

namespace CatalogueEntry

/-- The aliases that a line can register, in the case in which it registers them. -/
def names : CatalogueEntry → List (List Char)
  | .unit u _ =>
    let name := Text.lower u.name.toList
    if name = u.symbol.toList then [] else [name]
  | .product name _ others => Text.lower name.toList :: others.map String.toList
  | .aliases _ others => others.map String.toList

/-- The factors of a catalogued product. -/
def factors? : CatalogueEntry → Option (List (String × Int))
  | .product _ parts _ => some parts
  | _ => none

end CatalogueEntry

namespace Catalogue

/-- The aliases of the catalogue. -/
def names : List (List Char) := entries.flatMap CatalogueEntry.names

/-- The endings of a plural, and none. -/
def endings : List String := ["", "s", "es"]

/-- A symbol that leads to no unit but its own: it is not an alias, not the plural of one or of
another symbol, not a multiple of an alias, and not the long name of a multiple of anything but the
tonne, which takes no multiples. -/
structure IsClear (x : List Char) : Prop where
  ne_nil : x ≠ []
  plain : ∀ c ∈ x, isPlainChar c = true
  unaliased : x ∉ names
  lower : ∀ ending ∈ endings, ∀ form, Text.lower x = form ++ ending.toList → form ∉ names
  plural : ∀ front, x = front ++ ['s'] → 2 ≤ front.length →
    ∀ p ∈ units entries, p.1.symbol.toList ≠ front
  long : ∀ m ∈ Multiple.all, ∀ rest, Text.lower x = m.name.toList ++ rest → rest = ['t']
  short : ∀ m ∈ Multiple.all, ∀ rest, x = m.symbol.toList ++ rest → rest ∉ names

/-! ## Groups of symbols -/

/-- The symbols of the units that take multiples. -/
def scaledSymbols : List (List Char) :=
  ((units entries).filter fun p => p.2 ≠ .fixed).map fun p => p.1.symbol.toList

/-- The symbols of the units that catalogued products are made of, and of the tonne. -/
def factorSymbols : List (List Char) :=
  [['m'], ['s'], ['h'], ['f', 't'], ['i', 'n'], ['y', 'd'], ['m', 'i'], ['t']]

/-- The symbols behind each multiple, and those without one. -/
def groups : List (List Char × List (List Char)) :=
  ([], factorSymbols) :: Multiple.all.map fun m => (m.symbol.toList, scaledSymbols)

/-- The multiples that have also the form of an alias: in lower case `Ys` is the plural of `y`, and
`cC` is `cc`. -/
def clashes : List (List Char) := [['Y', 's'], ['c', 'C']]

instance (cs : List Char) : Decidable (cs ∈ clashes) := List.instDecidableMemOfLawfulBEq cs clashes

/-- What is left of two multiples, one of which goes on as the other one does. -/
def tails : List (List Char) := [['a'], ['i']]

/-- What is left of the symbol of a unit behind a multiple. -/
def remainders : List (List Char) := [[], ['i'], ['t']]

/-- The alias is apart from all symbols of the groups: it is neither such a symbol nor one in lower
case, without the ending of a plural; and it is not what is left of one behind a multiple. -/
structure IsApart (a : List Char) : Prop where
  symbol : ∀ g ∈ groups, ∀ stem ∈ g.1.isPrefixOf? a, stem ∉ g.2
  lower : ∀ ending ∈ endings, ∀ g ∈ groups,
    ∀ rest ∈ (Text.lower g.1).isPrefixOf? (a ++ ending.toList), ∀ stem ∈ g.2,
      Text.lower stem = rest → g.1 ++ stem ∈ clashes
  stem : a ∉ factorSymbols ∧ a ∉ scaledSymbols
  longer : ∀ t ∈ tails, ∀ stem ∈ t.isPrefixOf? a, stem ∉ scaledSymbols
  shorter : a ∉ remainders

instance (a : List Char) : Decidable (IsApart a) :=
  decidable_of_iff (_ ∧ _ ∧ _ ∧ _ ∧ _)
    ⟨fun ⟨h₁, h₂, h₃, h₄, h₅⟩ => ⟨h₁, h₂, h₃, h₄, h₅⟩,
      fun ⟨h₁, h₂, h₃, h₄, h₅⟩ => ⟨h₁, h₂, h₃, h₄, h₅⟩⟩

/-- The mark of a product, a quotient or a power stands in the text. -/
def HasSign (cs : List Char) : Prop := ∃ c ∈ cs, c ∈ ['·', '/', '^']

-- The list is searched; an instance for all characters would try each of them.
instance (cs : List Char) : Decidable (HasSign cs) := List.decidableBEx _ cs

/-- No symbol of a group is longer than five characters, so that longer aliases are apart from it
anyhow. The few aliases with a sign belong to products, and have an exponent without its mark. -/
theorem names_apart : ∀ entry ∈ entries, ∀ a ∈ entry.names,
    (a.length ≤ 5 → IsApart a) ∧
      (HasSign a → entry.factors?.isSome ∧ '^' ∉ a ∧ ('2' ∈ a ∨ '²' ∈ a)) := by decide +kernel

theorem isApart_of_mem {a : List Char} (ha : a ∈ names) (hlength : a.length ≤ 5) : IsApart a := by
  obtain ⟨entry, hentry, ha⟩ := List.mem_flatMap.1 ha
  exact (names_apart entry hentry a ha).1 hlength

theorem exponent_of_hasSign {a : List Char} (ha : a ∈ names) (hsign : HasSign a) :
    '^' ∉ a ∧ ('2' ∈ a ∨ '²' ∈ a) := by
  obtain ⟨entry, hentry, ha⟩ := List.mem_flatMap.1 ha
  exact ((names_apart entry hentry a ha).2 hsign).2

/-- A front and the symbols behind it, compared with the multiples and the other symbols. -/
structure IsGroup (g : List Char × List (List Char)) : Prop where
  length : g.1.length ≤ 2
  plain : g.1.all isPlainChar
  plural : ∀ p ∈ units entries, 2 ≤ p.1.symbol.toList.length →
    ∀ stem ∈ g.1.isPrefixOf? (p.1.symbol.toList ++ ['s']), stem ∉ g.2
  long : ∀ m ∈ Multiple.all, m.name.toList.isPrefixOf? (Text.lower g.1) = none ∧
    ∀ t ∈ (Text.lower g.1).isPrefixOf? m.name.toList, ∀ stem ∈ g.2,
      ∀ rest ∈ t.isPrefixOf? (Text.lower stem), rest = ['t']
  longer : ∀ m ∈ Multiple.all, ∀ t ∈ m.symbol.toList.isPrefixOf? g.1, t ≠ [] → t ∈ tails
  shorter : ∀ m ∈ Multiple.all, ∀ t ∈ g.1.isPrefixOf? m.symbol.toList, t ≠ [] →
    ∀ stem ∈ g.2, ∀ rest ∈ t.isPrefixOf? stem, rest ∈ remainders

instance (g : List Char × List (List Char)) : Decidable (IsGroup g) :=
  decidable_of_iff (_ ∧ _ ∧ _ ∧ _ ∧ _ ∧ _)
    ⟨fun ⟨h₁, h₂, h₃, h₄, h₅, h₆⟩ => ⟨h₁, h₂, h₃, h₄, h₅, h₆⟩,
      fun ⟨h₁, h₂, h₃, h₄, h₅, h₆⟩ => ⟨h₁, h₂, h₃, h₄, h₅, h₆⟩⟩

theorem isGroup_of_mem : ∀ g ∈ groups, IsGroup g := by decide +kernel

theorem symbols_plain : ∀ stem ∈ factorSymbols ++ scaledSymbols,
    stem ≠ [] ∧ stem.length ≤ 3 ∧ stem.all isPlainChar := by decide +kernel

/-! ## The symbols of the groups are clear -/

section

variable {g : List Char × List (List Char)} {stem front rest a cs ds : List Char}

theorem isPrefixOf?_append (front rest : List Char) : rest ∈ front.isPrefixOf? (front ++ rest) :=
  List.isPrefixOf?_eq_some_iff_append_eq.2 rfl

theorem mem_groups : g ∈ groups ↔
    g = ([], factorSymbols) ∨ ∃ m ∈ Multiple.all, g = (m.symbol.toList, scaledSymbols) := by
  simp only [groups, List.mem_cons, List.mem_map, eq_comm]

/-- The symbols behind a multiple are those of the units that take it. -/
theorem eq_scaledSymbols (hg : g ∈ groups) (hfront : g.1 ≠ []) : g.2 = scaledSymbols := by
  rcases mem_groups.1 hg with rfl | ⟨m, -, rfl⟩
  · exact absurd rfl hfront
  · rfl

theorem mem_symbols (hg : g ∈ groups) (hstem : stem ∈ g.2) :
    stem ∈ factorSymbols ∨ stem ∈ scaledSymbols := by
  rcases mem_groups.1 hg with rfl | ⟨m, -, rfl⟩
  · exact .inl hstem
  · exact .inr hstem

/-- A symbol is plain, with at most five characters, the last of them its own. -/
theorem symbol_plain (hg : g ∈ groups) (hstem : stem ∈ g.2) :
    stem ≠ [] ∧ (g.1 ++ stem).length ≤ 5 ∧ ∀ c ∈ g.1 ++ stem, isPlainChar c = true := by
  obtain ⟨hne, hlength, hplain⟩ :=
    symbols_plain stem (List.mem_append.2 (mem_symbols hg hstem))
  have hgroup := isGroup_of_mem g hg
  refine ⟨hne, ?_, List.forall_mem_append.2
    ⟨List.all_eq_true.1 hgroup.plain, List.all_eq_true.1 hplain⟩⟩
  have hfront := hgroup.length
  rw [List.length_append]
  omega

theorem lower_append (hg : g ∈ groups) (hstem : stem ∈ g.2) :
    Text.lower (g.1 ++ stem) = Text.lower g.1 ++ Text.lower stem := by
  have hplain := (symbol_plain hg hstem).2.2
  have hsimple : ∀ c ∈ g.1 ++ stem, Text.IsSimple c :=
    fun c hc => isSimple_of_isPlainChar (hplain c hc)
  obtain ⟨hfront, hback⟩ := List.forall_mem_append.1 hsimple
  rw [Text.lower_eq_map hsimple, Text.lower_eq_map hfront, Text.lower_eq_map hback,
    List.map_append]

theorem length_lower (hg : g ∈ groups) (hstem : stem ∈ g.2) :
    (Text.lower (g.1 ++ stem)).length ≤ 5 := by
  obtain ⟨-, hlength, hplain⟩ := symbol_plain hg hstem
  rwa [Text.lower_eq_map fun c hc => isSimple_of_isPlainChar (hplain c hc), List.length_map]

/-- What is left of a symbol behind any multiple is no alias. -/
theorem not_mem_names_of_multiple (hg : g ∈ groups) (hstem : stem ∈ g.2) {m : Multiple}
    (hm : m ∈ Multiple.all) (h : g.1 ++ stem = m.symbol.toList ++ rest) : rest ∉ names := by
  intro hrest
  have hlength : rest.length ≤ 5 := by
    have hsymbol := (symbol_plain hg hstem).2.1
    rw [h, List.length_append] at hsymbol
    omega
  have happart := isApart_of_mem hrest hlength
  have hsame : rest ≠ stem := by
    rintro rfl
    exact (mem_symbols hg hstem).elim happart.stem.1 happart.stem.2
  rcases List.append_eq_append_iff.1 h with ⟨t, hm', hstem'⟩ | ⟨t, hfront, hrest'⟩
  · -- The multiple goes on into the symbol.
    have ht : t ≠ [] := by
      rintro rfl
      exact hsame hstem'.symm
    refine happart.shorter ((isGroup_of_mem g hg).shorter m hm t ?_ ht stem hstem rest ?_)
    · rw [hm']
      exact isPrefixOf?_append _ _
    · rw [hstem']
      exact isPrefixOf?_append _ _
  · -- The multiple is a part of the one in front of the symbol.
    have ht : t ≠ [] := by
      rintro rfl
      exact hsame hrest'
    have htail : t ∈ tails := by
      refine (isGroup_of_mem g hg).longer m hm t ?_ ht
      rw [hfront]
      exact isPrefixOf?_append _ _
    have hscaled : g.2 = scaledSymbols := by
      apply eq_scaledSymbols hg
      rw [hfront]
      exact List.append_ne_nil_of_right_ne_nil _ ht
    refine happart.longer t htail stem ?_ (hscaled ▸ hstem)
    rw [hrest']
    exact isPrefixOf?_append _ _

/-- **All symbols of the groups but two are clear.** -/
theorem isClear_of_mem (hg : g ∈ groups) (hstem : stem ∈ g.2) (hclash : g.1 ++ stem ∉ clashes) :
    IsClear (g.1 ++ stem) := by
  obtain ⟨hne, hlength, hplain⟩ := symbol_plain hg hstem
  have hgroup := isGroup_of_mem g hg
  constructor
  case ne_nil => exact List.append_ne_nil_of_right_ne_nil _ hne
  case plain => exact hplain
  case unaliased =>
    intro hmem
    exact (isApart_of_mem hmem hlength).symbol g hg stem (isPrefixOf?_append _ _) hstem
  case lower =>
    intro ending hending form hform hmem
    have hshort : form.length ≤ 5 := by
      have hlower := length_lower hg hstem
      rw [hform, List.length_append] at hlower
      omega
    rw [lower_append hg hstem] at hform
    -- Only a symbol that clashes is, in lower case, an alias with an ending.
    refine hclash ((isApart_of_mem hmem hshort).lower ending hending g hg (Text.lower stem) ?_
      stem hstem rfl)
    rw [← hform]
    exact isPrefixOf?_append _ _
  case plural =>
    intro front hfront hlong p hp hsymbol
    refine hgroup.plural p hp (by rwa [hsymbol]) stem ?_ hstem
    rw [hsymbol, ← hfront]
    exact isPrefixOf?_append _ _
  case long =>
    intro m hm rest hrest
    obtain ⟨hnone, hlong⟩ := hgroup.long m hm
    rw [lower_append hg hstem] at hrest
    rcases List.append_eq_append_iff.1 hrest with ⟨t, hname, hback⟩ | ⟨t, hfront, -⟩
    · -- The long name goes on into the symbol, as that of `kibi` does in `Kibit`.
      refine hlong t ?_ stem hstem rest ?_
      · rw [hname]
        exact isPrefixOf?_append _ _
      · rw [hback]
        exact isPrefixOf?_append _ _
    · have hsome : t ∈ m.name.toList.isPrefixOf? (Text.lower g.1) := by
        rw [hfront]
        exact isPrefixOf?_append _ _
      rw [hnone] at hsome
      cases hsome
  case short =>
    intro m hm rest hrest
    exact not_mem_names_of_multiple hg hstem hm hrest

end

end Catalogue

end Reckoner
