import Reckoner.Proofs.Unit.Names

/-!
# Symbols of products, quotients and powers

A composed symbol has one of the signs `·`, `/` and `^` (`HasSign`). Base units have plain symbols,
so what the catalogue has under a symbol with a sign is one of its products (`composed`). The symbol
of components with known names is no alias, in whatever letters (`Known.not_mem_names`), and the
plural of a product only as `km/hs` (`Known.ne_plural`).
-/

namespace Reckoner

namespace Catalogue

/-! ## The catalogued products -/

/-- The factors of the catalogued products. -/
def products : List (List (String × Int)) := entries.filterMap CatalogueEntry.factors?

/-- The symbols of the catalogued products. -/
def composed : List String :=
  products.filterMap fun parts => (Exponents.ofList? parts).map composeSymbol

/-- The factors of a product have clear symbols, none of which occurs twice, and exact powers. -/
structure IsFactored (parts : List (String × Int)) : Prop where
  components : ∃ c ∈ Exponents.ofList? parts, c.entries.Perm parts ∧ ∀ e ∈ c.entries, e.2 ≠ 0
  clear : ∀ p ∈ parts, ∃ g ∈ groups, ∃ stem ∈ g.2, p.1.toList = g.1 ++ stem ∧ g.1 ++ stem ∉ clashes
  exact : ∀ p ∈ parts, ∃ base ∈ table entries p.1,
    base.2.isExact ∧ (base.2.powInt p.2 default).toOption.any Number.isExact

instance (parts : List (String × Int)) : Decidable (IsFactored parts) :=
  decidable_of_iff (_ ∧ _ ∧ _) ⟨fun ⟨h₁, h₂, h₃⟩ => ⟨h₁, h₂, h₃⟩, fun ⟨h₁, h₂, h₃⟩ => ⟨h₁, h₂, h₃⟩⟩

theorem isFactored_of_mem : ∀ parts ∈ products, IsFactored parts := by decide +kernel

/-- The symbol of a product has a sign, and its plural is not the symbol of another one, with one
exception. -/
theorem composed_checked : ∀ s ∈ composed, HasSign s.toList ∧ (s ++ "s" ≠ "km/hs" →
    let (above, below) := readSymbol (s ++ "s").toList
    symbolChars above below ≠ (s ++ "s").toList ∨ ("ss", 1) ∈ below) := by decide +kernel

theorem hasSign_composed {s : String} (hs : s ∈ composed) : HasSign s.toList :=
  (composed_checked s hs).1

/-! ## Signs -/

section

variable {cs ds : List Char} {s : String}

theorem forall_sign {p : Char → Prop} :
    (∀ c ∈ ['·', '/', '^'], p c) ↔ p '·' ∧ p '/' ∧ p '^' := by
  simp only [List.forall_mem_cons, List.not_mem_nil, false_imp_iff, implies_true, and_true]

theorem hasSign_append : HasSign (cs ++ ds) ↔ HasSign cs ∨ HasSign ds := by
  simp only [HasSign, List.mem_append, or_and_right, exists_or]

theorem not_hasSign_ending {ending : String} (hending : ending ∈ endings) :
    ¬ HasSign ending.toList := by
  revert ending
  decide

theorem hasSign_front {ending : String} (hending : ending ∈ endings)
    (h : HasSign (cs ++ ending.toList)) : HasSign cs :=
  (hasSign_append.1 h).resolve_right (not_hasSign_ending hending)

theorem hasSign_lower (h : HasSign cs) : HasSign (Text.lower cs) := by
  have hsigns : ∀ c ∈ ['·', '/', '^'], Text.lowerChar c = c ∧ Text.IsSimple c :=
    forall_sign.2 (by decide)
  obtain ⟨c, hc, hsign⟩ := h
  obtain ⟨hlower, hsimple⟩ := hsigns c hsign
  refine ⟨c, ?_, hsign⟩
  rw [← hlower]
  exact Text.mem_lower hsimple hc

theorem isAtomic_of_not_hasSign (hne : s ≠ "") (h : ¬ HasSign s.toList) : IsAtomic s := by
  refine ⟨hne, fun c hc => ?_⟩
  have hmark : c ∉ ['·', '/', '^'] := fun hmem => h ⟨c, hc, hmem⟩
  simpa using hmark

theorem not_hasSign_of_plain (h : ∀ c ∈ cs, isPlainChar c = true) : ¬ HasSign cs := by
  rintro ⟨c, hc, hsign⟩
  have hmark := isMark_of_isPlainChar (h c hc)
  simp only [List.mem_cons, List.not_mem_nil, or_false] at hsign
  rcases hsign with rfl | rfl | rfl <;> cases hmark

end

/-! ## Base units -/

section

variable {u : MeasureUnit}

/-- What the symbols of the lines and the names of the multiples are made of. -/
theorem symbols_checked : (∀ p ∈ units entries, IsPlain p.1.symbol ∧ p.1.symbol ≠ "ss") ∧
    ∀ m ∈ Multiple.all, IsPlain m.symbol ∧ 's' ∉ m.symbol.toList ∧
      m.name.toList.all isPlainChar := by decide +kernel

/-- No name in front of a unit has a sign. -/
theorem not_hasSign_multiple {m : Multiple} (hm : m ∈ Multiple.all) :
    ¬ HasSign m.name.toList ∧ ¬ HasSign m.symbol.toList := by
  obtain ⟨hsymbol, -, hname⟩ := symbols_checked.2 m hm
  exact ⟨not_hasSign_of_plain (List.all_eq_true.1 hname), not_hasSign_of_plain hsymbol.2⟩

/-- The symbols of base units are plain. -/
theorem plain_of_baseUnits (hu : u ∈ baseUnits entries) : IsPlain u.symbol := by
  obtain ⟨p, hp, rfl | ⟨m, hm, rfl⟩⟩ := mem_baseUnits.1 hu
  · exact (symbols_checked.1 p hp).1
  · have hsymbol := (symbols_checked.1 p hp).1
    have hmultiple := (symbols_checked.2 m (multiples_subset_all _ hm)).1
    refine ⟨fun h => hsymbol.1 (String.append_eq_empty_iff.1 h).2, ?_⟩
    show ∀ c ∈ (m.symbol ++ p.1.symbol).toList, _
    rw [String.toList_append, List.forall_mem_append]
    exact ⟨hmultiple.2, hsymbol.2⟩

theorem not_hasSign_of_baseUnits (hu : u ∈ baseUnits entries) : ¬ HasSign u.symbol.toList :=
  not_hasSign_of_plain (plain_of_baseUnits hu).2

theorem ss_not_mem (hu : u ∈ baseUnits entries) : u.symbol ≠ "ss" := by
  obtain ⟨p, hp, rfl | ⟨m, hm, rfl⟩⟩ := mem_baseUnits.1 hu
  · exact (symbols_checked.1 p hp).2
  · obtain ⟨hplain, hs, -⟩ := symbols_checked.2 m (multiples_subset_all _ hm)
    intro h
    have hlists : m.symbol.toList ++ p.1.symbol.toList = ['s', 's'] := by
      rw [← String.toList_append]
      exact congrArg String.toList h
    cases hfirst : m.symbol.toList with
    | nil => exact hplain.1 (String.toList_eq_nil_iff.1 hfirst)
    | cons c rest =>
      rw [hfirst] at hlists hs
      exact hs ((List.cons.inj hlists).1 ▸ .head _)

end

/-! ## Components of base units -/

/-- All names of the components are those of base units. -/
def Known (c : Exponents) : Prop := ∀ n ∈ c.names, (table entries n).isSome

namespace Known

variable {c : Exponents}

theorem exists_baseUnits (hc : Known c) {n : String} (hn : n ∈ c.names) :
    ∃ u ∈ baseUnits entries, u.symbol = n := by
  obtain ⟨⟨d, f⟩, hbase⟩ := Option.isSome_iff_exists.1 (hc n hn)
  obtain ⟨u, hu, hsymbol, -, -⟩ := exists_of_table hbase
  exact ⟨u, hu, hsymbol⟩

theorem plainNames (hc : Known c) : c.PlainNames := by
  intro n hn
  obtain ⟨u, hu, rfl⟩ := hc.exists_baseUnits hn
  exact plain_of_baseUnits hu

/-- The characters of a symbol without exponents. -/
theorem plain_or_sign (hc : Known c) (hcaret : '^' ∉ (composeSymbol c).toList) {x : Char}
    (hx : x ∈ (composeSymbol c).toList) : isPlainChar x = true ∨ x ∈ ['·', '/', '1'] := by
  rw [toList_composeSymbol] at hcaret hx
  rcases plain_or_caret_symbolChars hc.plainNames.above hc.plainNames.below hx with h | h | h
  · exact .inl h
  · exact .inr h
  · exact absurd h hcaret

/-- In lower case a symbol is replaced character by character. -/
theorem lower_composeSymbol (hc : Known c) :
    Text.lower (composeSymbol c).toList = (composeSymbol c).toList.map Text.lowerChar := by
  have hspecial : IsSeparator fun x => x == 'Σ' || x == 'İ' :=
    { plain := fun x hx => by
        obtain ⟨hsigma, hdotted⟩ := isSimple_of_isPlainChar hx
        simp [hsigma, hdotted]
      caret := rfl
      digit := (Text.digitFree_beq rfl).or (Text.digitFree_beq rfl) }
  apply Text.lower_eq_map
  intro x hx
  rw [toList_composeSymbol] at hx
  have hfalse := forall_mem_symbolChars hspecial rfl rfl hc.plainNames.above hc.plainNames.below x hx
  simpa [Text.IsSimple] using hfalse

/-- A symbol with a sign is no alias, as it stands or in other letters. The aliases with a sign have
an exponent, but not behind its mark. -/
theorem not_mem_names (hc : Known c) (hsign : HasSign (composeSymbol c).toList)
    (letter : Char → Char) (hmark : ∀ x ∈ ['·', '/', '^'], letter x = x)
    (hother : ∀ x, isPlainChar x = true ∨ x ∈ ['·', '/', '1'] → letter x ≠ '2' ∧ letter x ≠ '²')
    {form : List Char} {ending : String} (hending : ending ∈ endings)
    (hform : (composeSymbol c).toList.map letter = form ++ ending.toList) : form ∉ names := by
  have hfront : ∀ x ∈ (composeSymbol c).toList, x ∈ ['·', '/', '^'] → x ∈ form := by
    intro x hx hxsign
    have himage : x ∈ (composeSymbol c).toList.map letter :=
      List.mem_map.2 ⟨x, hx, hmark x hxsign⟩
    rw [hform] at himage
    exact (List.mem_append.1 himage).resolve_right
      fun hend => not_hasSign_ending hending ⟨x, hend, hxsign⟩
  intro hmem
  obtain ⟨x, hx, hxsign⟩ := hsign
  obtain ⟨hcaret, hexponent⟩ := exponent_of_hasSign hmem ⟨x, hfront x hx hxsign, hxsign⟩
  have hnone : '^' ∉ (composeSymbol c).toList := fun h => hcaret (hfront _ h (by decide))
  have hletters : ∀ x ∈ form, x ≠ '2' ∧ x ≠ '²' := by
    intro x hx
    have himage : x ∈ (composeSymbol c).toList.map letter := by
      rw [hform]
      exact List.mem_append_left _ hx
    obtain ⟨y, hy, rfl⟩ := List.mem_map.1 himage
    exact hother y (hc.plain_or_sign hnone hy)
  rcases hexponent with h | h
  · exact (hletters _ h).1 rfl
  · exact (hletters _ h).2 rfl

theorem ne_two_of_isMark {y : Char} (hy : isMark y = false) : y ≠ '2' ∧ y ≠ '²' := by
  constructor <;> rintro rfl <;> cases hy

theorem ne_two_of_mem {y : Char} (hy : y ∈ ['·', '/', '1']) : y ≠ '2' ∧ y ≠ '²' := by
  constructor <;> rintro rfl <;> exact absurd hy (by decide)

theorem not_mem_names_of_eq (hc : Known c) (hsign : HasSign (composeSymbol c).toList) :
    (composeSymbol c).toList ∉ names := by
  have hending : "" ∈ endings := by decide
  refine hc.not_mem_names hsign id (fun _ _ => rfl) (fun x hx => ?_) hending (by simp)
  rcases hx with hx | hx
  · exact ne_two_of_isMark (isMark_of_isPlainChar hx)
  · exact ne_two_of_mem hx

theorem not_mem_names_of_lower (hc : Known c) (hsign : HasSign (composeSymbol c).toList)
    {form : List Char} {ending : String} (hending : ending ∈ endings)
    (hform : Text.lower (composeSymbol c).toList = form ++ ending.toList) : form ∉ names := by
  rw [hc.lower_composeSymbol] at hform
  refine hc.not_mem_names hsign Text.lowerChar (forall_sign.2 (by decide)) (fun x hx => ?_)
    hending hform
  rcases hx with hx | hx
  · simp only [isPlainChar, Bool.and_eq_true, Bool.not_eq_true'] at hx
    exact ne_two_of_isMark hx.1.2
  · have hsame : Text.lowerChar x = x := by
      simp only [List.mem_cons, List.not_mem_nil, or_false] at hx
      rcases hx with rfl | rfl | rfl <;> decide
    rw [hsame]
    exact ne_two_of_mem hx

/-- A symbol is the plural of that of a product only as `km/hs`. -/
theorem ne_plural (hc : Known c) (hplural : composeSymbol c ≠ "km/hs") {s : String}
    (hs : s ∈ composed) : composeSymbol c ≠ s ++ "s" := by
  intro hsymbol
  have hread := (composed_checked s hs).2 (hsymbol ▸ hplural)
  rw [← hsymbol, readSymbol_composeSymbol hc.plainNames.unmistakableNames] at hread
  rcases hread with hread | hss
  · exact hread (toList_composeSymbol c).symm
  · obtain ⟨-, hentry⟩ := Exponents.mem_below.1 hss
    obtain ⟨u, hu, hsymbol⟩ := hc.exists_baseUnits (List.mem_map_of_mem hentry)
    exact ss_not_mem hu hsymbol

end Known

end Catalogue

end Reckoner
