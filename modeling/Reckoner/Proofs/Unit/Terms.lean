import Reckoner.Proofs.Text.Lower
import Reckoner.Proofs.Text.Numerals
import Reckoner.Proofs.Text.Split
import Reckoner.Proofs.Unit.Symbol
import Reckoner.Unit.Expression

/-!
# The terms of a symbol

A composed symbol is a text of terms, each a name with an exponent: those above the slash, joined by
`·`, and those below it. If no name has a sign of such a text in it, or is the 1 that stands above an
empty fraction (`IsUnmistakable`), the text is taken apart into its terms again:

    readSymbol (symbolChars above below) = (above, below)

So components with one symbol are the same (`composeSymbol_eq_iff`), whatever other characters their
names have. Names of plain characters (`IsPlain`) have none of the marks that a reader of unit
expressions looks for.
-/

namespace Reckoner

open Dimension (termText)

/-! ## Plain names -/

/-- The characters that unit expressions are put together with: signs, digits, blanks. -/
def isMark (c : Char) : Bool :=
  c == '·' || c == '/' || c == '^' || c == '*' || c.isDigit || Text.isBlank c || isSuperscript c

/-- A character that is no mark, in lower case neither. -/
def isPlainChar (c : Char) : Bool :=
  !isMark c && !isMark (Text.lowerChar c) && decide (Text.IsSimple c)

/-- A name of plain characters. -/
def IsPlain (name : String) : Prop := name ≠ "" ∧ ∀ c ∈ name.toList, isPlainChar c = true

instance (name : String) : Decidable (IsPlain name) :=
  @instDecidableAnd _ _ _ (List.decidableBAll _ name.toList)

theorem isMark_of_isPlainChar {c : Char} (h : isPlainChar c = true) : isMark c = false := by
  simp only [isPlainChar, Bool.and_eq_true, Bool.not_eq_true'] at h
  exact h.1.1

theorem isSimple_of_isPlainChar {c : Char} (h : isPlainChar c = true) : Text.IsSimple c := by
  simp only [isPlainChar, Bool.and_eq_true, decide_eq_true_eq] at h
  exact h.2

/-- A class of marks other than those of an exponent, at which terms are not cut. -/
structure IsSeparator (p : Char → Bool) : Prop where
  plain : ∀ c : Char, isPlainChar c = true → p c = false
  caret : p '^' = false
  digit : Text.DigitFree p

/-- Plain characters are no marks. -/
theorem ne_of_isPlainChar {mark c : Char} (hmark : isMark mark = true)
    (h : isPlainChar c = true) : c ≠ mark := by
  rintro rfl
  rw [isMark_of_isPlainChar h] at hmark
  cases hmark

theorem isSeparator_beq {mark : Char} (hmark : isMark mark = true) (hcaret : mark ≠ '^')
    (hdigit : mark.isDigit = false) : IsSeparator (· == mark) where
  plain _ hc := beq_false_of_ne (ne_of_isPlainChar hmark hc)
  caret := beq_false_of_ne hcaret.symm
  digit := Text.digitFree_beq hdigit

theorem isSeparator_dot : IsSeparator (· == '·') := isSeparator_beq rfl (by decide) rfl

theorem IsSeparator.or {p q : Char → Bool} (hp : IsSeparator p) (hq : IsSeparator q) :
    IsSeparator fun c => p c || q c where
  plain c hc := by rw [hp.plain c hc, hq.plain c hc]; rfl
  caret := by rw [hp.caret, hq.caret]; rfl
  digit := hp.digit.or hq.digit

theorem isSeparator_isBlank : IsSeparator Text.isBlank where
  plain c hc := by
    have hmark := isMark_of_isPlainChar hc
    simp only [isMark, Bool.or_eq_false_iff] at hmark
    exact hmark.1.2
  caret := rfl
  digit := Text.digitFree_isBlank

theorem IsPlain.isAtomic {name : String} (h : IsPlain name) : IsAtomic name := by
  refine ⟨h.1, fun sign hsign => ?_⟩
  have hplain := h.2 sign hsign
  exact ⟨ne_of_isPlainChar rfl hplain, ne_of_isPlainChar rfl hplain, ne_of_isPlainChar rfl hplain⟩

/-- A name that is told from the signs of a symbol, and from the 1 above an empty fraction. -/
def IsUnmistakable (name : String) : Prop := IsAtomic name ∧ name ≠ "1"

instance (name : String) : Decidable (IsUnmistakable name) :=
  inferInstanceAs (Decidable (IsAtomic name ∧ name ≠ "1"))

theorem IsPlain.isUnmistakable {name : String} (h : IsPlain name) : IsUnmistakable name := by
  refine ⟨h.isAtomic, ?_⟩
  rintro rfl
  exact absurd (h.2 '1' (by decide)) (by decide)

/-! ## Terms -/

/-- The text of a name with an exponent. -/
def termChars (t : String × Nat) : List Char := (termText t.1 t.2).toList

/-- A plain name with a positive exponent. -/
structure IsTerm (t : String × Nat) : Prop where
  name : IsPlain t.1
  pos : 0 < t.2

/-- The name and the exponent of a term. -/
def readTerm (cs : List Char) : String × Nat :=
  match Text.cutFirst? (· == '^') cs with
  | some (name, exponent) => (String.ofList name, Text.digitsValue exponent)
  | none => (String.ofList cs, 1)

section

variable {p : Char → Bool} {t : String × Nat} {ts above below : List (String × Nat)} {c : Char}

theorem termChars_eq (name : String) (k : Nat) :
    termChars (name, k) =
      if k = 1 then name.toList else name.toList ++ '^' :: Text.decimalDigits k := by
  have hdigits : (Text.decimalInt (k : Int)).toList = Text.decimalDigits k := by
    rw [Text.toList_decimalInt, if_neg (by omega), Int.natAbs_natCast]
  unfold termChars termText
  by_cases hk : k = 1
  · simp [hk]
  · rw [if_neg (by omega), if_neg hk, String.toList_append, String.toList_append, hdigits,
      List.append_assoc]
    rfl

/-- A term is not cut at characters that neither its name nor an exponent has. -/
theorem forall_mem_termChars (hcaret : p '^' = false) (hdigit : Text.DigitFree p)
    (hname : ∀ c ∈ t.1.toList, p c = false) : ∀ c ∈ termChars t, p c = false := by
  rw [termChars_eq t.1 t.2]
  split
  · exact hname
  · rw [List.forall_mem_append, List.forall_mem_cons]
    exact ⟨hname, hcaret, hdigit.not_mem (Text.denotes_decimalDigits t.2)⟩

theorem IsTerm.forall_mem (h : IsTerm t) (hp : IsSeparator p) : ∀ c ∈ termChars t, p c = false :=
  forall_mem_termChars hp.caret hp.digit fun c hc => hp.plain c (h.name.2 c hc)

theorem dot_not_mem_termChars (h : IsAtomic t.1) : ∀ c ∈ termChars t, (c == '·') = false :=
  forall_mem_termChars rfl (Text.digitFree_beq rfl) fun c hc => beq_false_of_ne (h.2 c hc).1

theorem slash_not_mem_termChars (h : IsAtomic t.1) : ∀ c ∈ termChars t, (c == '/') = false :=
  forall_mem_termChars rfl (Text.digitFree_beq rfl) fun c hc => beq_false_of_ne (h.2 c hc).2.1

/-- The mark of an exponent stands behind the name, if there is an exponent. -/
theorem cutFirst?_termChars (h : IsAtomic t.1) :
    Text.cutFirst? (· == '^') (termChars t) =
      if t.2 = 1 then none else some (t.1.toList, Text.decimalDigits t.2) := by
  have hname : ∀ c ∈ t.1.toList, (c == '^') = false := fun c hc => beq_false_of_ne (h.2 c hc).2.2
  rw [termChars_eq t.1 t.2]
  split
  · exact Text.cutFirst?_eq_none hname
  · exact Text.cutFirst?_append_cons hname rfl

theorem readTerm_termChars (h : IsAtomic t.1) : readTerm (termChars t) = t := by
  obtain ⟨name, k⟩ := t
  rw [readTerm, cutFirst?_termChars h]
  by_cases hk : k = 1
  · subst hk
    rw [if_pos rfl, termChars_eq, if_pos rfl, String.ofList_toList]
  · rw [if_neg hk]
    simp only [(Text.denotes_decimalDigits k).value, String.ofList_toList]

theorem termChars_ne_nil (h : IsAtomic t.1) : termChars t ≠ [] := by
  have hname : t.1.toList ≠ [] := fun hnil => h.1 (String.toList_eq_nil_iff.1 hnil)
  rw [termChars_eq t.1 t.2]
  split
  · exact hname
  · exact List.append_ne_nil_of_left_ne_nil hname _

theorem termChars_ne_one (h : IsUnmistakable t.1) : termChars t ≠ ['1'] := by
  intro hone
  have hterm := readTerm_termChars h.1
  rw [hone] at hterm
  exact h.2 (congrArg Prod.fst hterm.symm)

/-- The characters of a term are plain unless it has an exponent. -/
theorem IsTerm.plain_or_caret (h : IsTerm t) (hc : c ∈ termChars t) :
    isPlainChar c = true ∨ '^' ∈ termChars t := by
  rw [termChars_eq t.1 t.2] at hc ⊢
  split at hc
  · exact .inl (h.name.2 c hc)
  · next hk =>
    rw [if_neg hk]
    exact .inr (List.mem_append_right _ (.head _))

/-! ## Products of terms -/

/-- The text of terms joined by `·`. -/
def joinedChars (ts : List (String × Nat)) : List Char := ['·'].intercalate (ts.map termChars)

/-- The terms of a text joined by `·`. -/
def readTerms (cs : List Char) : List (String × Nat) :=
  if cs = [] then [] else (Text.splitAll (· == '·') cs).map readTerm

theorem joinedChars_ne_nil (hne : ts ≠ []) (h : ∀ t ∈ ts, IsAtomic t.1) : joinedChars ts ≠ [] := by
  obtain ⟨t, ht⟩ := List.exists_mem_of_ne_nil ts hne
  obtain ⟨c, hc⟩ := List.exists_mem_of_ne_nil _ (termChars_ne_nil (h t ht))
  exact List.ne_nil_of_mem (Text.mem_intercalate (List.mem_map_of_mem ht) hc)

/-- Terms that are joined are cut apart at any class of characters with `·` in it that they do not
have themselves. -/
theorem splitAll_joinedChars (hdot : p '·' = true) (hne : ts ≠ [])
    (h : ∀ t ∈ ts, ∀ c ∈ termChars t, p c = false) :
    Text.splitAll p (joinedChars ts) = ts.map termChars := by
  apply Text.splitAll_intercalate hdot
  · simpa using hne
  · rintro part hpart
    obtain ⟨t, ht, rfl⟩ := List.mem_map.1 hpart
    exact h t ht

theorem readTerms_joinedChars (h : ∀ t ∈ ts, IsAtomic t.1) : readTerms (joinedChars ts) = ts := by
  by_cases hne : ts = []
  · subst hne
    rfl
  · rw [readTerms, if_neg (joinedChars_ne_nil hne h),
      splitAll_joinedChars rfl hne fun t ht => dot_not_mem_termChars (h t ht), List.map_map]
    refine (List.map_congr_left fun t ht => ?_).trans (List.map_id ts)
    exact readTerm_termChars (h t ht)

theorem forall_mem_joinedChars (hdot : p '·' = false)
    (h : ∀ t ∈ ts, ∀ c ∈ termChars t, p c = false) : ∀ c ∈ joinedChars ts, p c = false := by
  refine Text.forall_mem_intercalate (q := fun c => p c = false) hdot ?_
  rintro part hpart
  obtain ⟨t, ht, rfl⟩ := List.mem_map.1 hpart
  exact h t ht

theorem slash_not_mem_joinedChars (h : ∀ t ∈ ts, IsAtomic t.1) :
    ∀ c ∈ joinedChars ts, (c == '/') = false :=
  forall_mem_joinedChars rfl fun t ht => slash_not_mem_termChars (h t ht)

theorem plain_or_caret_joinedChars (h : ∀ t ∈ ts, IsTerm t) (hc : c ∈ joinedChars ts) :
    isPlainChar c = true ∨ c = '·' ∨ '^' ∈ joinedChars ts := by
  revert c hc
  apply Text.forall_mem_intercalate
  · exact .inr (.inl rfl)
  · rintro part hpart c hc
    obtain ⟨t, ht, rfl⟩ := List.mem_map.1 hpart
    refine ((h t ht).plain_or_caret hc).imp id fun hcaret => .inr ?_
    exact Text.mem_intercalate hpart hcaret

/-! ## Quotients of products -/

/-- The text in front of a slash. -/
def numeratorChars (above : List (String × Nat)) : List Char :=
  if above = [] then ['1'] else joinedChars above

/-- The text of a symbol. -/
def symbolChars (above below : List (String × Nat)) : List Char :=
  if below = [] then joinedChars above else numeratorChars above ++ '/' :: joinedChars below

/-- The terms of a symbol above and below the slash. -/
def readSymbol (cs : List Char) : List (String × Nat) × List (String × Nat) :=
  match Text.cutFirst? (· == '/') cs with
  | none => (readTerms cs, [])
  | some (above, below) => (if above = ['1'] then [] else readTerms above, readTerms below)

theorem numeratorChars_eq_one_iff (h : ∀ t ∈ above, IsUnmistakable t.1) :
    numeratorChars above = ['1'] ↔ above = [] := by
  unfold numeratorChars
  refine ⟨fun hone => ?_, fun hnil => if_pos hnil⟩
  by_contra hne
  rw [if_neg hne] at hone
  have hterms : [("1", 1)] = above := by
    rw [← readTerms_joinedChars fun t ht => (h t ht).1, hone]
    rfl
  exact (h ("1", 1) (by simp [← hterms])).2 rfl

theorem slash_not_mem_numeratorChars (h : ∀ t ∈ above, IsAtomic t.1) :
    ∀ c ∈ numeratorChars above, (c == '/') = false := by
  unfold numeratorChars
  split
  · simp
  · exact slash_not_mem_joinedChars h

/-- A symbol is cut at its slash. -/
theorem cutFirst?_symbolChars (ha : ∀ t ∈ above, IsAtomic t.1) :
    Text.cutFirst? (· == '/') (symbolChars above below) =
      if below = [] then none else some (numeratorChars above, joinedChars below) := by
  unfold symbolChars
  split
  · exact Text.cutFirst?_eq_none (slash_not_mem_joinedChars ha)
  · exact Text.cutFirst?_append_cons (slash_not_mem_numeratorChars ha) rfl

theorem splitAll_symbolChars (ha : ∀ t ∈ above, IsAtomic t.1) (hb : ∀ t ∈ below, IsAtomic t.1) :
    Text.splitAll (· == '/') (symbolChars above below) =
      if below = [] then [joinedChars above] else [numeratorChars above, joinedChars below] := by
  unfold symbolChars
  split
  · exact Text.splitAll_eq_singleton (slash_not_mem_joinedChars ha)
  · rw [Text.splitAll_append_cons (slash_not_mem_numeratorChars ha) rfl,
      Text.splitAll_eq_singleton (slash_not_mem_joinedChars hb)]

/-- **A symbol is taken apart into its terms.** -/
theorem readSymbol_symbolChars (ha : ∀ t ∈ above, IsUnmistakable t.1)
    (hb : ∀ t ∈ below, IsUnmistakable t.1) :
    readSymbol (symbolChars above below) = (above, below) := by
  have habove : ∀ t ∈ above, IsAtomic t.1 := fun t ht => (ha t ht).1
  have hbelow : ∀ t ∈ below, IsAtomic t.1 := fun t ht => (hb t ht).1
  rw [readSymbol, cutFirst?_symbolChars habove]
  by_cases hnil : below = []
  · subst hnil
    rw [if_pos rfl, symbolChars, if_pos rfl]
    simp only [readTerms_joinedChars habove]
  · rw [if_neg hnil]
    simp only [numeratorChars_eq_one_iff ha, readTerms_joinedChars hbelow]
    by_cases hnil' : above = []
    · rw [if_pos hnil', hnil']
    · rw [if_neg hnil', numeratorChars, if_neg hnil', readTerms_joinedChars habove]

/-- The characters of a symbol are those of its terms, its signs and perhaps a 1. -/
theorem forall_mem_symbolChars (hp : IsSeparator p) (hdot : p '·' = false) (hslash : p '/' = false)
    (ha : ∀ t ∈ above, IsTerm t) (hb : ∀ t ∈ below, IsTerm t) :
    ∀ c ∈ symbolChars above below, p c = false := by
  have hjoined : ∀ {ts : List (String × Nat)}, (∀ t ∈ ts, IsTerm t) →
      ∀ c ∈ joinedChars ts, p c = false :=
    fun hts => forall_mem_joinedChars hdot fun t ht => (hts t ht).forall_mem hp
  unfold symbolChars numeratorChars
  split
  · exact hjoined ha
  · rw [List.forall_mem_append, List.forall_mem_cons]
    refine ⟨?_, hslash, hjoined hb⟩
    split
    · simpa using hp.digit '1' rfl
    · exact hjoined ha

/-- The digits of a symbol, the 1 above the slash apart, are those of exponents. -/
theorem plain_or_caret_symbolChars (ha : ∀ t ∈ above, IsTerm t) (hb : ∀ t ∈ below, IsTerm t)
    (hc : c ∈ symbolChars above below) :
    isPlainChar c = true ∨ c ∈ ['·', '/', '1'] ∨ '^' ∈ symbolChars above below := by
  have hjoined : ∀ {ts : List (String × Nat)}, (∀ t ∈ ts, IsTerm t) →
      (∀ x ∈ joinedChars ts, x ∈ symbolChars above below) → c ∈ joinedChars ts →
      isPlainChar c = true ∨ c ∈ ['·', '/', '1'] ∨ '^' ∈ symbolChars above below := by
    intro ts hts hsub hc
    rcases plain_or_caret_joinedChars hts hc with hplain | rfl | hcaret
    · exact .inl hplain
    · exact .inr (.inl (by decide))
    · exact .inr (.inr (hsub _ hcaret))
  by_cases hbelow : below = []
  · have hsymbol : symbolChars above below = joinedChars above := if_pos hbelow
    rw [hsymbol] at hc
    exact hjoined ha (fun x hx => hsymbol ▸ hx) hc
  · have hsymbol : symbolChars above below = numeratorChars above ++ '/' :: joinedChars below :=
      if_neg hbelow
    rw [hsymbol] at hc
    rcases List.mem_append.1 hc with hc | hc
    · by_cases habove : above = []
      · rw [numeratorChars, if_pos habove] at hc
        obtain rfl := List.mem_singleton.1 hc
        exact .inr (.inl (by decide))
      · have hnumerator : numeratorChars above = joinedChars above := if_neg habove
        rw [hnumerator] at hc hsymbol
        exact hjoined ha (fun x hx => hsymbol ▸ List.mem_append_left _ hx) hc
    · rcases List.mem_cons.1 hc with rfl | hc
      · exact .inr (.inl (by decide))
      · exact hjoined hb (fun x hx => hsymbol ▸ List.mem_append_right _ (.tail _ hx)) hc

end

/-! ## Components -/

namespace Exponents

/-- The entries whose exponents are of one sign, without that sign. -/
def terms (keep : Int → Bool) (c : Exponents) : List (String × Nat) :=
  (c.entries.filter fun e => keep e.2).map fun e => (e.1, e.2.natAbs)

/-- The terms above the slash. -/
def above (c : Exponents) : List (String × Nat) := c.terms (0 < ·)

/-- The terms below the slash. -/
def below (c : Exponents) : List (String × Nat) := c.terms (· < 0)

variable {a b c : Exponents} {name : String} {k : Nat}

theorem mem_above : (name, k) ∈ c.above ↔ 0 < k ∧ (name, (k : Int)) ∈ c.entries := by
  simp only [above, terms, List.mem_map, List.mem_filter, decide_eq_true_eq, Prod.mk.injEq]
  constructor
  · rintro ⟨⟨name, e⟩, ⟨he, hpos⟩, rfl, rfl⟩
    have habs : e = ((e.natAbs : Nat) : Int) := by omega
    rw [habs] at he
    exact ⟨by omega, he⟩
  · rintro ⟨hk, he⟩
    exact ⟨_, ⟨he, by omega⟩, rfl, rfl⟩

theorem mem_below : (name, k) ∈ c.below ↔ 0 < k ∧ (name, -(k : Int)) ∈ c.entries := by
  simp only [below, terms, List.mem_map, List.mem_filter, decide_eq_true_eq, Prod.mk.injEq]
  constructor
  · rintro ⟨⟨name, e⟩, ⟨he, hneg⟩, rfl, rfl⟩
    have habs : e = -((e.natAbs : Nat) : Int) := by omega
    rw [habs] at he
    exact ⟨by omega, he⟩
  · rintro ⟨hk, he⟩
    exact ⟨_, ⟨he, by omega⟩, rfl, by omega⟩

theorem mem_names_of_terms {keep : Int → Bool} {t : String × Nat} (ht : t ∈ c.terms keep) :
    t.1 ∈ c.names := by
  obtain ⟨e, he, rfl⟩ := List.mem_map.1 ht
  exact List.mem_map_of_mem (List.mem_filter.1 he).1

/-- Reduced components are determined by their terms. -/
theorem Reduced.ext_terms (ha : a.Reduced) (hb : b.Reduced) (habove : a.above = b.above)
    (hbelow : a.below = b.below) : a = b := by
  apply ext_mem
  rintro ⟨name, e⟩
  rcases Int.lt_trichotomy e 0 with hneg | rfl | hpos
  · have hterm : -((e.natAbs : Nat) : Int) = e := by omega
    have hmem : ∀ m : Exponents, (name, e) ∈ m.entries ↔ (name, e.natAbs) ∈ m.below := by
      intro m
      rw [mem_below, hterm]
      exact (and_iff_right (by omega)).symm
    rw [hmem, hmem, hbelow]
  · exact iff_of_false (fun h => ha _ h rfl) (fun h => hb _ h rfl)
  · have hterm : ((e.natAbs : Nat) : Int) = e := by omega
    have hmem : ∀ m : Exponents, (name, e) ∈ m.entries ↔ (name, e.natAbs) ∈ m.above := by
      intro m
      rw [mem_above, hterm]
      exact (and_iff_right (by omega)).symm
    rw [hmem, hmem, habove]

end Exponents

theorem toList_intercalate_terms (ts : List (String × Nat)) :
    ("·".intercalate (ts.map fun t => termText t.1 t.2)).toList = joinedChars ts := by
  rw [String.toList_intercalate, List.map_map]
  rfl

/-- The text of a composed symbol. -/
theorem toList_composeSymbol (c : Exponents) :
    (composeSymbol c).toList = symbolChars c.above c.below := by
  have habove : ((c.entries.filter fun e => decide (0 < e.2)).map fun e =>
      termText e.1 e.2.natAbs) = c.above.map fun t => termText t.1 t.2 := by
    rw [Exponents.above, Exponents.terms, List.map_map]
    rfl
  have hbelow : ((c.entries.filter fun e => decide (e.2 < 0)).map fun e =>
      termText e.1 e.2.natAbs) = c.below.map fun t => termText t.1 t.2 := by
    rw [Exponents.below, Exponents.terms, List.map_map]
    rfl
  simp only [composeSymbol, habove, hbelow, List.isEmpty_map, List.isEmpty_iff]
  rw [symbolChars, numeratorChars]
  split
  · exact toList_intercalate_terms _
  · split
    · rw [String.toList_append, toList_intercalate_terms]
      rfl
    · rw [String.toList_append, String.toList_append, toList_intercalate_terms,
        toList_intercalate_terms, List.append_assoc]
      rfl

namespace Exponents

/-- All names are plain. -/
def PlainNames (c : Exponents) : Prop := ∀ name ∈ c.names, IsPlain name

variable {a b c : Exponents}

theorem PlainNames.above (h : c.PlainNames) : ∀ t ∈ c.above, IsTerm t := by
  rintro ⟨name, k⟩ ht
  obtain ⟨hpos, hentry⟩ := mem_above.1 ht
  exact ⟨h name (List.mem_map_of_mem hentry), hpos⟩

theorem PlainNames.below (h : c.PlainNames) : ∀ t ∈ c.below, IsTerm t := by
  rintro ⟨name, k⟩ ht
  obtain ⟨hpos, hentry⟩ := mem_below.1 ht
  exact ⟨h name (List.mem_map_of_mem hentry), hpos⟩

/-- All names are told from the signs of a symbol. -/
def UnmistakableNames (c : Exponents) : Prop := ∀ name ∈ c.names, IsUnmistakable name

instance (c : Exponents) : Decidable c.UnmistakableNames :=
  inferInstanceAs (Decidable (∀ name ∈ c.names, IsUnmistakable name))

theorem PlainNames.unmistakableNames (h : c.PlainNames) : c.UnmistakableNames :=
  fun name hname => (h name hname).isUnmistakable

end Exponents

section

variable {a b c : Exponents}

/-- The symbol of components is taken apart into their terms. -/
theorem readSymbol_composeSymbol (hc : c.UnmistakableNames) :
    readSymbol (composeSymbol c).toList = (c.above, c.below) := by
  rw [toList_composeSymbol]
  exact readSymbol_symbolChars (fun t ht => hc t.1 (Exponents.mem_names_of_terms ht))
    fun t ht => hc t.1 (Exponents.mem_names_of_terms ht)

/-- Components with one symbol have the same terms above the slash and below it. -/
theorem terms_eq_of_composeSymbol (ha : a.UnmistakableNames) (hb : b.UnmistakableNames)
    (h : composeSymbol a = composeSymbol b) : a.above = b.above ∧ a.below = b.below := by
  have hterms : (a.above, a.below) = (b.above, b.below) := by
    rw [← readSymbol_composeSymbol ha, h, readSymbol_composeSymbol hb]
  exact Prod.mk.inj hterms

/-- The symbol determines the components, if their names are plain. -/
theorem composeSymbol_inj (ha : a.Reduced) (hb : b.Reduced) (hplain : a.PlainNames)
    (hplain' : b.PlainNames) (h : composeSymbol a = composeSymbol b) : a = b := by
  obtain ⟨habove, hbelow⟩ :=
    terms_eq_of_composeSymbol hplain.unmistakableNames hplain'.unmistakableNames h
  exact ha.ext_terms hb habove hbelow

/-- **Components with one symbol are the same.** No exponent may be 0, since a name without an
exponent is not written, and no name may be taken for a part of the text around it. -/
theorem composeSymbol_eq_iff (ha : a.Reduced) (hb : b.Reduced) (hnames : a.UnmistakableNames)
    (hnames' : b.UnmistakableNames) : composeSymbol a = composeSymbol b ↔ a = b := by
  constructor
  · intro h
    obtain ⟨habove, hbelow⟩ := terms_eq_of_composeSymbol hnames hnames' h
    exact ha.ext_terms hb habove hbelow
  · rintro rfl
    rfl

/-- A unit called `m2` is told from the square of the metre, per least power of one called `11`. -/
theorem composeSymbol_of_numbered_names :
    let a : Exponents := ⟨[("11", -2 ^ 31), ("m2", 1)], by decide, by decide⟩
    let b : Exponents := ⟨[("11", -2 ^ 31), ("m", 2)], by decide, by decide⟩
    a.Reduced ∧ b.Reduced ∧ a.UnmistakableNames ∧ b.UnmistakableNames ∧
      composeSymbol a ≠ composeSymbol b := by
  intro a b
  have ha : a.Reduced := by simp [a, Exponents.Reduced]
  have hb : b.Reduced := by simp [b, Exponents.Reduced]
  have hnames : a.UnmistakableNames := by decide
  have hnames' : b.UnmistakableNames := by decide
  refine ⟨ha, hb, hnames, hnames', fun hsymbol => ?_⟩
  have hequal : a = b := (composeSymbol_eq_iff ha hb hnames hnames').1 hsymbol
  exact absurd (congrArg Exponents.entries hequal) (by decide)

end

end Reckoner
