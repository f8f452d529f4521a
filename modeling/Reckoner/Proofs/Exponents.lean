import Reckoner.Unit.Exponents
import Mathlib.Algebra.BigOperators.Group.List.Basic
import Mathlib.Algebra.Group.Int.TypeTags
import Mathlib.Data.List.Nodup

/-!
# Exponent maps as monomials

Read every name as an element of a commutative group; then a map of exponents is the product of the
powers of its names, its `monomial`. Adding, subtracting and scaling maps multiplies, divides and
raises the monomials:

    monomial f (a + b) = monomial f a * monomial f b

The group is a parameter. In the integers under addition a monomial is a sum `∑ e * f name`, and the
exponent of a single name is such a sum (`Exponents.get_eq_monomial`); in the rationals it is a
product of powers. A name may not be read as 0 there, which `AddsUp` rules out.
-/

namespace Reckoner

variable {M : Type} [DivisionCommMonoid M] {f : String → M}

/-- The product of the powers of the names. -/
def monomial (f : String → M) (entries : List (String × Int)) : M :=
  (entries.map fun e => f e.1 ^ e.2).prod

/-- The exponents of a name add up in the product of its powers. -/
def AddsUp (f : String → M) : Prop :=
  ∀ (name : String) (m n : Int), f name ^ (m + n) = f name ^ m * f name ^ n

@[simp]
theorem monomial_nil : monomial f [] = 1 := rfl

@[simp]
theorem monomial_cons (e : String × Int) (entries : List (String × Int)) :
    monomial f (e :: entries) = f e.1 ^ e.2 * monomial f entries := by
  simp only [monomial, List.map_cons, List.prod_cons]

theorem monomial_eq_one {entries : List (String × Int)} (h : ∀ e ∈ entries, f e.1 ^ e.2 = 1) :
    monomial f entries = 1 := by
  induction entries with
  | nil => rfl
  | cons e rest ih =>
    obtain ⟨he, hrest⟩ := List.forall_mem_cons.1 h
    rw [monomial_cons, he, ih hrest, one_mul]

/-- Adding to the exponent of one name multiplies by a power of it. -/
theorem monomial_adjustEntries (hf : AddsUp f) (name : String) (n : Int)
    (entries : List (String × Int)) :
    monomial f (adjustEntries name (· + n) entries) = monomial f entries * f name ^ n := by
  induction entries with
  | nil => rw [adjustEntries, monomial_cons, zero_add, mul_comm]
  | cons entry rest ih =>
    obtain ⟨other, e⟩ := entry
    rw [adjustEntries]
    split
    · rw [monomial_cons, zero_add, mul_comm]
    · split
      · next heq =>
        subst heq
        simp only [monomial_cons]
        rw [hf, mul_right_comm]
      · rw [monomial_cons, monomial_cons, ih, mul_assoc]

theorem monomial_adjustAll (hf : AddsUp f) (changes entries : List (String × Int)) :
    monomial f (adjustAll (· + ·) changes entries) = monomial f entries * monomial f changes := by
  induction changes generalizing entries with
  | nil => rw [monomial_nil, mul_one]; rfl
  | cons c changes ih =>
    show monomial f (adjustAll (· + ·) changes (adjustEntries c.1 (· + c.2) entries)) = _
    rw [ih, monomial_adjustEntries hf, monomial_cons, mul_assoc]

/-- Subtracting changes is adding their negatives. -/
theorem adjustAll_sub (changes entries : List (String × Int)) :
    adjustAll (· - ·) changes entries =
      adjustAll (· + ·) (changes.map fun c => (c.1, -c.2)) entries := by
  simp only [adjustAll, List.foldl_map, Int.sub_eq_add_neg]

theorem monomial_map_neg (entries : List (String × Int)) :
    monomial f (entries.map fun e => (e.1, -e.2)) = (monomial f entries)⁻¹ := by
  induction entries with
  | nil => exact inv_one.symm
  | cons e rest ih => rw [List.map_cons, monomial_cons, monomial_cons, ih, mul_inv, zpow_neg]

theorem monomial_map_mul (n : Int) (entries : List (String × Int)) :
    monomial f (entries.map fun e => (e.1, e.2 * n)) = monomial f entries ^ n := by
  induction entries with
  | nil => exact (one_zpow n).symm
  | cons e rest ih => rw [List.map_cons, monomial_cons, monomial_cons, ih, mul_zpow, zpow_mul]

namespace Exponents

variable {a b c m : Exponents}

theorem ofEntries?_eq_some {entries : List (String × Int)} {h : Ascending entries}
    (hm : ofEntries? entries h = some m) : m.entries = entries := by
  unfold ofEntries? at hm
  split at hm
  · cases hm
    rfl
  · cases hm

theorem monomial_dropZeros (entries : List (String × Int)) :
    monomial f (dropZeros entries) = monomial f entries := by
  induction entries with
  | nil => rfl
  | cons e rest ih =>
    by_cases he : e.2 = 0
    · rw [dropZeros, List.filter_cons_of_neg (by simp [he]), monomial_cons, he, zpow_zero, one_mul]
      exact ih
    · rw [dropZeros, List.filter_cons_of_pos (by simp [he]), monomial_cons, monomial_cons]
      exact congrArg _ ih

/-! ## The algebra of maps -/

theorem monomial_add (hf : AddsUp f) (h : a.add b = some c) :
    monomial f c.entries = monomial f a.entries * monomial f b.entries := by
  rw [ofEntries?_eq_some h, monomial_dropZeros, monomial_adjustAll hf]

theorem monomial_sub (hf : AddsUp f) (h : a.sub b = some c) :
    monomial f c.entries = monomial f a.entries / monomial f b.entries := by
  rw [ofEntries?_eq_some h, monomial_dropZeros, adjustAll_sub, monomial_adjustAll hf,
    monomial_map_neg, div_eq_mul_inv]

theorem monomial_scale {n : Int} (h : a.scale n = some c) :
    monomial f c.entries = monomial f a.entries ^ n := by
  rw [ofEntries?_eq_some h, monomial_dropZeros, monomial_map_mul]

/-- The multiples of a root are its base. -/
theorem map_mul_root {n : Int} (h : a.root n = some b) :
    (b.entries.map fun e => (e.1, e.2 * n)) = a.entries := by
  unfold root at h
  split at h
  · next hdivides =>
    rw [ofEntries?_eq_some h, List.map_map]
    refine (List.map_congr_left fun e he => ?_).trans (List.map_id _)
    have he := List.all_eq_true.1 hdivides e he
    simp only [Bool.and_eq_true, beq_iff_eq] at he
    exact Prod.ext rfl (Int.tdiv_mul_cancel (Int.dvd_of_tmod_eq_zero he.2))
  · cases h

theorem monomial_root {n : Int} (h : a.root n = some b) :
    monomial f a.entries = monomial f b.entries ^ n := by
  rw [← map_mul_root h, monomial_map_mul]

/-! ## Single exponents -/

/-- The names read as integers under addition: 1 for the given one, 0 for any other. -/
def indicator (name other : String) : Multiplicative Int :=
  .ofAdd (if other = name then 1 else 0)

theorem addsUp_of_group {G : Type} [CommGroup G] (f : String → G) : AddsUp f :=
  fun name m n => zpow_add (f name) m n

theorem lookup_eq_monomial {name : String} {entries : List (String × Int)}
    (h : Ascending entries) :
    Multiplicative.ofAdd ((entries.lookup name).getD 0) = monomial (indicator name) entries := by
  induction entries with
  | nil => rfl
  | cons entry rest ih =>
    obtain ⟨other, e⟩ := entry
    obtain ⟨hall, hrest⟩ := List.pairwise_cons.1 h
    rw [List.lookup_cons, monomial_cons]
    by_cases hname : other = name
    · -- The names ascend, so that no later entry is one of `name`.
      subst hname
      have hlater : monomial (indicator other) rest = 1 := by
        apply monomial_eq_one
        intro x hx
        have hne : x.1 ≠ other := fun heq => String.lt_irrefl other (heq ▸ hall x hx)
        rw [indicator, if_neg hne, ofAdd_zero, one_zpow]
      rw [hlater, mul_one, indicator, if_pos rfl, ← ofAdd_zsmul]
      simp
    · have hskip : (name == other) = false := beq_false_of_ne (Ne.symm hname)
      rw [hskip, indicator, if_neg hname, ofAdd_zero, one_zpow, one_mul]
      exact ih hrest

theorem get_eq_monomial (m : Exponents) (name : String) :
    Multiplicative.ofAdd (m.get name) = monomial (indicator name) m.entries :=
  lookup_eq_monomial m.ascending

@[simp]
theorem get_empty (name : String) : empty.get name = 0 := rfl

theorem get_add (h : a.add b = some c) (name : String) : c.get name = a.get name + b.get name := by
  apply Multiplicative.ofAdd.injective
  rw [ofAdd_add, get_eq_monomial, get_eq_monomial, get_eq_monomial,
    monomial_add (addsUp_of_group _) h]

theorem get_sub (h : a.sub b = some c) (name : String) : c.get name = a.get name - b.get name := by
  apply Multiplicative.ofAdd.injective
  rw [ofAdd_sub, get_eq_monomial, get_eq_monomial, get_eq_monomial,
    monomial_sub (addsUp_of_group _) h]

theorem get_scale {n : Int} (h : a.scale n = some c) (name : String) :
    c.get name = n * a.get name := by
  apply Multiplicative.ofAdd.injective
  rw [← Int.zsmul_eq_mul, ofAdd_zsmul, get_eq_monomial, get_eq_monomial, monomial_scale h]

theorem get_root {n : Int} (h : a.root n = some b) (name : String) :
    a.get name = n * b.get name := by
  apply Multiplicative.ofAdd.injective
  rw [← Int.zsmul_eq_mul, ofAdd_zsmul, get_eq_monomial, get_eq_monomial, monomial_root h]

theorem lookup_of_mem {entries : List (String × Int)} (h : Ascending entries) {name : String}
    {e : Int} (he : (name, e) ∈ entries) : entries.lookup name = some e := by
  induction entries with
  | nil => cases he
  | cons entry rest ih =>
    obtain ⟨hlt, hrest⟩ := List.pairwise_cons.1 h
    rcases List.mem_cons.1 he with rfl | he
    · exact List.lookup_cons_self
    · have hne : name ≠ entry.1 := fun heq => String.lt_irrefl _ (heq ▸ hlt _ he)
      rw [List.lookup_cons, beq_false_of_ne hne]
      exact ih hrest he

theorem isExponent_get (c : Exponents) (name : String) : IsExponent (c.get name) := by
  unfold get
  cases h : c.entries.lookup name with
  | none => decide
  | some e =>
    obtain ⟨before, after, hentries, -⟩ := List.lookup_eq_some_iff.1 h
    exact c.inRange (name, e) (by rw [hentries]; simp)

/-! ## Operations with a result

An operation has a result if all exponents of the result are in range. -/

theorem isSome_ofEntries? {entries : List (String × Int)} {h : Ascending entries} {k : String → Int}
    (hk : ∀ name, monomial (indicator name) entries = Multiplicative.ofAdd (k name))
    (hrange : ∀ name, IsExponent (k name)) : (ofEntries? entries h).isSome := by
  have hall : ∀ e ∈ entries, IsExponent e.2 := by
    rintro ⟨name, e⟩ he
    have hvalue : Multiplicative.ofAdd ((entries.lookup name).getD 0) = .ofAdd (k name) :=
      (lookup_eq_monomial h).trans (hk name)
    rw [lookup_of_mem h he] at hvalue
    have he' : e = k name := Multiplicative.ofAdd.injective hvalue
    rw [he']
    exact hrange name
  rw [ofEntries?, dif_pos hall]
  rfl

theorem isSome_add (h : ∀ name, IsExponent (a.get name + b.get name)) : (a.add b).isSome := by
  refine isSome_ofEntries? (fun name => ?_) h
  rw [monomial_dropZeros, monomial_adjustAll (addsUp_of_group _), ofAdd_add, get_eq_monomial,
    get_eq_monomial]

theorem isSome_sub (h : ∀ name, IsExponent (a.get name - b.get name)) : (a.sub b).isSome := by
  refine isSome_ofEntries? (fun name => ?_) h
  rw [monomial_dropZeros, adjustAll_sub, monomial_adjustAll (addsUp_of_group _), monomial_map_neg,
    ofAdd_sub, get_eq_monomial, get_eq_monomial, div_eq_mul_inv]

theorem isSome_scale {n : Int} (h : ∀ name, IsExponent (n * a.get name)) : (a.scale n).isSome := by
  refine isSome_ofEntries? (fun name => ?_) h
  rw [monomial_dropZeros, monomial_map_mul, ← Int.zsmul_eq_mul, ofAdd_zsmul, get_eq_monomial]

/-! ## The names of a map -/

/-- The names with an entry. -/
def names (m : Exponents) : List String := m.entries.map Prod.fst

theorem nodup_names (m : Exponents) : m.names.Nodup := by
  apply List.pairwise_map.2
  apply m.ascending.imp
  rintro x y hlt heq
  exact String.lt_irrefl _ (heq ▸ hlt)

/-- No entry is 0: the map is the shortest one with its exponents. -/
def Reduced (m : Exponents) : Prop := ∀ e ∈ m.entries, e.2 ≠ 0

theorem reduced_empty : empty.Reduced := by
  simp [Reduced, empty]

theorem reduced_single (name : String) : (single name).Reduced := by
  simp [Reduced, single]

theorem mem_adjustAll {op : Int → Int → Int} {changes entries : List (String × Int)}
    {x : String × Int} (h : x ∈ adjustAll op changes entries) :
    x.1 ∈ changes.map Prod.fst ∨ x ∈ entries := by
  induction changes generalizing entries with
  | nil => exact .inr h
  | cons c changes ih =>
    rcases ih h with h | h
    · exact .inl (.tail _ h)
    · rcases mem_adjustEntries h with h | h
      · exact .inl (h ▸ .head _)
      · exact .inr h

theorem reduced_of_dropZeros {entries : List (String × Int)}
    (h : m.entries = dropZeros entries) : m.Reduced := by
  intro e he
  rw [h] at he
  simpa using (List.mem_filter.1 he).2

theorem reduced_combine {op : Int → Int → Int} (h : combine op a b = some c) : c.Reduced :=
  reduced_of_dropZeros (ofEntries?_eq_some h)

theorem reduced_scale {n : Int} (h : a.scale n = some c) : c.Reduced :=
  reduced_of_dropZeros (ofEntries?_eq_some h)

/-- The entries of a reduced map are the exponents other than 0. -/
theorem Reduced.mem_iff (h : a.Reduced) {name : String} {e : Int} :
    (name, e) ∈ a.entries ↔ a.get name = e ∧ e ≠ 0 := by
  constructor
  · intro he
    refine ⟨?_, h _ he⟩
    rw [get, lookup_of_mem a.ascending he]
    rfl
  · rintro ⟨rfl, hne⟩
    unfold get at hne ⊢
    cases hlookup : a.entries.lookup name with
    | none =>
      rw [hlookup] at hne
      exact absurd rfl hne
    | some e =>
      obtain ⟨before, after, hentries, -⟩ := List.lookup_eq_some_iff.1 hlookup
      rw [hentries]
      exact List.mem_append_right _ (.head _)

/-- Maps with the same entries are equal, since entries are in order. -/
theorem ext_mem (h : ∀ x, x ∈ a.entries ↔ x ∈ b.entries) : a = b := by
  have hperm : a.entries.Perm b.entries :=
    (List.perm_ext_iff_of_nodup (List.Nodup.of_map _ a.nodup_names)
      (List.Nodup.of_map _ b.nodup_names)).2 h
  have hentries : a.entries = b.entries :=
    hperm.eq_of_pairwise (fun _ _ _ _ hlt hgt => absurd hlt (String.lt_asymm hgt)) a.ascending
      b.ascending
  obtain ⟨entries, _, _⟩ := a
  obtain ⟨entries', _, _⟩ := b
  cases hentries
  rfl

/-- Reduced maps with the same exponents are equal. -/
theorem Reduced.ext (ha : a.Reduced) (hb : b.Reduced) (h : ∀ name, a.get name = b.get name) :
    a = b := by
  apply ext_mem
  rintro ⟨name, e⟩
  rw [ha.mem_iff, hb.mem_iff, h name]

/-- The zeroth multiple has no entries. -/
theorem scale_zero (h : a.scale 0 = some c) : c = .empty := by
  have hentries := ofEntries?_eq_some h
  have hnil : c.entries = [] := by
    rw [hentries, dropZeros, List.filter_eq_nil_iff]
    intro e he
    obtain ⟨e', -, rfl⟩ := List.mem_map.1 he
    simp
  obtain ⟨entries, _, _⟩ := c
  subst hnil
  rfl

theorem mem_names_combine {op : Int → Int → Int} (h : combine op a b = some c) {name : String}
    (hname : name ∈ c.names) : name ∈ a.names ∨ name ∈ b.names := by
  obtain ⟨e, he, rfl⟩ := List.mem_map.1 hname
  rw [ofEntries?_eq_some h] at he
  rcases mem_adjustAll (List.mem_filter.1 he).1 with hb | ha
  · exact .inr hb
  · exact .inl (List.mem_map_of_mem ha)

theorem mem_names_scale {n : Int} (h : a.scale n = some c) {name : String}
    (hname : name ∈ c.names) : name ∈ a.names := by
  obtain ⟨e, he, rfl⟩ := List.mem_map.1 hname
  rw [ofEntries?_eq_some h] at he
  obtain ⟨e', he', heq⟩ := List.mem_map.1 (List.mem_filter.1 he).1
  exact List.mem_map.2 ⟨e', he', by rw [← heq]⟩

theorem get_eq_zero {name : String} (h : name ∉ a.names) : a.get name = 0 := by
  have hnone : a.entries.lookup name = none := by
    rw [List.lookup_eq_none_iff]
    intro e he
    simp only [bne_iff_ne, ne_eq]
    rintro rfl
    exact h (List.mem_map_of_mem he)
  rw [get, hnone, Option.getD_none]

/-- A root has the names of its base. -/
theorem names_root {n : Int} (h : a.root n = some b) : b.names = a.names := by
  rw [names, names, ← map_mul_root h, List.map_map]
  rfl

theorem reduced_root {n : Int} (ha : a.Reduced) (h : a.root n = some b) : b.Reduced := by
  intro e he hzero
  have hmem : (e.1, e.2 * n) ∈ a.entries := by
    rw [← map_mul_root h]
    exact List.mem_map_of_mem he
  exact ha _ hmem (by rw [hzero, Int.zero_mul])

end Exponents

end Reckoner
