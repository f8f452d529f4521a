import Reckoner.Proofs.Unit.Product
import Reckoner.Proofs.Unit.Terms

/-!
# Reading symbols

The reader of unit expressions takes a composed symbol apart at the signs it was put together with.
A term is read as the power of its name (`Registry.attains_readPower`), terms joined by `·` as their
product (`Registry.attains_readProduct`), and a symbol as the quotient of two products
(`Registry.attains_readQuotient`), provided that the names of the terms lead to their base units. It
fails only because of exponents that the reader cannot hold (`UnitTable.IsLegible`).
-/

namespace Reckoner

/-- Terms as powers. -/
def powers (ts : List (String × Nat)) : List (String × Int) := ts.map fun p => (p.1, (p.2 : Int))

theorem powers_append (ts ts' : List (String × Nat)) :
    powers (ts ++ ts') = powers ts ++ powers ts' := List.map_append

theorem names_powers (ts : List (String × Nat)) :
    (powers ts).map Prod.fst = ts.map Prod.fst := by
  rw [powers, List.map_map]
  rfl

namespace UnitTable

/-- The exponents of the terms and of all products on the way fit 32 bits. -/
structure IsLegible (t : UnitTable) (ts : List (String × Nat)) : Prop where
  exponent : ∀ p ∈ ts, p.2 < 2 ^ 31
  power : ∀ p ∈ ts, t.Fits (powers [p])
  product : ∀ front, front <+: ts → t.Fits (powers front)

end UnitTable

/-! ## Terms -/

theorem isSeparator_factors : IsSeparator fun c => c == '*' || c == '·' || c == ' ' := by
  have hstar : IsSeparator (· == '*') := isSeparator_beq rfl (by decide) rfl
  have hblank : IsSeparator (· == ' ') := isSeparator_beq rfl (by decide) rfl
  exact (hstar.or isSeparator_dot).or hblank

theorem isSuperscript_eq_false {c : Char} (h : isPlainChar c = true) : isSuperscript c = false := by
  have hmark := isMark_of_isPlainChar h
  simp only [isMark, Bool.or_eq_false_iff] at hmark
  exact hmark.2

/-- A plain name has no superscript at its end. -/
theorem splitSuperscript?_of_isPlain {name : String} (h : IsPlain name) :
    splitSuperscript? name.toList = none := by
  have hbase : Text.dropEndWhile isSuperscript name.toList = name.toList :=
    Text.dropEndWhile_eq_self fun c hc => isSuperscript_eq_false (h.2 c hc)
  simp only [splitSuperscript?, hbase, List.drop_length]
  split <;> rfl

namespace Registry

variable {r : Registry} {t : UnitTable} {p : String × Nat} {ts above below : List (String × Nat)}
  {u : MeasureUnit}

theorem resolve_of_lookup? {name : String} (h : r.lookup? name = some u) :
    r.resolve name = .ok u := by
  rw [resolve, h]

theorem readPower_one (hp : IsTerm p) (hone : p.2 = 1) :
    r.readPower (termChars p) = r.resolve p.1 := by
  have hchars : termChars p = p.1.toList := by
    rw [termChars_eq p.1 p.2, if_pos hone]
  have hcut := cutFirst?_termChars hp.name.isAtomic
  rw [if_pos hone] at hcut
  simp only [readPower, hcut]
  rw [hchars, splitSuperscript?_of_isPlain hp.name, String.ofList_toList]

theorem readPower_of_ne_one (hp : IsTerm p) (hne : p.2 ≠ 1) :
    r.readPower (termChars p) =
      if p.2 < 2 ^ 31 then do
        let u ← r.resolve p.1
        Diagnostic.lift .ofConversion (u.power p.2 default)
      else .error (.invalidUnitExponent ("'" ++ String.ofList (Text.decimalDigits p.2) ++ "' in " ++
        String.ofList (termChars p))) := by
  have hdigits := Text.denotes_decimalDigits p.2
  have htrim : Text.trim (Text.decimalDigits p.2) = Text.decimalDigits p.2 :=
    Text.trim_eq_self (Text.digitFree_isBlank.not_mem hdigits)
  have hfits : FitsSigned 32 (p.2 : Int) ↔ p.2 < 2 ^ 31 := by
    show -2 ^ 31 ≤ (p.2 : Int) ∧ (p.2 : Int) < 2 ^ 31 ↔ p.2 < 2 ^ 31
    omega
  have hcut := cutFirst?_termChars hp.name.isAtomic
  rw [if_neg hne] at hcut
  simp only [readPower, hcut, htrim,
    Text.readSignedWord?_of_denotes 32 (Text.decimalDigits_ne_nil p.2) hdigits, hfits]
  by_cases hk : p.2 < 2 ^ 31
  · simp only [if_pos hk, String.ofList_toList]
  · simp only [if_neg hk]

/-- **A term is read as the power of its name.** -/
theorem attains_readPower (hp : IsTerm p) (hu : r.lookup? p.1 = some u) (hbase : t.IsBase p.1 u) :
    Attains (p.2 < 2 ^ 31 ∧ t.Fits (powers [p])) (MeasureUnit.IsProduct t (powers [p]))
      (r.readPower (termChars p)) := by
  have hresolve := resolve_of_lookup? hu
  by_cases hone : p.2 = 1
  · rw [readPower_one hp hone, hresolve]
    apply Attains.ok
    have hproduct := MeasureUnit.IsProduct.of_isBase hbase
    rwa [powers, List.map_singleton, hone]
  · rw [readPower_of_ne_one hp hone, hresolve, ok_bind]
    split
    · next hk => exact (MeasureUnit.attains_power hbase hk).mono And.right
    · next hk => exact Attains.invalidUnitExponent fun h => hk h.1

/-! ## Products -/

/-- The names of the terms lead to their base units. -/
def Knows (r : Registry) (t : UnitTable) (ts : List (String × Nat)) : Prop :=
  ∀ p ∈ ts, ∃ u, r.lookup? p.1 = some u ∧ t.IsBase p.1 u

/-- Terms are multiplied one after the other, to the product of those in front. -/
theorem attains_factors (ht : t.Nonzero) {front : List (String × Nat)}
    (hu : u.IsProduct t (powers front)) (hterms : ∀ p ∈ ts, IsTerm p) (hknows : r.Knows t ts)
    (hnodup : ((front ++ ts).map Prod.fst).Nodup) :
    Attains ((∀ p ∈ ts, p.2 < 2 ^ 31 ∧ t.Fits (powers [p])) ∧
        ∀ ts', ts' <+: ts → t.Fits (powers (front ++ ts')))
      (MeasureUnit.IsProduct t (powers (front ++ ts)))
      ((ts.map termChars).foldlM (fun u f => do
        let factor ← r.readPower f
        Diagnostic.lift .ofConversion (u.multiply factor)) u) := by
  induction ts generalizing front u with
  | nil =>
    rw [List.append_nil]
    exact Attains.ok hu
  | cons p ts ih =>
    obtain ⟨hp, hterms⟩ := List.forall_mem_cons.1 hterms
    obtain ⟨⟨v, hv, hbase⟩, hknows⟩ := List.forall_mem_cons.1 hknows
    have hsplit : front ++ p :: ts = front ++ [p] ++ ts := List.append_cons ..
    rw [hsplit] at hnodup ⊢
    -- The next name is a new one, so that no two exponents of one name add up.
    have hdisjoint : MeasureUnit.Disjoint (powers front) (powers [p]) := by
      intro name
      rw [names_powers, names_powers]
      by_cases hname : name = p.1
      · have hfront := (List.nodup_append.1 (List.map_append ▸ hnodup)).1
        rw [List.map_append, List.nodup_append] at hfront
        exact .inl fun hmem => hfront.2.2 _ hmem _ (.head _) hname
      · exact .inr (by simpa using hname)
    have hstep : Attains ((p.2 < 2 ^ 31 ∧ t.Fits (powers [p])) ∧ t.Fits (powers (front ++ [p])))
        (MeasureUnit.IsProduct t (powers (front ++ [p]))) (do
          let factor ← r.readPower (termChars p)
          Diagnostic.lift .ofConversion (u.multiply factor)) := by
      rw [powers_append]
      exact (attains_readPower hp hv hbase).bind fun w hw =>
        MeasureUnit.attains_multiply ht hu hw hdisjoint
    rw [List.map_cons, List.foldlM_cons]
    have hrest := hstep.bind fun w hw => ih hw hterms hknows hnodup
    refine hrest.mono fun ⟨hexponents, hproducts⟩ => ?_
    obtain ⟨hexponent, hexponents⟩ := List.forall_mem_cons.1 hexponents
    have hfirst : [p] <+: p :: ts := List.prefix_append [p] ts
    refine ⟨⟨hexponent, hproducts _ hfirst⟩, hexponents, fun ts' hts' => ?_⟩
    rw [List.append_assoc]
    exact hproducts _ ((List.cons_prefix_cons).2 ⟨rfl, hts'⟩)

/-- **Joined terms are read as their product.** -/
theorem attains_readProduct (ht : t.Nonzero) (hterms : ∀ p ∈ ts, IsTerm p) (hknows : r.Knows t ts)
    (hnodup : (ts.map Prod.fst).Nodup) :
    Attains (t.IsLegible ts) (MeasureUnit.IsProduct t (powers ts))
      (r.readProduct (joinedChars ts)) := by
  by_cases hne : ts = []
  · subst hne
    exact Attains.ok MeasureUnit.IsProduct.dimensionless
  · have hfactors : (ts.map termChars).filter (fun f => !f.isEmpty && f != ['1']) =
        ts.map termChars := by
      refine List.filter_eq_self.2 fun f hf => ?_
      obtain ⟨p, hp, rfl⟩ := List.mem_map.1 hf
      have hname := (hterms p hp).name.isUnmistakable
      simp [termChars_ne_nil hname.1, termChars_ne_one hname]
    have hdot : (fun c => c == '*' || c == '·' || c == ' ') '·' = true := rfl
    rw [readProduct, splitAll_joinedChars hdot hne fun p hp =>
      (hterms p hp).forall_mem isSeparator_factors]
    simp only [hfactors]
    have hstart : MeasureUnit.dimensionless.IsProduct t (powers []) := .dimensionless
    refine (attains_factors ht hstart hterms hknows hnodup).mono fun h => ?_
    exact ⟨fun p hp => ⟨h.exponent p hp, h.power p hp⟩, h.product⟩

/-! ## Quotients -/

/-- **A symbol is read as the quotient of its products.** -/
theorem attains_readQuotient (ht : t.Nonzero) (habove : ∀ p ∈ above, IsTerm p)
    (hbelow : ∀ p ∈ below, IsTerm p) (hknows : r.Knows t above) (hknows' : r.Knows t below)
    (hnodup : (above.map Prod.fst).Nodup) (hnodup' : (below.map Prod.fst).Nodup)
    (hdisjoint : ∀ name, name ∉ above.map Prod.fst ∨ name ∉ below.map Prod.fst) :
    Attains (t.IsLegible above ∧ t.IsLegible below ∧
        t.Fits (powers above ++ inverses (powers below)))
      (MeasureUnit.IsProduct t (powers above ++ inverses (powers below)))
      (r.readQuotient (symbolChars above below)) := by
  have hdividend : Attains (t.IsLegible above) (MeasureUnit.IsProduct t (powers above))
      (r.readProduct (numeratorChars above)) := by
    unfold numeratorChars
    split
    · next hnil =>
      subst hnil
      exact Attains.ok MeasureUnit.IsProduct.dimensionless
    · exact attains_readProduct ht habove hknows hnodup
  have hdivisor := attains_readProduct ht hbelow hknows' hnodup'
  rw [readQuotient, splitAll_symbolChars (fun p hp => (habove p hp).name.isAtomic) fun p hp =>
    (hbelow p hp).name.isAtomic]
  by_cases hnil : below = []
  · subst hnil
    rw [if_pos rfl]
    have hproduct := attains_readProduct ht habove hknows hnodup
    have hpowers : powers above ++ inverses (powers []) = powers above := List.append_nil _
    rw [hpowers]
    show Attains _ _ (r.readProduct (joinedChars above) >>= pure)
    rw [bind_pure]
    exact hproduct.mono And.left
  · rw [if_neg hnil]
    show Attains _ _ (r.readProduct (numeratorChars above) >>= fun u =>
      (r.readProduct (joinedChars below) >>= fun v =>
        Diagnostic.lift .ofConversion (u.divide v)) >>= pure)
    simp only [bind_pure]
    refine hdividend.bind fun u hu => hdivisor.bind fun v hv => ?_
    refine MeasureUnit.attains_divide ht hu hv (fun name => ?_) fun q hq => ?_
    · rw [names_powers, names_powers]
      exact hdisjoint name
    · obtain ⟨p, -, rfl⟩ := List.mem_map.1 hq
      exact Int.natCast_nonneg _

end Registry

end Reckoner
