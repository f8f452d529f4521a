import Reckoner.Proofs.Unit.Representation
import Reckoner.Proofs.Unit.Spelling

/-!
# What a registry finds

Whatever spelling a unit is looked up by, it is one of the registered units or a multiple that one
of them takes (`Registry.Offers`). What is made of found units by products, quotients and powers is
reachable (`Registry.Reachable`), the catalogued products among it.

A registry is sound over a table of base units if its units are represented and the table has all
multiples of the symbols that take multiples. Everything reachable from a sound registry is
represented (`IsSound.represented_of_reachable`). A registry is built line by line, and a line keeps
it sound if the table has the unit of that line and its multiples (`IsSound.addEntry`). Products
need no such condition, since they are reachable.
-/

namespace Reckoner

/-- The multiples that a unit takes. -/
def Scaling.multiples : Scaling → List Multiple
  | .fixed => []
  | .decimal => Multiple.decimals
  | .decimalAndBinary => Multiple.decimals ++ Multiple.binaries

theorem mem_setKey {α : Type} {key : String} {value : α} {entries : List (String × α)}
    {p : String × α} (h : p ∈ setKey key value entries) : p = (key, value) ∨ p ∈ entries := by
  induction entries with
  | nil => exact .inl (List.mem_singleton.1 h)
  | cons entry rest ih =>
    obtain ⟨other, v⟩ := entry
    rw [setKey] at h
    split at h
    · exact (List.mem_cons.1 h).imp id (.tail _)
    · rcases List.mem_cons.1 h with rfl | h
      · exact .inr (.head _)
      · exact (ih h).imp id (.tail _)

namespace Registry

variable {r : Registry} {u : MeasureUnit} {name : String}

/-! ## Looking up -/

/-- A registered unit, or a multiple that a registered unit takes. -/
inductive Offers (r : Registry) : MeasureUnit → Prop where
  | unit {key : String} {u : MeasureUnit} (hu : (key, u) ∈ r.units) : r.Offers u
  | decimal {key : String} {u : MeasureUnit} {m : Multiple} (hu : (key, u) ∈ r.units)
    (hm : m ∈ Multiple.decimals) (hscaled : u.symbol ∈ r.decimalScaled) : r.Offers (u.multiple m)
  | binary {key : String} {u : MeasureUnit} {m : Multiple} (hu : (key, u) ∈ r.units)
    (hm : m ∈ Multiple.binaries) (hscaled : u.symbol ∈ r.binaryScaled) : r.Offers (u.multiple m)

theorem offers_of_takes {key : String} {m : Multiple} (hu : (key, u) ∈ r.units)
    (hm : r.Takes u m) : r.Offers (u.multiple m) := by
  rcases hm with ⟨hm, hscaled⟩ | ⟨hm, hscaled⟩
  · exact .decimal hu hm hscaled
  · exact .binary hu hm hscaled

/-- **Lookup finds what is offered**, in whatever spelling. -/
theorem offers_of_lookup? (h : r.lookup? name = some u) : r.Offers u := by
  cases spelled_of_lookup? h with
  | called hcalled =>
    obtain ⟨key, hu⟩ := hcalled.mem
    exact .unit hu
  | long hm _ hcalled =>
    obtain ⟨key, hu⟩ := hcalled.mem
    exact offers_of_takes hu hm
  | short hm _ hnamed =>
    obtain ⟨key, hu⟩ := hnamed.mem
    exact offers_of_takes hu hm

end Registry

/-- The units that come from looking up names, by products, quotients and whole powers. -/
inductive Registry.Reachable (r : Registry) : MeasureUnit → Prop where
  | lookup {name : String} {u : MeasureUnit} : r.lookup? name = some u → r.Reachable u
  | dimensionless : r.Reachable .dimensionless
  | multiply {u v w : MeasureUnit} :
    r.Reachable u → r.Reachable v → u.multiply v = .ok w → r.Reachable w
  | divide {u v w : MeasureUnit} :
    r.Reachable u → r.Reachable v → u.divide v = .ok w → r.Reachable w
  | power {u w : MeasureUnit} {n : Int} {s : Settings} :
    r.Reachable u → u.power n s = .ok w → r.Reachable w

/-- A catalogued product is made of units that the registry finds. -/
theorem Registry.reachable_of_product? {r : Registry} {u : MeasureUnit}
    {parts : List (String × Int)} (h : r.product? parts = some u) : r.Reachable u := by
  unfold Registry.product? at h
  -- The induction is over the parts, for any reachable unit in place of the first one.
  have hstart : r.Reachable .dimensionless := .dimensionless
  generalize MeasureUnit.dimensionless = start at h hstart
  induction parts generalizing start with
  | nil =>
    cases h
    exact hstart
  | cons part rest ih =>
    rw [List.foldlM_cons] at h
    obtain ⟨v, hv, hrest⟩ := Option.bind_eq_some_iff.1 h
    refine ih v hrest ?_
    obtain ⟨base, hbase, hv⟩ := Option.bind_eq_some_iff.1 hv
    split at hv
    · cases hv
    · next factor hfactor =>
      have hpower : r.Reachable factor := .power (.lookup hbase) hfactor
      exact .multiply hstart hpower (toOption_eq_some_iff.1 hv)

/-! ## Properties of all that is reachable -/

/-- A property of every unit that starts at zero under a symbol of its own, which products, quotients
and powers keep, and which does not depend on the name. -/
structure MeasureUnit.IsStable (P : MeasureUnit → Prop) : Prop where
  new : ∀ symbol name d f category, P (.new symbol name d f category)
  rename : ∀ {u} name, P u → P { u with name := name }
  multiply : ∀ {u v w}, P u → P v → u.multiply v = .ok w → P w
  divide : ∀ {u v w}, P u → P v → u.divide v = .ok w → P w
  power : ∀ {u w n s}, P u → u.power n s = .ok w → P w

namespace MeasureUnit.IsStable

variable {P : MeasureUnit → Prop} {r : Registry} {u : MeasureUnit}

/-- What the registered units have in common holds of everything reachable. -/
theorem of_reachable (hP : IsStable P) (hr : ∀ p ∈ r.units, P p.2) (h : r.Reachable u) : P u := by
  induction h with
  | lookup h =>
    cases Registry.offers_of_lookup? h with
    | unit hu => exact hr _ hu
    | decimal | binary => exact hP.new ..
  | dimensionless => exact hP.new ..
  | multiply _ _ h hu hv => exact hP.multiply hu hv h
  | divide _ _ h hu hv => exact hP.divide hu hv h
  | power _ h hu => exact hP.power hu h

theorem register (hr : ∀ p ∈ r.units, P p.2) (hu : P u) (scaling : Scaling) :
    ∀ p ∈ (r.register u scaling).units, P p.2 := by
  intro p hp
  rcases mem_setKey hp with rfl | hp
  · exact hu
  · exact hr p hp

theorem addEntry (hP : IsStable P) {entry : CatalogueEntry} (hr : ∀ p ∈ r.units, P p.2)
    (hentry : ∀ u scaling, entry = .unit u scaling → P u) :
    ∀ p ∈ (r.addEntry entry).units, P p.2 := by
  cases entry with
  | unit u scaling => exact register hr (hentry u scaling rfl) scaling
  | aliases symbol names => exact hr
  | product name parts aliases =>
    simp only [Registry.addEntry, Registry.registerProduct]
    split
    · exact hr
    · next u hu =>
      have hu := hP.of_reachable hr (Registry.reachable_of_product? hu)
      exact register hr (hP.rename name hu) .fixed

/-- What the units of all lines have in common holds of all registered units, products among them. -/
theorem ofCatalogue (hP : IsStable P) {entries : List CatalogueEntry}
    (h : ∀ u scaling, .unit u scaling ∈ entries → P u) :
    ∀ p ∈ (Registry.ofCatalogue entries).units, P p.2 := by
  rw [Registry.ofCatalogue]
  refine List.foldlRecOn (motive := fun r : Registry => ∀ p ∈ r.units, P p.2) entries _
    (by simp) fun r hr entry hentry => hP.addEntry hr ?_
  rintro u scaling rfl
  exact h u scaling hentry

end MeasureUnit.IsStable

/-! ## Soundness over a table -/

/-- An atomic symbol with its multiples in the table. -/
def UnitTable.HasMultiples (t : UnitTable) (multiples : List Multiple) (symbol : String) : Prop :=
  IsAtomic symbol ∧ ∃ d f, t symbol = some (d, f) ∧
    ∀ m ∈ multiples, m.scale.isZero = false ∧ t (m.symbol ++ symbol) = some (d, f.mul m.scale)

theorem UnitTable.HasMultiples.mono {t : UnitTable} {ms ms' : List Multiple} {symbol : String}
    (h : t.HasMultiples ms symbol) (hsub : ms' ⊆ ms) : t.HasMultiples ms' symbol := by
  obtain ⟨hatomic, d, f, htable, hmultiples⟩ := h
  exact ⟨hatomic, d, f, htable, fun m hm => hmultiples m (hsub hm)⟩

namespace Registry

/-- The units are represented, and so are all multiples that they take. -/
structure IsSound (t : UnitTable) (r : Registry) : Prop where
  units : ∀ p ∈ r.units, p.2.Represented t
  decimals : ∀ symbol ∈ r.decimalScaled, t.HasMultiples Multiple.decimals symbol
  binaries : ∀ symbol ∈ r.binaryScaled, t.HasMultiples Multiple.binaries symbol

namespace IsSound

variable {t : UnitTable} {r : Registry} {u : MeasureUnit} {name : String}

theorem empty (t : UnitTable) : IsSound t {} := ⟨by simp, by simp, by simp⟩

/-- What a sound registry offers is represented, multiples being in the table. -/
theorem represented_of_offers (hr : r.IsSound t) (h : r.Offers u) : u.Represented t := by
  cases h with
  | unit hu => exact hr.units _ hu
  | decimal hu hm hscaled =>
    obtain ⟨hatomic, d, f, htable, hmultiples⟩ := hr.decimals _ hscaled
    obtain ⟨hscale, hmultiple⟩ := hmultiples _ hm
    exact (hr.units _ hu).multiple hatomic htable hmultiple hscale
  | binary hu hm hscaled =>
    obtain ⟨hatomic, d, f, htable, hmultiples⟩ := hr.binaries _ hscaled
    obtain ⟨hscale, hmultiple⟩ := hmultiples _ hm
    exact (hr.units _ hu).multiple hatomic htable hmultiple hscale

/-- Everything reachable from a sound registry is represented. -/
theorem represented_of_reachable (ht : t.Nonzero) (hr : r.IsSound t) (h : r.Reachable u) :
    u.Represented t := by
  induction h with
  | lookup h => exact hr.represented_of_offers (offers_of_lookup? h)
  | dimensionless => exact MeasureUnit.represented_dimensionless
  | multiply _ _ h hu hv => exact hu.multiply ht hv h
  | divide _ _ h hu hv => exact hu.divide ht hv h
  | power _ h hu => exact hu.power h

/-! ## Registration -/

/-- A unit is registered soundly if it is represented and the table has its multiples. -/
theorem register {scaling : Scaling} (hr : r.IsSound t) (hu : u.Represented t)
    (hscaling : scaling ≠ .fixed → t.HasMultiples scaling.multiples u.symbol) :
    (r.register u scaling).IsSound t where
  units p hp := by
    rcases mem_setKey hp with rfl | hp
    · exact hu
    · exact hr.units p hp
  decimals symbol hsymbol := by
    simp only [Registry.register] at hsymbol
    split at hsymbol
    · exact hr.decimals symbol hsymbol
    · next hne =>
      rcases List.mem_cons.1 hsymbol with rfl | hsymbol
      · refine (hscaling hne).mono ?_
        cases scaling with
        | fixed => exact absurd rfl hne
        | decimal => exact List.Subset.refl _
        | decimalAndBinary => exact List.subset_append_left _ _
      · exact hr.decimals symbol hsymbol
  binaries symbol hsymbol := by
    simp only [Registry.register] at hsymbol
    split at hsymbol
    · next hboth =>
      rcases List.mem_cons.1 hsymbol with rfl | hsymbol
      · subst hboth
        exact (hscaling (by decide)).mono (List.subset_append_right _ _)
      · exact hr.binaries symbol hsymbol
    · exact hr.binaries symbol hsymbol

theorem addAliases (hr : r.IsSound t) (symbol : String) (names : List String) :
    (r.addAliases symbol names).IsSound t :=
  ⟨hr.units, hr.decimals, hr.binaries⟩

theorem registerProduct (ht : t.Nonzero) {parts : List (String × Int)} {aliases : List String}
    (hr : r.IsSound t) : (r.registerProduct name parts aliases).IsSound t := by
  unfold Registry.registerProduct
  split
  · exact hr
  · next u hu =>
    have hu := hr.represented_of_reachable ht (reachable_of_product? hu)
    exact (hr.register (hu.rename name) (absurd rfl)).addAliases _ _

end IsSound

end Registry

/-- The table has the unit of a catalogue line, with its multiples. -/
def CatalogueEntry.IsSound (t : UnitTable) : CatalogueEntry → Prop
  | .unit u scaling =>
    u.Represented t ∧ (scaling ≠ .fixed → t.HasMultiples scaling.multiples u.symbol)
  | .product .. => True
  | .aliases .. => True

namespace Registry.IsSound

variable {t : UnitTable} {r : Registry}

theorem addEntry (ht : t.Nonzero) {entry : CatalogueEntry} (hr : r.IsSound t)
    (hentry : entry.IsSound t) : (r.addEntry entry).IsSound t := by
  cases entry with
  | unit u scaling => exact hr.register hentry.1 hentry.2
  | product name parts aliases => exact hr.registerProduct ht
  | aliases symbol names => exact hr.addAliases symbol names

/-- **The registry of a catalogue is sound** if the table has all of its lines. -/
theorem ofCatalogue (ht : t.Nonzero) {entries : List CatalogueEntry}
    (hentries : ∀ entry ∈ entries, entry.IsSound t) :
    (Registry.ofCatalogue entries).IsSound t := by
  rw [Registry.ofCatalogue]
  refine List.foldlRecOn entries _ (empty t) fun r hr entry hentry => ?_
  exact hr.addEntry ht (hentries entry hentry)

end Registry.IsSound

end Reckoner
