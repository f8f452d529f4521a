import Reckoner.Dimension

/-!
# Exponent maps

Finite maps from names to exponents, kept as lists in ascending order of the names. The order and
the range of the exponents are part of the type, so two maps with the same entries are equal.

`adjust` changes the entry of one name; the algebra of maps is built from it. An operation whose
result needs an exponent out of range has no result.
-/

namespace Reckoner

/-- Entries in strictly ascending order of their names. -/
abbrev Ascending (entries : List (String × Int)) : Prop :=
  entries.Pairwise fun a b => a.1 < b.1

/-- Changes the entry of `name` by `f`; a name without an entry has the exponent 0. -/
def adjustEntries (name : String) (f : Int → Int) : List (String × Int) → List (String × Int)
  | [] => [(name, f 0)]
  | (other, e) :: rest =>
    if name < other then (name, f 0) :: (other, e) :: rest
    else if name = other then (other, f e) :: rest
    else (other, e) :: adjustEntries name f rest

theorem mem_adjustEntries {name : String} {f : Int → Int} {entries : List (String × Int)}
    {x : String × Int} (h : x ∈ adjustEntries name f entries) : x.1 = name ∨ x ∈ entries := by
  induction entries with
  | nil =>
    rw [adjustEntries, List.mem_singleton] at h
    exact .inl (by rw [h])
  | cons entry rest ih =>
    obtain ⟨other, e⟩ := entry
    rw [adjustEntries] at h
    split at h
    · rcases List.mem_cons.1 h with rfl | h
      · exact .inl rfl
      · exact .inr h
    · split at h
      · next hname =>
        rcases List.mem_cons.1 h with rfl | h
        · exact .inl hname.symm
        · exact .inr (.tail _ h)
      · rcases List.mem_cons.1 h with rfl | h
        · exact .inr (.head _)
        · exact (ih h).imp id (.tail _)

theorem ascending_adjustEntries {name : String} {f : Int → Int} {entries : List (String × Int)}
    (h : Ascending entries) : Ascending (adjustEntries name f entries) := by
  induction entries with
  | nil => exact List.pairwise_singleton _ _
  | cons entry rest ih =>
    obtain ⟨other, e⟩ := entry
    obtain ⟨hall, hrest⟩ := List.pairwise_cons.1 h
    rw [adjustEntries]
    split
    · next hlt =>
      refine List.pairwise_cons.2 ⟨fun x hx => ?_, h⟩
      rcases List.mem_cons.1 hx with rfl | hx
      · exact hlt
      · exact String.lt_trans hlt (hall x hx)
    · next hge =>
      split
      · exact List.pairwise_cons.2 ⟨hall, hrest⟩
      · next hne =>
        refine List.pairwise_cons.2 ⟨fun x hx => ?_, ih hrest⟩
        rcases mem_adjustEntries hx with rfl | hx
        · exact Std.lt_of_le_of_ne hge (Ne.symm hne)
        · exact hall x hx

/-- Applies a list of changes, one name after the other. -/
def adjustAll (op : Int → Int → Int) (changes entries : List (String × Int)) :
    List (String × Int) :=
  changes.foldl (fun entries c => adjustEntries c.1 (op · c.2) entries) entries

theorem ascending_adjustAll {op : Int → Int → Int} {changes entries : List (String × Int)}
    (h : Ascending entries) : Ascending (adjustAll op changes entries) := by
  induction changes generalizing entries with
  | nil => exact h
  | cons c changes ih => exact ih (ascending_adjustEntries h)

/-- A finite map from names to exponents. -/
structure Exponents where
  entries : List (String × Int)
  ascending : Ascending entries
  inRange : ∀ e ∈ entries, IsExponent e.2
deriving DecidableEq

namespace Exponents

/-- The map with the given entries, if their exponents are in range. -/
def ofEntries? (entries : List (String × Int)) (h : Ascending entries) : Option Exponents :=
  if hr : ∀ e ∈ entries, IsExponent e.2 then some ⟨entries, h, hr⟩ else none

def empty : Exponents := ⟨[], .nil, by simp⟩

instance : Inhabited Exponents := ⟨empty⟩

/-- The map of one name with the exponent 1. -/
def single (name : String) : Exponents :=
  ⟨[(name, 1)], List.pairwise_singleton _ _, by simp; decide⟩

def isEmpty (m : Exponents) : Bool := m.entries.isEmpty

/-- The exponent of a name; 0 for a name without an entry. -/
def get (m : Exponents) (name : String) : Int := (m.entries.lookup name).getD 0

/-- The map of a list of entries in any order, where a later entry of a name replaces an earlier
one. -/
def ofList? (entries : List (String × Int)) : Option Exponents :=
  ofEntries? (adjustAll (fun _ e => e) entries []) (ascending_adjustAll .nil)

/-- Entries without those whose exponent is 0. -/
def dropZeros (entries : List (String × Int)) : List (String × Int) :=
  entries.filter fun e => e.2 != 0

theorem ascending_dropZeros {entries : List (String × Int)} (h : Ascending entries) :
    Ascending (dropZeros entries) := h.filter _

/-- Combines the exponents of two maps name by name, without entries that become 0. -/
def combine (op : Int → Int → Int) (a b : Exponents) : Option Exponents :=
  ofEntries? (dropZeros (adjustAll op b.entries a.entries))
    (ascending_dropZeros (ascending_adjustAll a.ascending))

def add (a b : Exponents) : Option Exponents := combine (· + ·) a b

def sub (a b : Exponents) : Option Exponents := combine (· - ·) a b

theorem ascending_map (f : Int → Int) {entries : List (String × Int)} (h : Ascending entries) :
    Ascending (entries.map fun e => (e.1, f e.2)) :=
  List.pairwise_map.2 h

/-- Multiplies all exponents, without entries that become 0. -/
def scale (m : Exponents) (n : Int) : Option Exponents :=
  ofEntries? (dropZeros (m.entries.map fun e => (e.1, e.2 * n)))
    (ascending_dropZeros (ascending_map (· * n) m.ascending))

/-- Divides all exponents; `n` must divide every one of them. -/
def root (m : Exponents) (n : Int) : Option Exponents :=
  if m.entries.all fun e => n != 0 && e.2.tmod n == 0 then
    ofEntries? (m.entries.map fun e => (e.1, e.2.tdiv n)) (ascending_map (·.tdiv n) m.ascending)
  else none

end Exponents

end Reckoner
