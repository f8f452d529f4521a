import Reckoner.Text.EditDistance
import Mathlib.Data.List.Range
import Mathlib.Order.Bounds.Defs

/-!
# The edit distance is the least number of edits

An edit inserts, deletes or replaces a single character (`Edit`), and `Edits n a b` says that `n`
edits lead from `a` to `b`. The distance that is computed row by row is the least such `n`
(`isLeast_editDistance`).

In between stands the distance by recursion on both texts (`distance`). As many edits as it counts
lead from one text to the other (`edits_distance`), and fewer do not, since a single edit changes
the distance to any text by one at most (`distance_le_of_edit`).

The recursion takes the texts apart from the front, and the rows begin with short starts of both. So
an entry of a row is the distance of two starts read backwards (`cons_nextEntries`), and the last
entry of all is that of the whole texts (`editDistance_eq`). Edits can be read backwards too.
-/

namespace Reckoner.Text

/-! ## Edits -/

/-- One text becomes the other by an insertion, a deletion or a substitution of one character. -/
inductive Edit : List Char → List Char → Prop where
  | insert (front : List Char) (c : Char) (back : List Char) :
    Edit (front ++ back) (front ++ c :: back)
  | delete (front : List Char) (c : Char) (back : List Char) :
    Edit (front ++ c :: back) (front ++ back)
  | substitute (front : List Char) (c d : Char) (back : List Char) :
    Edit (front ++ c :: back) (front ++ d :: back)

/-- So many edits lead from the one text to the other. -/
inductive Edits : Nat → List Char → List Char → Prop where
  | refl (a : List Char) : Edits 0 a a
  | step {n : Nat} {a b c : List Char} : Edit a b → Edits n b c → Edits (n + 1) a c

variable {n m : Nat} {a b c x before : List Char} {d e : Char}

theorem Edit.cons (d : Char) (h : Edit a b) : Edit (d :: a) (d :: b) := by
  cases h with
  | insert front c back => exact .insert (d :: front) c back
  | delete front c back => exact .delete (d :: front) c back
  | substitute front c c' back => exact .substitute (d :: front) c c' back

theorem Edit.reverse (h : Edit a b) : Edit a.reverse b.reverse := by
  cases h with
  | insert front c back => simpa using Edit.insert back.reverse c front.reverse
  | delete front c back => simpa using Edit.delete back.reverse c front.reverse
  | substitute front c c' back => simpa using Edit.substitute back.reverse c c' front.reverse

namespace Edits

theorem cons (d : Char) (h : Edits n a b) : Edits n (d :: a) (d :: b) := by
  induction h with
  | refl a => exact .refl _
  | step hedit _ ih => exact .step (hedit.cons d) ih

theorem reverse (h : Edits n a b) : Edits n a.reverse b.reverse := by
  induction h with
  | refl a => exact .refl _
  | step hedit _ ih => exact .step hedit.reverse ih

theorem reverse_iff : Edits n a.reverse b.reverse ↔ Edits n a b :=
  ⟨fun h => by simpa using h.reverse, reverse⟩

/-- An edit may also come last. -/
theorem snoc (h : Edits n a b) (hedit : Edit b c) : Edits (n + 1) a c := by
  induction h with
  | refl a => exact .step hedit (.refl c)
  | step hfirst _ ih => exact .step hfirst (ih hedit)

theorem min (hn : Edits n a b) (hm : Edits m a b) : Edits (min n m) a b := by
  rcases Nat.le_total n m with h | h
  · rwa [Nat.min_eq_left h]
  · rwa [Nat.min_eq_right h]

theorem insert_all (a : List Char) : Edits a.length [] a := by
  induction a with
  | nil => exact .refl []
  | cons d a ih => exact ih.snoc (.insert [] d a)

theorem delete_all (a : List Char) : Edits a.length a [] := by
  induction a with
  | nil => exact .refl []
  | cons d a ih => exact .step (.delete [] d a) ih

end Edits

/-! ## The distance by recursion -/

/-- The distance of two texts from the distances of what stands behind their first characters. -/
def distance : List Char → List Char → Nat
  | [], b => b.length
  | a, [] => a.length
  | d :: a, e :: b =>
    min (min (distance a b + if d = e then 0 else 1) (distance a (e :: b) + 1))
      (distance (d :: a) b + 1)

@[simp]
theorem distance_nil_left (b : List Char) : distance [] b = b.length := by
  rw [distance]

@[simp]
theorem distance_nil_right (a : List Char) : distance a [] = a.length := by
  cases a with
  | nil => exact distance_nil_left []
  | cons d a => rw [distance]; simp

theorem distance_cons (d e : Char) (a b : List Char) :
    distance (d :: a) (e :: b) =
      min (min (distance a b + if d = e then 0 else 1) (distance a (e :: b) + 1))
        (distance (d :: a) b + 1) := by
  rw [distance]

/-! ### As many edits lead from one text to the other -/

theorem edits_distance (a b : List Char) : Edits (distance a b) a b := by
  fun_induction distance a b with
  | case1 b => exact .insert_all b
  | case2 a _ => exact .delete_all a
  | case3 d a e b ihboth ihdelete ihinsert =>
    have hboth : Edits (distance a b + if d = e then 0 else 1) (d :: a) (e :: b) := by
      split
      · next heq =>
        subst heq
        exact ihboth.cons d
      · exact .step (.substitute [] d e a) (ihboth.cons e)
    have hinsert : Edits (distance (d :: a) b + 1) (d :: a) (e :: b) :=
      ihinsert.snoc (.insert [] e b)
    have hdelete : Edits (distance a (e :: b) + 1) (d :: a) (e :: b) :=
      .step (.delete [] d a) ihdelete
    exact (hboth.min hdelete).min hinsert

/-! ### A single edit changes the distance by one at most -/

theorem distance_cons_left_le (d : Char) (a b : List Char) :
    distance (d :: a) b ≤ distance a b + 1 := by
  cases b with
  | nil => simp
  | cons e b =>
    rw [distance_cons]
    exact (min_le_left _ _).trans (min_le_right _ _)

theorem distance_cons_right_le (a : List Char) (e : Char) (b : List Char) :
    distance a (e :: b) ≤ distance a b + 1 := by
  cases a with
  | nil => simp
  | cons d a =>
    rw [distance_cons]
    exact min_le_right _ _

theorem distance_cons_cons_le (d e : Char) (a b : List Char) :
    distance (d :: a) (e :: b) ≤ distance a b + 1 := by
  rw [distance_cons]
  split <;> omega

/-- An insertion at the front. -/
theorem distance_le_cons_left (d : Char) (a b : List Char) :
    distance a b ≤ distance (d :: a) b + 1 := by
  induction b with
  | nil => simp; omega
  | cons e b ih =>
    have hright := distance_cons_right_le a e b
    rw [distance_cons]
    omega

/-- A substitution at the front. -/
theorem distance_substitute_le (d e : Char) (a b : List Char) :
    distance (d :: a) b ≤ distance (e :: a) b + 1 := by
  induction b with
  | nil => simp
  | cons c b ih =>
    have hboth := distance_cons_cons_le d c a b
    have hright := distance_cons_right_le (d :: a) c b
    have hleft := distance_cons_left_le d a (c :: b)
    rw [distance_cons e c]
    omega

/-- What is in front of an edit does not matter. -/
theorem distance_append_le (h : ∀ c, distance a c ≤ distance b c + 1) (front c : List Char) :
    distance (front ++ a) c ≤ distance (front ++ b) c + 1 := by
  induction front generalizing c with
  | nil => exact h c
  | cons d front ih =>
    induction c with
    | nil =>
      have hnil := h []
      simp at hnil ⊢
      omega
    | cons e c ihc =>
      have hboth := ih c
      have hright := ih (e :: c)
      simp only [List.cons_append] at ihc ⊢
      rw [distance_cons, distance_cons]
      omega

theorem distance_le_of_edit (h : Edit a b) (c : List Char) : distance a c ≤ distance b c + 1 := by
  cases h with
  | insert front d back =>
    exact distance_append_le (distance_le_cons_left d back) front c
  | delete front d back =>
    exact distance_append_le (distance_cons_left_le d back) front c
  | substitute front d e back =>
    exact distance_append_le (distance_substitute_le d e back) front c

@[simp]
theorem distance_self (a : List Char) : distance a a = 0 := by
  induction a with
  | nil => simp
  | cons d a ih => simp [distance_cons, ih]

/-- A number of edits is never below the distance. -/
theorem distance_le_of_edits (h : Edits n a b) : distance a b ≤ n := by
  induction h with
  | refl a => rw [distance_self]
  | step hedit _ ih => exact (distance_le_of_edit hedit _).trans (Nat.succ_le_succ ih)

/-! ## The rows -/

/-- The distances of a text to `before` and to what it becomes character by character, read from the
end. -/
def row (x : List Char) : (before : List Char) → List Char → List Nat
  | before, [] => [distance x before]
  | before, d :: ds => distance x before :: row x (d :: before) ds

theorem row_eq_cons (x before ds : List Char) :
    ∃ rest, row x before ds = distance x before :: rest := by
  cases ds <;> exact ⟨_, rfl⟩

/-- A row is made from the row above it. -/
theorem cons_nextEntries (c : Char) (x before ds : List Char) :
    distance (c :: x) before :: nextEntries c (distance (c :: x) before) ds (row x before ds) =
      row (c :: x) before ds := by
  induction ds generalizing before with
  | nil => rfl
  | cons d ds ih =>
    obtain ⟨above, habove⟩ := row_eq_cons x (d :: before) ds
    rw [row, row, habove, nextEntries, ← distance_cons, ← habove, ih]

theorem lastRow_eq_row (target x cs : List Char) :
    lastRow target x.length (row x [] target) cs = row (cs.reverse ++ x) [] target := by
  induction cs generalizing x with
  | nil => rfl
  | cons c cs ih =>
    have hnext : nextRow target x.length (row x [] target) c = row (c :: x) [] target := by
      have hrow := cons_nextEntries c x [] target
      rwa [distance_nil_right, List.length_cons] at hrow
    have hrest := ih (c :: x)
    rw [lastRow, hnext]
    simpa using hrest

/-- The first row has the distances of the empty text. -/
theorem range_eq_row (before ds : List Char) :
    List.range' before.length (ds.length + 1) = row [] before ds := by
  induction ds generalizing before with
  | nil => simp [row]
  | cons d ds ih =>
    have hrest := ih (d :: before)
    rw [row, distance_nil_left, List.length_cons, List.range'_succ, ← hrest]
    rfl

theorem getLastD_row (x before ds : List Char) :
    (row x before ds).getLastD 0 = distance x (ds.reverse ++ before) := by
  induction ds generalizing before with
  | nil => rfl
  | cons d ds ih =>
    obtain ⟨rest, hrest⟩ := row_eq_cons x (d :: before) ds
    have hlast := ih (d :: before)
    rw [hrest] at hlast
    rw [row, hrest]
    simpa using hlast

/-- The distance by rows is the distance by recursion, read backwards. -/
theorem editDistance_eq (a b : List Char) : editDistance a b = distance a.reverse b.reverse := by
  have hfirst : List.range (b.length + 1) = row [] [] b := by
    rw [List.range_eq_range', ← range_eq_row]
    rfl
  rw [editDistance, hfirst]
  have hlast := lastRow_eq_row b [] a
  rw [List.length_nil, List.append_nil] at hlast
  rw [hlast, getLastD_row, List.append_nil]

/-- **The edit distance is the least number of insertions, deletions and substitutions** of single
characters that turn the one text into the other. -/
theorem isLeast_editDistance (a b : List Char) : IsLeast {n | Edits n a b} (editDistance a b) := by
  rw [editDistance_eq]
  constructor
  · exact Edits.reverse_iff.1 (edits_distance _ _)
  · intro n h
    exact distance_le_of_edits (Edits.reverse h)

example : editDistance ['k', 'm', 's'] ['k', 'h', 'm'] = 2 := by decide

end Reckoner.Text
