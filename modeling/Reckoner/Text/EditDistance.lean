/-!
# Edit distance

The Levenshtein distance of two texts: how many insertions, deletions and substitutions of single
characters turn one into the other. It is computed row by row; a row holds the distances of a
start of the first text to every start of the second.
-/

namespace Reckoner.Text

/-- The entries of a row after its first. `left` is the entry before, `above` the row above from
the entry over `left` on. -/
def nextEntries (c : Char) : (left : Nat) → List Char → (above : List Nat) → List Nat
  | left, d :: ds, diagonal :: upper :: above =>
    let entry := min (min (diagonal + if c = d then 0 else 1) (upper + 1)) (left + 1)
    entry :: nextEntries c entry ds (upper :: above)
  | _, _, _ => []

/-- The row that follows `row`, the row of the first `i` characters, after one more character. -/
def nextRow (target : List Char) (i : Nat) (row : List Nat) (c : Char) : List Nat :=
  (i + 1) :: nextEntries c (i + 1) target row

/-- The last row, from the row of the first `i` characters on. -/
def lastRow (target : List Char) : (i : Nat) → (row : List Nat) → List Char → List Nat
  | _, row, [] => row
  | i, row, c :: cs => lastRow target (i + 1) (nextRow target i row c) cs

/-- The least number of single-character edits that turn `a` into `b`. -/
def editDistance (a b : List Char) : Nat :=
  (lastRow b 0 (List.range (b.length + 1)) a).getLastD 0

end Reckoner.Text
