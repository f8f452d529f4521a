import Reckoner.Text.Split

/-!
# Similarity of names

A score for how close a misspelled name is to a known one. It rewards a name that begins with,
contains or is contained in the query, every character the two share, and lengths that are close.
-/

namespace Reckoner.Text

/-- The number of bytes of a text in UTF-8. -/
def byteLength (cs : List Char) : Nat := cs.foldr (fun c n => c.utf8Size + n) 0

/-- The score of a known name for a query; higher is closer. -/
def similarity (query known : List Char) : Nat :=
  let overlap :=
    if query.isPrefixOf known then 100
    else if occursIn query known then 50
    else if occursIn known query then 30
    else 0
  let common := (query.eraseDups.filter fun c => known.contains c).length
  let score := overlap + common * 2
  let a := byteLength query
  let b := byteLength known
  let gap := max a b - min a b
  if gap < 5 && score > 0 then score + (5 - gap) else score

end Reckoner.Text
