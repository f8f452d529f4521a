import Reckoner.Text.CaseTable

/-!
# Lower case

Full lower-casing of a text. Each character is replaced by its simple mapping, with two rules
beside the table: `İ` becomes `i` with a combining dot, and `Σ` becomes `ς` at the end of a word
and `σ` elsewhere.
-/

namespace Reckoner.Text

/-- The simple lower-case mapping of a character. -/
def lowerChar (c : Char) : Char :=
  let n := c.toNat
  if n < 0x80 then c.toLower
  else
    match CaseTable.lowerMappings.find? fun (first, last, step, _) =>
        first ≤ n && n ≤ last && (n - first) % step == 0 with
    | some (_, _, _, shift) => Char.ofNat ((n : Int) + shift).toNat
    | none => c

def inRanges (ranges : List (Nat × Nat)) (c : Char) : Bool :=
  ranges.any fun (first, last) => first ≤ c.toNat && c.toNat ≤ last

/-- Whether the first character that is not case-ignorable is cased. -/
def startsCased (cs : List Char) : Bool :=
  match cs.dropWhile (inRanges CaseTable.ignorableRanges) with
  | [] => false
  | c :: _ => inRanges CaseTable.casedRanges c

/-- Lower-cases a text; `before` holds the characters already passed, the last one first. -/
def lowerFrom (before : List Char) : List Char → List Char
  | [] => []
  | c :: rest =>
    let lowered :=
      if c == 'Σ' then
        if startsCased before && !startsCased rest then ['ς'] else ['σ']
      else if c == 'İ' then ['i', '\u0307']
      else [lowerChar c]
    lowered ++ lowerFrom (c :: before) rest

/-- The lower-case form of a text. -/
def lower (cs : List Char) : List Char := lowerFrom [] cs

/-- `lower` on strings. -/
def lowercase (s : String) : String := String.ofList (lower s.toList)

end Reckoner.Text
