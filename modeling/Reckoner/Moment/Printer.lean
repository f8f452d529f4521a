import Reckoner.Moment.Basic

/-!
# Writing moments

`Moment.toIso` writes the ISO 8601 text of a moment, and `Moment.format` fills in a pattern such as
`YYYY-MM-DD`. In a pattern the first token of `formatTokens` that fits is taken, and every other
character stands for itself.
-/

namespace Reckoner

/-- An integer with leading zeros up to a width that counts its sign. -/
def paddedInt (width : Nat) (n : Int) : String :=
  if n < 0 then "-" ++ paddedDecimal (width - 1) n.natAbs else paddedDecimal width n.natAbs

namespace Moment

/-- The fraction of a second with its point, without trailing zeros; nothing for a whole second. -/
def fractionText (nanos : Nat) : String :=
  if nanos = 0 then ""
  else
    let digits := Text.padStart '0' 9 (Text.decimalDigits nanos)
    "." ++ String.ofList (Text.dropEndWhile (· == '0') digits)

/-- The offset in hours and minutes; `Z` for none. -/
def offsetText (offset : Option Int) : String :=
  let seconds := offset.getD 0
  if seconds = 0 then "Z"
  else
    (if seconds < 0 then "-" else "+") ++ paddedDecimal 2 (seconds.natAbs / 3600) ++ ":" ++
      paddedDecimal 2 (seconds.natAbs % 3600 / 60)

/-- The ISO 8601 text, with a fraction of a second only where there is one. -/
def toIso (m : Moment) : String :=
  let d := m.date
  paddedInt 4 d.year ++ "-" ++ paddedDecimal 2 d.month ++ "-" ++ paddedDecimal 2 d.day ++ "T" ++
    paddedDecimal 2 m.hour ++ ":" ++ paddedDecimal 2 m.minute ++ ":" ++ paddedDecimal 2 m.second ++
    fractionText m.nanosecond ++ offsetText m.offset

/-- The hour on a clock of twelve hours. -/
def hour12 (m : Moment) : Nat :=
  if m.hour = 0 then 12 else if 12 < m.hour then m.hour - 12 else m.hour

/-- The tokens of a pattern with what they stand for, in the order in which they are tried. -/
def formatTokens : List (String × (Moment → String)) := [
  ("YYYY", fun m => paddedInt 4 m.year),
  ("MMMM", monthName),
  ("dddd", weekdayName),
  ("DDD", fun m => paddedDecimal 3 m.dayOfYear),
  ("SSS", fun m => paddedDecimal 3 (m.nanosecond / 10 ^ 6)),
  ("YY", fun m => paddedInt 2 (m.year % 100)),
  ("MM", fun m => paddedDecimal 2 m.month),
  ("DD", fun m => paddedDecimal 2 m.day),
  ("HH", fun m => paddedDecimal 2 m.hour),
  ("hh", fun m => paddedDecimal 2 m.hour12),
  ("mm", fun m => paddedDecimal 2 m.minute),
  ("ss", fun m => paddedDecimal 2 m.second),
  ("M", fun m => Text.decimal m.month),
  ("D", fun m => Text.decimal m.day),
  ("H", fun m => Text.decimal m.hour),
  ("h", fun m => Text.decimal m.hour12),
  ("m", fun m => Text.decimal m.minute),
  ("s", fun m => Text.decimal m.second),
  ("A", fun m => if m.hour < 12 then "AM" else "PM"),
  ("a", fun m => if m.hour < 12 then "am" else "pm"),
  ("W", fun m => Text.decimal m.isoWeek)]

/-- Fills in a pattern; `skip` counts the characters of a token that is already replaced. -/
def formatFrom (m : Moment) : (skip : Nat) → List Char → List Char
  | _, [] => []
  | skip + 1, _ :: cs => formatFrom m skip cs
  | 0, c :: cs =>
    match formatTokens.find? fun t => t.1.toList.isPrefixOf (c :: cs) with
    | some (token, text) => (text m).toList ++ formatFrom m (token.length - 1) cs
    | none => c :: formatFrom m 0 cs

/-- The text of a pattern with its tokens replaced by the fields of a moment. -/
def format (m : Moment) (pattern : String) : String :=
  String.ofList (formatFrom m 0 pattern.toList)

end Moment

end Reckoner
