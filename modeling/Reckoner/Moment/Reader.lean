import Reckoner.Moment.Basic
import Reckoner.Text.Similarity

/-!
# Reading moments

`Moment.ofText` reads a date with an optional time of day and an optional zone, in the manner of ISO
8601. The parts are read from left to right and the first one at fault is reported.
-/

namespace Reckoner

def invalidField (what : String) (cs : List Char) : DateError :=
  .malformed ("Invalid " ++ what ++ ": '" ++ String.ofList cs ++ "'")

/-- A field of digits below a limit. -/
def readField (what : String) (limit : Nat) (cs : List Char) : Except DateError Nat :=
  match Text.readDigits? cs with
  | some n => if n < limit then .ok n else .error (invalidField what cs)
  | none => .error (invalidField what cs)

/-- A year, a month and a day, with an optional minus sign in front of the year. -/
def CivilDate.ofText (cs : List Char) : Except DateError CivilDate := do
  let (negative, body) := match cs with
    | '-' :: rest => (true, rest)
    | _ => (false, cs)
  match Text.splitAll (· == '-') body with
  | [y, m, d] =>
    let year ← readField "year" (2 ^ 31) y
    let month ← readField "month" (2 ^ 32) m
    let day ← readField "day" (2 ^ 32) d
    return ⟨if negative then -year else year, month, day⟩
  | _ => .error (.malformed ("Expected YYYY-MM-DD, got '" ++ String.ofList cs ++ "'"))

/-- A fraction of a second, of which nine digits count. -/
def readFraction (cs : List Char) : Except DateError Nat :=
  readField "fractional seconds" (2 ^ 32) (Text.padEnd '0' 9 (cs.take 9))

/-- Hours, minutes and perhaps seconds, which may have a fraction. -/
def ClockTime.ofText (cs : List Char) : Except DateError ClockTime := do
  let (clock, nanosecond) ← match Text.cutFirst? (· == '.') cs with
    | some (clock, fraction) => do pure (clock, ← readFraction fraction)
    | none => pure (cs, 0)
  let fields (h m : List Char) (s : Option (List Char)) : Except DateError ClockTime := do
    let hour ← readField "hour" (2 ^ 32) h
    let minute ← readField "minute" (2 ^ 32) m
    let second ← match s with
      | some s => readField "second" (2 ^ 32) s
      | none => pure 0
    let t : ClockTime := ⟨hour, minute, second, nanosecond⟩
    Calendar.checkTime t
    return t
  match Text.splitAll (· == ':') clock with
  | [h, m] => fields h m none
  | [h, m, s] => fields h m (some s)
  | _ => .error (.malformed ("Expected HH:MM[:SS], got '" ++ String.ofList cs ++ "'"))

/-- Splits a text behind its first `n` bytes in UTF-8; `none` if that is inside a character. -/
def splitBytes? : (n : Nat) → List Char → Option (List Char × List Char)
  | 0, cs => some ([], cs)
  | _ + 1, [] => none
  | n + 1, c :: cs =>
    if c.utf8Size ≤ n + 1 then
      (splitBytes? (n + 1 - c.utf8Size) cs).map fun (front, back) => (c :: front, back)
    else none

/-- The hours and minutes of a zone offset: around a colon, or two bytes each, or hours alone. -/
def splitOffset (cs : List Char) : Except DateError (List Char × List Char) :=
  match Text.cutFirst? (· == ':') cs with
  | some parts => .ok parts
  | none =>
    if Text.byteLength cs = 4 then
      match splitBytes? 2 cs with
      | some parts => .ok parts
      | none => .error .splitCharacter
    else .ok (cs, ['0'])

/-- A zone offset without its sign, in seconds. -/
def readOffset (cs : List Char) : Except DateError Nat := do
  let (h, m) ← splitOffset cs
  let hours ← readField "timezone hours" (2 ^ 31) h
  let minutes ← readField "timezone minutes" (2 ^ 31) m
  if 23 < hours ∨ 59 < minutes then
    .error (.malformed ("Invalid timezone offset: '" ++ String.ofList cs ++ "'"))
  else return hours * 3600 + minutes * 60

/-- Splits a zone off the end of a time: `Z`, or a sign from the fifth byte on with an offset behind
it. -/
def splitZone (cs : List Char) : Except DateError (List Char × Option Int) :=
  match Text.dropLast? "Z" cs with
  | some clock => .ok (Text.trimEnd clock, some 0)
  | none =>
    match Text.cutLast? (fun c => c == '+' || c == '-') cs with
    | none => .ok (cs, none)
    | some (clock, sign, offset) =>
      -- No time of day is shorter, so a sign before that is left for the time to refuse.
      if Text.byteLength clock < 4 then .ok (cs, none)
      else do
        let seconds : Int ← readOffset offset
        return (Text.trimEnd clock, some (if sign = '-' then -seconds else seconds))

/-- A date, and behind a `T` or a blank a time of day with an optional zone. Without a time the
moment is midnight UTC. -/
def Moment.ofText (text : String) : Except DateError Moment := do
  let cs := Text.trim text.toList
  match Text.cutFirst? (fun c => c == 'T' || c == ' ') cs with
  | none => Moment.ofDate (← CivilDate.ofText cs)
  | some (date, time) =>
    let d ← CivilDate.ofText date
    let (clock, offset) ← splitZone (Text.trim time)
    let t ← ClockTime.ofText clock
    Moment.ofFields d t offset

end Reckoner
