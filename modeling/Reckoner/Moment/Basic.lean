import Reckoner.Moment.Calendar

/-!
# Moments

A moment is an instant, in nanoseconds since 1970-01-01 00:00 UTC, with an optional offset from UTC
in seconds. Its calendar and clock fields are those of the wall clock in that offset; a moment
without an offset is read in UTC.

`Moment.ofFields` makes a moment from its fields, and `date` and `time` give them back.
-/

namespace Reckoner

def nanosPerSecond : Int := 10 ^ 9

def nanosPerMinute : Int := 60 * nanosPerSecond

def nanosPerHour : Int := 60 * nanosPerMinute

def nanosPerDay : Int := 24 * nanosPerHour

/-- The nanoseconds from midnight to a time of day. -/
def ClockTime.nanos (t : ClockTime) : Int :=
  t.hour * nanosPerHour + t.minute * nanosPerMinute + t.second * nanosPerSecond + t.nanosecond

/-- An instant with an optional offset from UTC. -/
structure Moment where
  /-- Nanoseconds since 1970-01-01 00:00 UTC. -/
  nanos : Int
  /-- Seconds by which the wall clock is ahead of UTC. -/
  offset : Option Int := none
deriving DecidableEq

namespace Moment

instance : Inhabited Moment := ⟨⟨0, none⟩⟩

/-- The nanoseconds by which the wall clock is ahead of UTC. -/
def offsetNanos (offset : Option Int) : Int := offset.getD 0 * nanosPerSecond

/-- The moment at which the wall clock in an offset shows a date and a time. -/
def ofFields (d : CivilDate) (t : ClockTime) (offset : Option Int) : Except DateError Moment := do
  Calendar.checkDate d
  Calendar.checkTime t
  return ⟨Calendar.daysOfCivil d * nanosPerDay + t.nanos - offsetNanos offset, offset⟩

/-- Midnight UTC of a date. -/
def ofDate (d : CivilDate) : Except DateError Moment := ofFields d ⟨0, 0, 0, 0⟩ none

def withOffset (m : Moment) (offset : Int) : Moment := { m with offset := some offset }

/-! ### Fields -/

/-- The whole seconds since 1970-01-01 00:00 UTC, kept to 64 bits. -/
def unixSeconds (m : Moment) : Int := narrow 64 (m.nanos / nanosPerSecond)

/-- The nanoseconds that the wall clock shows since 1970-01-01 00:00. -/
def localNanos (m : Moment) : Int := m.nanos + offsetNanos m.offset

/-- The number of the local day, counted from 1970-01-01. -/
def localDay (m : Moment) : Int := m.localNanos / nanosPerDay

/-- The nanoseconds since local midnight. -/
def nanosOfDay (m : Moment) : Int := m.localNanos % nanosPerDay

/-- The local date. The day number is kept to 64 bits. -/
def date (m : Moment) : CivilDate := Calendar.civilOfDays (narrow 64 m.localDay)

def year (m : Moment) : Int := m.date.year

def month (m : Moment) : Nat := m.date.month

def day (m : Moment) : Nat := m.date.day

def hour (m : Moment) : Nat := (m.localNanos % nanosPerDay / nanosPerHour).toNat

def minute (m : Moment) : Nat := (m.localNanos % nanosPerHour / nanosPerMinute).toNat

def second (m : Moment) : Nat := (m.localNanos % nanosPerMinute / nanosPerSecond).toNat

def nanosecond (m : Moment) : Nat := (m.localNanos % nanosPerSecond).toNat

/-- The local time of day. -/
def time (m : Moment) : ClockTime := ⟨m.hour, m.minute, m.second, m.nanosecond⟩

/-- The day of the week, from Monday, 1, to Sunday, 7. 1970-01-01 was a Thursday. -/
def weekday (m : Moment) : Nat := ((m.localDay + 3) % 7).toNat + 1

def weekdayName (m : Moment) : String := Calendar.weekdayNames.getD (m.weekday - 1) ""

def monthName (m : Moment) : String := Calendar.monthNames.getD (m.month - 1) ""

/-- The day of the year, from 1. -/
def dayOfYear (m : Moment) : Nat :=
  let d := m.date
  (List.range (d.month - 1)).foldr (fun i days => Calendar.daysInMonth d.year (i + 1) + days) d.day

/-- The day of the year of the Thursday of the same week, which may lie in a neighbouring year. -/
def thursday (m : Moment) : Int := (m.dayOfYear : Int) + 4 - m.weekday

/-- The number of the week whose Thursday is the given day of the year. -/
def weekOfThursday (day : Int) : Nat := ((day - 1) / 7 + 1).toNat

/-- The ISO week number. A week belongs to the year of its Thursday; one of the year before is
numbered as the week of its 28 December. -/
def isoWeek (m : Moment) : Nat :=
  let year := m.year
  let thursday := m.thursday
  if thursday < 1 then
    match ofDate ⟨year - 1, 12, 28⟩ with
    | .ok last => weekOfThursday last.thursday
    | .error _ => 52
  else if Calendar.daysInYear year < thursday then 1
  else weekOfThursday thursday

/-! ### Order -/

/-- Orders offsets: none comes first. -/
def compareOffsets : Option Int → Option Int → Ordering
  | none, none => .eq
  | none, some _ => .lt
  | some _, none => .gt
  | some a, some b => compare a b

/-- Orders moments by instant, then by offset. -/
def order (a b : Moment) : Ordering :=
  (compare a.nanos b.nanos).then (compareOffsets a.offset b.offset)

/-! ### Within a day -/

/-- Midnight of the same local day. -/
def startOfDay (m : Moment) : Moment := ⟨m.nanos - m.nanosOfDay, m.offset⟩

/-- The same local day at a time of day. -/
def atTime (m : Moment) (t : ClockTime) : Except DateError Moment := do
  Calendar.checkTime t
  return ⟨m.startOfDay.nanos + t.nanos, m.offset⟩

end Moment

end Reckoner
